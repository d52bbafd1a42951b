import DomainDesign.Compile.Aggregates
import DomainDesign.Proofs.Registers
import DomainDesign.Proofs.Walks

/-!
# What the domain compiler collects

The state of the domain compiler, as a function of the parts that have been visited.

**Taking in.**  `Tracks s slots commands` says what the two registers of a state hold.
`Tracks.enter` is the step lemma, one case per kind of part, and `Tracks.enterAll` is the run: the
aggregations are the `sections` of the parts, where an aggregation has the members that come after
it and stand under it.

**Changes put off.**  They are those of `deferred`, since the place at which a command will stand is
the number of commands before it.  `Tracks.attachAll` says what they do: an aggregation gets the
`places` of the commands that name it, a command the rules that name it, and nothing else changes.

**Taking commands.**  `assemble_eq` says that the commands are taken out as if they were only looked
up, because no place is asked for twice.
-/

namespace DomainDesign.Compile

open Compiled

/-! ## What a part has to say -/

namespace DomainPart

/-- The aggregation that a part is, with its id. -/
def aggregation? : DomainPart → Option (String × Naming)
  | .aggregation id naming => some (id, naming)
  | _ => none

/-- The command that a part is, with its id and the aggregation that it names. -/
def command? : DomainPart → Option (String × Option String × Command)
  | .command id target compiled => some (id, target, compiled)
  | _ => none

/-- The rule that a part is, if it names the command with an id. -/
def ruleFor? (id : String) : DomainPart → Option Rule
  | .rule _ target compiled => if target = some id then some compiled else none
  | _ => none

/-- The entity that a part is, if it stands under the aggregation with an id. -/
def entityIn? (id : String) : DomainPart → Option Entity
  | .entity _ owner compiled => if owner = some id then some compiled else none
  | _ => none

/-- The value object that a part is, if it stands under the aggregation with an id. -/
def valueObjectIn? (id : String) : DomainPart → Option ValueObject
  | .valueObject _ owner compiled => if owner = some id then some compiled else none
  | _ => none

/-- The enumeration that a part is, if it stands under the aggregation with an id. -/
def enumIn? (id : String) : DomainPart → Option Enumeration
  | .enumeration _ owner compiled => if owner = some id then some compiled else none
  | _ => none

end DomainPart

/-- The aggregation with an id, with the members of it that are among the parts. -/
def Slot.withMembers (id : String) (parts : List DomainPart) (slot : Slot) : Slot :=
  { slot with
    entities := slot.entities ++ parts.filterMap (·.entityIn? id)
    valueObjects := slot.valueObjects ++ parts.filterMap (·.valueObjectIn? id)
    enums := slot.enums ++ parts.filterMap (·.enumIn? id) }

/-- The aggregations among the parts, each with the members that come after it. -/
def sections : List DomainPart → List (String × Slot)
  | [] => []
  | .aggregation id naming :: rest => (id, Slot.withMembers id rest { naming }) :: sections rest
  | _ :: rest => sections rest

/-- The commands among the parts. -/
def commandEntries (parts : List DomainPart) : List (String × Command) :=
  (parts.filterMap (·.command?)).map fun e => (e.1, e.2.2)

lemma commandEntries_append (before after : List DomainPart) :
    commandEntries (before ++ after) = commandEntries before ++ commandEntries after := by
  simp [commandEntries]

lemma Slot.withMembers_nil (id : String) (slot : Slot) : slot.withMembers id [] = slot := by
  simp [withMembers]

lemma Slot.withMembers_cons (id : String) (part : DomainPart) (rest : List DomainPart)
    (slot : Slot) :
    slot.withMembers id (part :: rest) = (slot.withMembers id [part]).withMembers id rest := by
  simp only [withMembers, List.append_assoc, ← List.filterMap_append, List.singleton_append]

/-- A part that is no member changes no aggregation. -/
lemma map_withMembers_other {part : DomainPart}
    (hpart : ∀ id,
      part.entityIn? id = none ∧ part.valueObjectIn? id = none ∧ part.enumIn? id = none)
    (slots : List (String × Slot)) :
    slots.map (fun e => (e.1, e.2.withMembers e.1 [part])) = slots := by
  have hsame : ∀ e ∈ slots, (e.1, e.2.withMembers e.1 [part]) = e := by
    intro e _
    obtain ⟨hentity, hvalue, henum⟩ := hpart e.1
    simp [Slot.withMembers, hentity, hvalue, henum]
  rw [List.map_congr_left hsame, List.map_id']

lemma sections_cons (part : DomainPart) (rest : List DomainPart) :
    sections (part :: rest)
      = (sections [part]).map (fun e => (e.1, e.2.withMembers e.1 rest)) ++ sections rest := by
  cases part <;> simp [sections, Slot.withMembers_nil]

/-- The ids and names of the aggregations are those of their parts. -/
lemma sections_naming (parts : List DomainPart) :
    (sections parts).map (fun e => (e.1, e.2.naming)) = parts.filterMap (·.aggregation?) := by
  induction parts with
  | nil => rfl
  | cons part rest ih =>
      cases part <;> simp [sections, DomainPart.aggregation?, Slot.withMembers, ih]

/-- No command has been attached to an aggregation when it has just been visited. -/
lemma commands_of_mem_sections {parts : List DomainPart} {e : String × Slot}
    (h : e ∈ sections parts) :
    e.2.commands = [] := by
  induction parts with
  | nil => simp [sections] at h
  | cons part rest ih =>
      rw [sections_cons, List.mem_append] at h
      rcases h with h | h
      · cases part <;> simp [sections] at h
        rw [h]
        rfl
      · exact ih h

/-! ## Changes put off -/

/-- The changes that a part puts off, where a command will stand at the given place. -/
def DomainPart.changes (place : ℕ) : DomainPart → List (DomainState → DomainState)
  | .command _ (some target) _ => [DomainState.attachCommand target place]
  | .rule _ (some target) compiled => [DomainState.attachRule target compiled]
  | _ => []

/-- The changes that parts put off, where the first command will stand at the given place. -/
def deferred (place : ℕ) : List DomainPart → List (DomainState → DomainState)
  | [] => []
  | part :: rest => part.changes place ++ deferred (place + (commandEntries [part]).length) rest

lemma DomainPart.later_eq (part : DomainPart) (s : DomainState) :
    part.later s = part.changes s.commands.items.length := by
  cases part with
  | command id target compiled => cases target <;> rfl
  | rule id target compiled => cases target <;> rfl
  | _ => rfl

/-- The places of the commands that name the aggregation with an id, where the first command stands
at the given place. -/
def places (place : ℕ) (id : String) (parts : List DomainPart) : List ℕ :=
  (((parts.filterMap (·.command?)).zipIdx place).filter fun e => e.1.2.1 = some id).map (·.2)

/-- An aggregation with the commands at places. -/
def Slot.withPlaces (slot : Slot) (places : List ℕ) : Slot :=
  { slot with commands := slot.commands ++ places }

/-- A command with more rules. -/
def withRules (c : Command) (rules : List Rule) : Command :=
  { c with rules := c.rules ++ rules }

@[simp] lemma Slot.withPlaces_nil (slot : Slot) : slot.withPlaces [] = slot := by
  simp [withPlaces]

lemma Slot.withPlaces_withPlaces (slot : Slot) (before after : List ℕ) :
    (slot.withPlaces before).withPlaces after = slot.withPlaces (before ++ after) := by
  simp [withPlaces]

@[simp] lemma withRules_nil (c : Command) : withRules c [] = c := by
  simp [withRules]

lemma withRules_withRules (c : Command) (before after : List Rule) :
    withRules (withRules c before) after = withRules c (before ++ after) := by
  simp [withRules]

lemma places_cons (place : ℕ) (id : String) (part : DomainPart) (rest : List DomainPart) :
    places place id (part :: rest)
      = places place id [part] ++ places (place + (commandEntries [part]).length) id rest := by
  cases part with
  | command =>
      simp [places, commandEntries, DomainPart.command?, ← List.map_append, ← List.filter_append]
  | _ => simp [places, commandEntries, DomainPart.command?]

/-! ## Taking in -/

/-- What the registers of a state hold. -/
structure Tracks (s : DomainState) (slots : List (String × Slot))
    (commands : List (String × Command)) : Prop where
  aggregates : s.aggregates.Holds slots
  commands : s.commands.Holds commands

namespace Tracks

variable {s : DomainState} {slots : List (String × Slot)} {commands : List (String × Command)}

lemma start : Tracks {} [] [] :=
  ⟨Register.holds_empty, Register.holds_empty⟩

lemma warn (h : Tracks s slots commands) (warnings : List Warning) :
    Tracks (s.warn warnings) slots commands :=
  ⟨h.aggregates, h.commands⟩

/-- A member is added to the aggregation it stands under and to no other. -/
lemma addMember (h : Tracks s slots commands) (hnodup : (slots.map (·.1)).Nodup) (member : Member)
    (id : String) (owner : Option String) (add : Slot → Slot) :
    Tracks (s.addMember member id owner add)
      (slots.map fun e => (e.1, if owner = some e.1 then add e.2 else e.2)) commands := by
  cases owner with
  | none =>
      simp only [reduceCtorEq, if_false, List.map_id']
      exact h.warn _
  | some o =>
      have hchange : slots.map (fun e => (e.1, if some o = some e.1 then add e.2 else e.2))
          = Register.changeAt o add slots := by
        simp only [Option.some.injEq, eq_comm (a := o), Register.changeAt]
      rw [hchange]
      simp only [DomainState.addMember, Option.bind_some]
      cases hplace : s.aggregates.place? o with
      | some place => exact ⟨h.aggregates.modifyAt hnodup hplace add, h.commands⟩
      | none =>
          rw [h.aggregates.changeAt_eq hplace]
          exact h.warn _

/-- A part that is neither an aggregation nor a command adds no entry. -/
lemma keep {part : DomainPart} (hsections : sections [part] = [])
    (hentries : commandEntries [part] = []) (h : Tracks s slots commands) :
    Tracks s (slots ++ sections [part]) (commands ++ commandEntries [part]) := by
  rwa [hsections, hentries, List.append_nil, List.append_nil]

/-- **Taking in a part.**  A new aggregation or command comes to the end of its register, and a
member goes to the aggregation it stands under. -/
lemma enter (h : Tracks s slots commands) (part : DomainPart)
    (hslots : ((slots ++ sections [part]).map (·.1)).Nodup)
    (hcommands : ((commands ++ commandEntries [part]).map (·.1)).Nodup) :
    Tracks (part.enter s)
      (slots.map (fun e => (e.1, e.2.withMembers e.1 [part])) ++ sections [part])
      (commands ++ commandEntries [part]) := by
  have hkept : (slots.map (·.1)).Nodup := by
    rw [List.map_append] at hslots
    exact hslots.of_append_left
  cases part with
  | aggregation id naming =>
      have hid : id ∉ slots.map (·.1) := key_notMem_before hslots
      rw [map_withMembers_other fun _ => ⟨rfl, rfl, rfl⟩]
      simp only [commandEntries, List.filterMap_cons, List.filterMap_nil, DomainPart.command?,
        List.map_nil, List.append_nil, sections, Slot.withMembers_nil]
      exact ⟨h.aggregates.push hid _, h.commands⟩
  | command id target compiled =>
      have hid : id ∉ commands.map (·.1) := key_notMem_before hcommands
      rw [map_withMembers_other fun _ => ⟨rfl, rfl, rfl⟩]
      simp only [commandEntries, List.filterMap_cons, List.filterMap_nil, DomainPart.command?,
        List.map_cons, List.map_nil, List.append_nil, sections]
      exact ⟨h.aggregates, h.commands.push hid compiled⟩
  | entity id owner compiled =>
      refine keep rfl rfl ?_
      have hmember : ∀ e ∈ slots, (e.1, e.2.withMembers e.1 [.entity id owner compiled])
          = (e.1, if owner = some e.1 then e.2.withEntity compiled else e.2) := by
        intro e _
        split <;> simp_all [Slot.withMembers, Slot.withEntity, DomainPart.entityIn?,
          DomainPart.valueObjectIn?, DomainPart.enumIn?]
      rw [List.map_congr_left hmember]
      exact (h.warn _).addMember hkept _ _ _ _
  | valueObject id owner compiled =>
      refine keep rfl rfl ?_
      have hmember : ∀ e ∈ slots, (e.1, e.2.withMembers e.1 [.valueObject id owner compiled])
          = (e.1, if owner = some e.1 then e.2.withValueObject compiled else e.2) := by
        intro e _
        split <;> simp_all [Slot.withMembers, Slot.withValueObject, DomainPart.entityIn?,
          DomainPart.valueObjectIn?, DomainPart.enumIn?]
      rw [List.map_congr_left hmember]
      exact h.addMember hkept _ _ _ _
  | enumeration id owner compiled =>
      refine keep rfl rfl ?_
      have hmember : ∀ e ∈ slots, (e.1, e.2.withMembers e.1 [.enumeration id owner compiled])
          = (e.1, if owner = some e.1 then e.2.withEnum compiled else e.2) := by
        intro e _
        split <;> simp_all [Slot.withMembers, Slot.withEnum, DomainPart.entityIn?,
          DomainPart.valueObjectIn?, DomainPart.enumIn?]
      rw [List.map_congr_left hmember]
      exact h.addMember hkept _ _ _ _
  | rule id target compiled =>
      refine keep rfl rfl ?_
      rw [map_withMembers_other fun _ => ⟨rfl, rfl, rfl⟩]
      exact h.warn _
  | skipped warnings =>
      refine keep rfl rfl ?_
      rw [map_withMembers_other fun _ => ⟨rfl, rfl, rfl⟩]
      exact h.warn _

/-- **Taking in all parts.** -/
lemma enterAll {parts : List DomainPart} (h : Tracks s slots commands)
    (hslots : ((slots ++ sections parts).map (·.1)).Nodup)
    (hcommands : ((commands ++ commandEntries parts).map (·.1)).Nodup) :
    Tracks (domainCollector.enterAll parts s).1
        (slots.map (fun e => (e.1, e.2.withMembers e.1 parts)) ++ sections parts)
        (commands ++ commandEntries parts)
      ∧ (domainCollector.enterAll parts s).2 = deferred commands.length parts := by
  induction parts generalizing s slots commands with
  | nil =>
      refine ⟨?_, rfl⟩
      simp only [Slot.withMembers_nil, sections, commandEntries, List.filterMap_nil, List.map_nil,
        List.append_nil, List.map_id']
      exact h
  | cons part rest ih =>
      have hentries :
          commandEntries (part :: rest) = commandEntries [part] ++ commandEntries rest := by
        rw [← commandEntries_append]
        rfl
      rw [hentries, ← List.append_assoc] at hcommands ⊢
      -- members change no id, so what the step leaves has the ids that there were
      have hids : (slots ++ sections (part :: rest)).map (·.1)
          = ((slots.map (fun e => (e.1, e.2.withMembers e.1 [part])) ++ sections [part])
              ++ sections rest).map (·.1) := by
        rw [sections_cons]
        simp [Function.comp_def]
      have hslot : ((slots ++ sections [part]).map (·.1)).Nodup := by
        rw [hids, List.map_append] at hslots
        simpa [Function.comp_def] using hslots.of_append_left
      have hcommand : ((commands ++ commandEntries [part]).map (·.1)).Nodup := by
        rw [List.map_append] at hcommands
        exact hcommands.of_append_left
      have hstep := h.enter part hslot hcommand
      obtain ⟨htracks, hchanges⟩ := ih hstep (hids ▸ hslots) hcommands
      have hlength : s.commands.items.length = commands.length := by
        rw [h.commands.items, List.length_map]
      refine ⟨?_, ?_⟩
      · change Tracks (domainCollector.enterAll rest (part.enter s)).1 _ _
        simp only [sections_cons part rest, Slot.withMembers_cons _ part rest]
        simpa [Function.comp_def] using htracks
      -- a command puts off a change at the place that it is about to get
      · change part.later s ++ (domainCollector.enterAll rest (part.enter s)).2 = _
        rw [hchanges, DomainPart.later_eq, hlength, List.length_append]
        rfl

/-- A command is attached to the aggregation that it names. -/
lemma attachCommand (h : Tracks s slots commands) (hnodup : (slots.map (·.1)).Nodup)
    (target : String) (place : ℕ) :
    Tracks (s.attachCommand target place)
      (Register.changeAt target (·.withCommand place) slots) commands := by
  simp only [DomainState.attachCommand]
  cases hplace : s.aggregates.place? target with
  | some slot => exact ⟨h.aggregates.modifyAt hnodup hplace _, h.commands⟩
  | none =>
      rw [h.aggregates.changeAt_eq hplace]
      exact h.warn _

/-- A rule is attached to the command that it names. -/
lemma attachRule (h : Tracks s slots commands) (hnodup : (commands.map (·.1)).Nodup)
    (target : String) (rule : Rule) :
    Tracks (s.attachRule target rule)
      slots (Register.changeAt target (withRule · rule) commands) := by
  simp only [DomainState.attachRule]
  cases hplace : s.commands.place? target with
  | some place => exact ⟨h.aggregates, h.commands.modifyAt hnodup hplace _⟩
  | none =>
      rw [h.commands.changeAt_eq hplace]
      exact h.warn _

/-- **Making the changes of one part.**  Only what the part names is changed. -/
lemma attach (h : Tracks s slots commands) (hslots : (slots.map (·.1)).Nodup)
    (hcommands : (commands.map (·.1)).Nodup) (part : DomainPart) (place : ℕ) :
    Tracks ((part.changes place).foldl (fun s change => change s) s)
      (slots.map fun e => (e.1, e.2.withPlaces (places place e.1 [part])))
      (commands.map fun e => (e.1, withRules e.2 ([part].filterMap (·.ruleFor? e.1)))) := by
  cases part with
  | command id target compiled =>
      have hrules : commands.map (fun e => (e.1,
          withRules e.2
            ([DomainPart.command id target compiled].filterMap (·.ruleFor? e.1)))) = commands := by
        simp [DomainPart.ruleFor?]
      rw [hrules]
      cases target with
      | none => simpa [places, DomainPart.command?, DomainPart.changes] using h
      | some target =>
          have hplaces : slots.map (fun e => (e.1,
              e.2.withPlaces (places place e.1 [.command id (some target) compiled])))
              = Register.changeAt target (·.withCommand place) slots := by
            refine List.map_congr_left fun e _ => ?_
            by_cases he : e.1 = target
            · simp [places, DomainPart.command?, he, Slot.withPlaces, Slot.withCommand]
            · simp [places, DomainPart.command?, he, Ne.symm he]
          rw [hplaces]
          exact h.attachCommand hslots target place
  | rule id target compiled =>
      have hplaces : slots.map (fun e => (e.1,
          e.2.withPlaces (places place e.1 [.rule id target compiled]))) = slots := by
        simp [places, DomainPart.command?]
      rw [hplaces]
      cases target with
      | none => simpa [DomainPart.ruleFor?, DomainPart.changes] using h
      | some target =>
          have hrules : commands.map (fun e => (e.1,
              withRules e.2
                ([DomainPart.rule id (some target) compiled].filterMap (·.ruleFor? e.1))))
              = Register.changeAt target (withRule · compiled) commands := by
            refine List.map_congr_left fun e _ => ?_
            by_cases he : e.1 = target
            · simp [DomainPart.ruleFor?, he, withRules, withRule]
            · simp [DomainPart.ruleFor?, he, Ne.symm he]
          rw [hrules]
          exact h.attachRule hcommands target compiled
  | _ => simpa [DomainPart.changes, DomainPart.ruleFor?, places, DomainPart.command?] using h

/-- **Making all changes.** -/
lemma attachAll (h : Tracks s slots commands) (hslots : (slots.map (·.1)).Nodup)
    (hcommands : (commands.map (·.1)).Nodup) (parts : List DomainPart) (place : ℕ) :
    Tracks ((deferred place parts).foldl (fun s change => change s) s)
      (slots.map fun e => (e.1, e.2.withPlaces (places place e.1 parts)))
      (commands.map fun e => (e.1, withRules e.2 (parts.filterMap (·.ruleFor? e.1)))) := by
  induction parts generalizing s slots commands place with
  | nil => simpa [deferred, places] using h
  | cons part rest ih =>
      have hrest :=
        ih (h.attach hslots hcommands part place) (by simpa [Function.comp_def] using hslots)
        (by simpa [Function.comp_def] using hcommands) (place + (commandEntries [part]).length)
      rw [List.map_map, List.map_map] at hrest
      simp only [Function.comp_def, Slot.withPlaces_withPlaces, withRules_withRules, ← places_cons,
        ← List.filterMap_append, List.singleton_append] at hrest
      -- the place moves on by one at every command, as in the run that put the changes off
      rw [deferred, List.foldl_append]
      exact hrest

end Tracks

/-! ## Taking commands out -/

/-- Commands at different places that have not been taken are taken as if they were looked up, and
nothing else is. -/
lemma takeCommands_eq {commands : List Command} {asked : List ℕ} {left : List (Option Command)}
    (hnodup : asked.Nodup) (hleft : ∀ i ∈ asked, left[i]? = (commands.map some)[i]?) :
    (takeCommands asked left).1 = asked.filterMap (commands[·]?)
      ∧ ∀ i, i ∉ asked → (takeCommands asked left).2[i]? = left[i]? := by
  induction asked generalizing left with
  | nil => simp [takeCommands]
  | cons place rest ih =>
      obtain ⟨hplace, hrest⟩ := List.nodup_cons.mp hnodup
      have hfirst : left[place]? = (commands[place]?).map some := by
        rw [hleft place (by simp), List.getElem?_map]
      cases hcommand : commands[place]? with
      | none =>
          rw [hcommand] at hfirst
          obtain ⟨htaken, hkept⟩ := ih hrest fun i hi => hleft i (List.mem_cons_of_mem _ hi)
          simp only [takeCommands, hfirst, Option.map_none, List.filterMap_cons, hcommand]
          exact ⟨htaken, fun i hi => hkept i fun hmem => hi (List.mem_cons_of_mem _ hmem)⟩
      | some command =>
          rw [hcommand] at hfirst
          -- taking one command leaves the places still asked for, since none of them is the same
          have hset : ∀ i ∈ rest, (left.set place none)[i]? = (commands.map some)[i]? := by
            intro i hi
            have hne : place ≠ i := fun heq => hplace (heq ▸ hi)
            rw [List.getElem?_set_ne hne]
            exact hleft i (List.mem_cons_of_mem _ hi)
          obtain ⟨htaken, hkept⟩ := ih hrest hset
          simp only [takeCommands, hfirst, Option.map_some, List.filterMap_cons, hcommand, htaken]
          refine ⟨trivial, fun i hi => ?_⟩
          rw [List.mem_cons, not_or] at hi
          rw [hkept i hi.2, List.getElem?_set_ne (Ne.symm hi.1)]

/-- Where no place is asked for twice, every aggregation has the commands at its places. -/
lemma assemble_eq {commands : List Command} {slots : List Slot} {left : List (Option Command)}
    (hnodup : (slots.flatMap (·.commands)).Nodup)
    (hleft : ∀ i ∈ slots.flatMap (·.commands), left[i]? = (commands.map some)[i]?) :
    assemble slots left = slots.map fun s => aggregate s (s.commands.filterMap (commands[·]?)) := by
  induction slots generalizing left with
  | nil => rfl
  | cons slot rest ih =>
      rw [List.flatMap_cons, List.nodup_append] at hnodup
      obtain ⟨hslot, hrest, hapart⟩ := hnodup
      simp only [List.flatMap_cons, List.mem_append] at hleft
      obtain ⟨htaken, hkept⟩ := takeCommands_eq hslot fun i hi => hleft i (.inl hi)
      simp only [assemble, List.map_cons, htaken]
      rw [ih hrest]
      intro i hi
      -- an aggregation takes nothing away from those after it
      rw [hkept i fun hmem => hapart i hmem i hi rfl]
      exact hleft i (.inr hi)

lemma nodup_zipIdx {α : Type} (items : List α) (place : ℕ) :
    ((items.zipIdx place).map (·.2)).Nodup := by
  rw [List.zipIdx_map_snd]
  exact List.nodup_range'

lemma nodup_places (place : ℕ) (id : String) (parts : List DomainPart) :
    (places place id parts).Nodup :=
  (nodup_zipIdx _ place).sublist (List.filter_sublist.map _)

/-- A command names one aggregation. -/
lemma eq_of_mem_places {place i : ℕ} {id id' : String} {parts : List DomainPart}
    (h : i ∈ places place id parts) (h' : i ∈ places place id' parts) : id = id' := by
  simp only [places, List.mem_map, List.mem_filter, decide_eq_true_eq] at h h'
  obtain ⟨e, ⟨hmem, hid⟩, rfl⟩ := h
  obtain ⟨e', ⟨hmem', hid'⟩, hplace⟩ := h'
  have he : e' = e := List.inj_on_of_nodup_map (nodup_zipIdx _ place) hmem' hmem hplace
  rw [he, hid] at hid'
  exact Option.some.inj hid'

/-- Looking up the items at the places of those that are kept. -/
lemma filterMap_places {α β : Type} (kept : α → Bool) (finish : α → β) (items : List α)
    (before : List β) :
    (((items.zipIdx before.length).filter fun e => kept e.1).map (·.2)).filterMap
        (fun i => (before ++ items.map finish)[i]?)
      = (items.filter kept).map finish := by
  induction items generalizing before with
  | nil => rfl
  | cons a rest ih =>
      have hrest := ih (before ++ [finish a])
      simp only [List.length_append, List.length_singleton, List.append_assoc,
        List.singleton_append] at hrest
      cases ha : kept a with
      | false => simpa [ha] using hrest
      | true => simpa [ha] using hrest

/-! ## The whole -/

/-- The commands that name the aggregation with an id, each with the rules that name it. -/
def commandsFor (id : String) (parts : List DomainPart) : List Command :=
  ((parts.filterMap (·.command?)).filter fun e => e.2.1 = some id).map fun e =>
    withRules e.2.2 (parts.filterMap (·.ruleFor? e.1))

/-- They are the commands at the places of the aggregation. -/
lemma commandsFor_eq (id : String) (parts : List DomainPart) :
    commandsFor id parts = (places 0 id parts).filterMap fun i =>
      ((commandEntries parts).map fun e =>
        withRules e.2 (parts.filterMap (·.ruleFor? e.1)))[i]? := by
  rw [commandsFor, ← filterMap_places _ _ _ [], commandEntries, List.map_map]
  rfl

/-- What the state holds when everything is settled. -/
lemma tracks_settle {parts : List DomainPart} (hslots : ((sections parts).map (·.1)).Nodup)
    (hcommands : ((commandEntries parts).map (·.1)).Nodup) :
    Tracks (domainCollector.settle {} parts)
      ((sections parts).map fun e => (e.1, e.2.withPlaces (places 0 e.1 parts)))
      ((commandEntries parts).map fun e =>
        (e.1, withRules e.2 (parts.filterMap (·.ruleFor? e.1)))) := by
  obtain ⟨hentered, hchanges⟩ := Tracks.start.enterAll hslots hcommands
  rw [Tree.Collector.settle, hchanges]
  exact hentered.attachAll hslots hcommands parts 0

/-- No two aggregations have a place in common. -/
lemma nodup_flatMap_places {ids : List String} (hids : ids.Nodup) (parts : List DomainPart) :
    (ids.flatMap fun id => places 0 id parts).Nodup := by
  rw [List.nodup_flatMap]
  refine ⟨fun id _ => nodup_places 0 id parts, hids.imp fun hne => ?_⟩
  intro i hi hi'
  exact hne (eq_of_mem_places hi hi')

/-- **What the domain compiler makes of parts.** -/
theorem aggregates_of_settle {parts : List DomainPart} (hslots : ((sections parts).map (·.1)).Nodup)
    (hcommands : ((commandEntries parts).map (·.1)).Nodup) :
    (domainCollector.settle {} parts).report.result.aggregates
      = (sections parts).map fun e => aggregate e.2 (commandsFor e.1 parts) := by
  have hsettled := tracks_settle hslots hcommands
  have hplaces : ∀ e ∈ sections parts,
      (e.2.withPlaces (places 0 e.1 parts)).commands = places 0 e.1 parts := by
    intro e he
    rw [Slot.withPlaces, commands_of_mem_sections he, List.nil_append]
  have hasked :
      ((sections parts).map fun e => e.2.withPlaces (places 0 e.1 parts)).flatMap (·.commands)
      = ((sections parts).map (·.1)).flatMap fun id => places 0 id parts := by
    rw [List.flatMap_map, List.flatMap_map]
    exact List.flatMap_congr hplaces
  have hitems : (domainCollector.settle {} parts).aggregates.items
      = (sections parts).map fun e => e.2.withPlaces (places 0 e.1 parts) := by
    rw [hsettled.aggregates.items, List.map_map]
    rfl
  have hnodup := nodup_flatMap_places hslots parts
  rw [← hasked] at hnodup
  change assemble _ _ = _
  rw [hitems, assemble_eq hnodup fun _ _ => rfl, List.map_map, hsettled.commands.items]
  refine List.map_congr_left fun e he => ?_
  rw [Function.comp_apply, hplaces e he, commandsFor_eq, List.map_map]
  rfl

end DomainDesign.Compile
