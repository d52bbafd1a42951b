import DomainDesign.Compile.Rendering
import DomainDesign.Proofs.Grouping
import DomainDesign.Proofs.Outcomes
import DomainDesign.Proofs.Registers

/-!
# What becomes of overloaded methods

Methods are merged in one pass.  It carries along the compiled methods, the place of each name among
them, and the parameters of all methods that went into a name; a method is looked up in all three.
`overloads_grouped` says what comes out, without the pass: an entry for every name, with the
signatures of all methods of that name, unless two of the methods cannot be told apart.

**Types.**  Two types agree if they are the same without their display names, `TypeExpr.agrees_iff`.
So it does not matter which of two methods is asked about the other (`Clash.symm`), and whether
methods can be told apart does not depend on their order (`ambiguous_perm`).

**One method.**  `Merging.Follows` says what the three parts of the pass are after the methods so
far: the compiled methods are `Grouped` by name.  `Merging.Follows.add` says what one more method
does to them: it is refused if it clashes with one before it, and otherwise it is in its group.

**All methods.**  `Merging.Follows.addAll` is the run, by induction on what is left of the list.
-/

namespace DomainDesign

/-! ## Types without display names -/

namespace TypeExpr

mutual

/-- A type without the display names of its references. -/
def unnamed : TypeExpr → TypeExpr
  | .base n => .base n
  | .container n params => .container n (unnamedParams params)
  | .reference id _ => .reference id ""

/-- Parameters without the display names of their references. -/
def unnamedParams : List (String × Option TypeExpr) → List (String × Option TypeExpr)
  | [] => []
  | (k, none) :: rest => (k, none) :: unnamedParams rest
  | (k, some t) :: rest => (k, some (unnamed t)) :: unnamedParams rest

end

mutual

/-- **Two types agree if they differ in display names only.** -/
lemma agrees_iff : (a b : TypeExpr) → (agrees a b = true ↔ a.unnamed = b.unnamed)
  | .base _, b => by cases b <;> simp [agrees, unnamed]
  | .container _ ps, b => by cases b <;> simp [agrees, unnamed, paramsAgree_iff ps]
  | .reference _ _, b => by cases b <;> simp [agrees, unnamed]

lemma paramsAgree_iff : (ps qs : List (String × Option TypeExpr)) →
    (paramsAgree ps qs = true ↔ unnamedParams ps = unnamedParams qs)
  | [], qs => by
    rcases qs with _ | ⟨⟨_, _ | _⟩, qs⟩ <;> simp [paramsAgree, unnamedParams]
  | (_, none) :: ps, qs => by
    rcases qs with _ | ⟨⟨_, _ | _⟩, qs⟩ <;> simp [paramsAgree, unnamedParams, paramsAgree_iff ps]
  | (_, some s) :: ps, qs => by
    rcases qs with _ | ⟨⟨_, _ | _⟩, qs⟩ <;>
      simp [paramsAgree, unnamedParams, paramsAgree_iff ps, agrees_iff s]

end

lemma agrees?_iff (a b : Option TypeExpr) :
    agrees? a b = true ↔ a.map unnamed = b.map unnamed := by
  cases a <;> cases b <;> simp [agrees?, agrees_iff]

end TypeExpr

namespace Compile

open Compiled

/-! ## Methods that cannot be told apart -/

/-- Two methods clash: they have the same name, and as many parameters, whose types agree pairwise
or are both missing. -/
def Clash (a b : Model.Method) : Prop :=
  a.name = b.name
    ∧ List.Forall₂ (fun p q : Model.Parameter => TypeExpr.agrees? p.type q.type = true)
      a.parameters b.parameters

/-- Two methods of a list clash, at whatever places they stand. -/
def Ambiguous (ms : List Model.Method) : Prop :=
  ∃ (i j : ℕ) (a b : Model.Method), i ≠ j ∧ ms[i]? = some a ∧ ms[j]? = some b ∧ Clash a b

/-- A method is the first one of a list that clashes with one before it. -/
def FirstClash (ms : List Model.Method) (m : Model.Method) : Prop :=
  ∃ before after, ms = before ++ m :: after ∧ (∃ a ∈ before, Clash a m)
    ∧ before.Pairwise fun a b => ¬ Clash a b

lemma Clash.symm {a b : Model.Method} (h : Clash a b) : Clash b a := by
  refine ⟨h.1.symm, h.2.flip.imp fun q p hpq => ?_⟩
  rw [TypeExpr.agrees?_iff] at hpq ⊢
  exact hpq.symm

lemma sameTypes_iff (ps qs : List Model.Parameter) : sameTypes ps qs = true
    ↔ List.Forall₂ (fun p q => TypeExpr.agrees? p.type q.type = true) ps qs := by
  induction ps generalizing qs with
  | nil => cases qs <;> simp [sameTypes]
  | cons p ps ih => cases qs <;> simp [sameTypes, ih]

lemma not_ambiguous_iff {ms : List Model.Method} :
    ¬ Ambiguous ms ↔ ms.Pairwise fun a b => ¬ Clash a b := by
  rw [List.pairwise_iff_getElem]
  constructor
  · intro hnot i j hi hj hlt hclash
    refine hnot ⟨i, j, _, _, Nat.ne_of_lt hlt, ?_, ?_, hclash⟩
    · exact List.getElem?_eq_getElem hi
    · exact List.getElem?_eq_getElem hj
  · rintro hpairs ⟨i, j, a, b, hne, ha, hb, hclash⟩
    obtain ⟨hi, rfl⟩ := List.getElem?_eq_some_iff.mp ha
    obtain ⟨hj, rfl⟩ := List.getElem?_eq_some_iff.mp hb
    rcases Nat.lt_or_gt_of_ne hne with hlt | hlt
    · exact hpairs i j hi hj hlt hclash
    · exact hpairs j i hj hi hlt hclash.symm

/-- Whether methods can be told apart does not depend on their order. -/
lemma ambiguous_perm {ms ms' : List Model.Method} (h : ms.Perm ms') :
    Ambiguous ms ↔ Ambiguous ms' := by
  rw [← not_iff_not, not_ambiguous_iff, not_ambiguous_iff]
  exact h.pairwise_iff fun hnot hclash => hnot hclash.symm

lemma FirstClash.ambiguous {ms : List Model.Method} {m : Model.Method} (h : FirstClash ms m) :
    Ambiguous ms := by
  obtain ⟨before, after, rfl, ⟨a, ha, hclash⟩, -⟩ := h
  by_contra hnot
  have hpairs := not_ambiguous_iff.mp hnot
  exact (List.pairwise_append.mp hpairs).2.2 a ha m List.mem_cons_self hclash

/-! ## Groups -/

/-- A compiled method is the group of methods of one name: it is called what the first of them is,
and has the signatures of all of them, in order. -/
structure OverloadsOf (sign : Model.Method → Signature) (same : List Model.Method) (e : Method) :
    Prop where
  first : ∃ first, same.head? = some first ∧ e.toNaming = naming first.toNaming
    ∧ e.access = first.access ∧ e.isAbstract = first.isAbstract
  signatures : e.signatures.toList = same.map sign
  single : (∃ s, e.signatures = .single s) ↔ same.length = 1

/-- Compiled methods are the groups of methods by name. -/
def GroupsOf (sign : Model.Method → Signature) (ms : List Model.Method) (compiled : List Method) :
    Prop :=
  Grouped (·.name) (·.name) (OverloadsOf sign) ms compiled

variable {t : Tree} {c : Config} {sign : Model.Method → Signature} {ms : List Model.Method}
  {m : Model.Method} {e : Method} {name : String}

lemma toList_push (ss : Signatures) (s : Signature) : (ss.push s).toList = ss.toList ++ [s] := by
  cases ss <;> rfl

/-- One method is a group. -/
lemma overloadsOf_single (m : Model.Method) :
    OverloadsOf sign [m]
      { toNaming := naming m.toNaming, access := m.access, isAbstract := m.isAbstract,
        signatures := .single (sign m) } :=
  ⟨⟨m, rfl, rfl, rfl, rfl⟩, rfl, iff_of_true ⟨_, rfl⟩ rfl⟩

/-- One more method of the name adds its signature. -/
lemma OverloadsOf.push {same : List Model.Method} (h : OverloadsOf sign same e) (hsome : same ≠ [])
    (m : Model.Method) :
    OverloadsOf sign (same ++ [m]) (withSignature (sign m) e) := by
  obtain ⟨first, hfirst, hrest⟩ := h.first
  refine ⟨⟨first, ?_, hrest⟩, ?_, ?_⟩
  · rw [List.head?_append, hfirst, Option.some_or]
  · rw [withSignature, toList_push, h.signatures, List.map_append, List.map_singleton]
  · have hpushed : ¬ ∃ s, e.signatures.push (sign m) = .single s := by
      rintro ⟨s, hs⟩
      cases hold : e.signatures <;> rw [hold] at hs <;> cases hs
    have hlength : 0 < same.length := List.length_pos_iff.mpr hsome
    rw [List.length_append, List.length_singleton]
    exact iff_of_false hpushed (by omega)

namespace Merging

/-! ## One method -/

/-- What the parts of the pass are after methods: the groups of these methods, the place of every
name among them, and the parameters of the methods of a name. -/
structure Follows (sign : Model.Method → Signature) (ms : List Model.Method) (s : Merging) :
    Prop where
  groups : GroupsOf sign ms s.compiled.items
  places : s.compiled.Holds (s.compiled.items.map fun e => (e.name, e))
  earlier : ∀ name, (s.earlier.lookup name).getD [] = (members (·.name) ms name).map (·.parameters)

variable {s : Merging}

lemma follows_empty (sign : Model.Method → Signature) : Follows sign [] {} :=
  ⟨Grouped.nil, Register.holds_empty, fun _ => rfl⟩

lemma Follows.place?_eq_none_iff (h : Follows sign ms s) :
    s.compiled.place? name = none ↔ name ∉ ms.map (·.name) := by
  rw [h.places.place?_eq_none_iff, List.map_map, ← h.groups.mem_names_iff]
  rfl

lemma Follows.exists_place (h : Follows sign ms s) (hname : name ∈ ms.map (·.name)) :
    ∃ place, s.compiled.place? name = some place :=
  Option.ne_none_iff_exists'.mp fun hnone => h.place?_eq_none_iff.mp hnone hname

/-- The parameters under a name tell whether a method clashes with one before it. -/
lemma Follows.any_sameTypes_iff (h : Follows sign ms s) (m : Model.Method) :
    ((s.earlier.lookup m.name).getD []).any (sameTypes · m.parameters) = true
      ↔ ∃ a ∈ ms, Clash a m := by
  rw [h.earlier]
  simp [members, Clash, sameTypes_iff]

/-- Noting the parameters of one more method. -/
lemma Follows.lookup_insert (h : Follows sign ms s) (m : Model.Method) (name : String) :
    ((Dict.insert m.name ((s.earlier.lookup m.name).getD [] ++ [m.parameters])
        s.earlier).lookup name).getD []
      = (members (·.name) (ms ++ [m]) name).map (·.parameters) := by
  rw [Dict.lookup_insert, members_concat]
  by_cases hname : name = m.name
  · subst hname
    simp [h.earlier]
  · simp [hname, Ne.symm hname, h.earlier]

/-- The first method of a name. -/
lemma Follows.add_first (h : Follows sign ms s) (hname : m.name ∉ ms.map (·.name)) :
    ∃ s', s.add sign m = .ok s' ∧ Follows sign (ms ++ [m]) s' := by
  have hplace : s.compiled.place? m.name = none := h.place?_eq_none_iff.mpr hname
  have hnone : (s.earlier.lookup m.name).getD [] = [] := by
    rw [h.earlier, members_eq_nil_iff.mpr hname, List.map_nil]
  refine ⟨_, by rw [add, hplace], ?_, ?_, ?_⟩
  · exact h.groups.begin hname rfl (overloadsOf_single m)
  · have hnew : m.name ∉ (s.compiled.items.map fun e => (e.name, e)).map (·.1) := by
      rw [List.map_map]
      exact mt h.groups.mem_names_iff.mp hname
    have hpush := h.places.push hnew
      { toNaming := naming m.toNaming, access := m.access, isAbstract := m.isAbstract,
        signatures := .single (sign m) }
    simp only [Register.push, List.map_append, List.map_singleton] at hpush ⊢
    exact hpush
  · intro name
    rw [← h.lookup_insert, hnone, List.nil_append]

/-- The register changes one item, the group of a name. -/
lemma Follows.holds_modifyAt (h : Follows sign ms s) {place : ℕ}
    (hplace : s.compiled.place? name = some place) (new : Signature) :
    (s.compiled.modifyAt place (withSignature new)).Holds
      ((s.compiled.items.map fun e => if e.name = name then withSignature new e else e).map
        fun e => (e.name, e)) := by
  have hnodup : ((s.compiled.items.map fun e => (e.name, e)).map (·.1)).Nodup := by
    rw [List.map_map]
    exact h.groups.nodup
  have hentries :
      Register.changeAt name (withSignature new) (s.compiled.items.map fun e => (e.name, e))
        = (s.compiled.items.map fun e => if e.name = name then withSignature new e else e).map
          fun e => (e.name, e) := by
    rw [Register.changeAt, List.map_map, List.map_map]
    refine List.map_congr_left fun e _ => ?_
    by_cases he : e.name = name <;> simp [he, withSignature]
  rw [← hentries]
  exact h.places.modifyAt hnodup hplace _

/-- A further method of a name, if it does not clash. -/
lemma Follows.add_further (h : Follows sign ms s) (hname : m.name ∈ ms.map (·.name))
    (hclash : ¬ ∃ a ∈ ms, Clash a m) :
    ∃ s', s.add sign m = .ok s' ∧ Follows sign (ms ++ [m]) s' := by
  obtain ⟨place, hplace⟩ := h.exists_place hname
  have hany := mt (h.any_sameTypes_iff m).mp hclash
  have hholds := h.holds_modifyAt hplace (sign m)
  have hitems : (s.compiled.modifyAt place (withSignature (sign m))).items
      = s.compiled.items.map fun e => if e.name = m.name then withSignature (sign m) e else e := by
    rw [hholds.items, List.map_map]
    exact List.map_id _
  have hgroups := h.groups.join hname (withSignature (sign m)) (fun _ => rfl)
    fun same e hsome hsame => hsame.push hsome m
  rw [← hitems] at hholds hgroups
  refine ⟨_, by rw [add, hplace]; exact if_neg hany, ?_, ?_, ?_⟩
  · exact hgroups
  · exact hholds
  · exact h.lookup_insert m

/-- A method that clashes with one before it is refused. -/
lemma Follows.add_refused (h : Follows sign ms s) (hclash : ∃ a ∈ ms, Clash a m) :
    s.add sign m = .error (.ambiguousOverload m.name) := by
  obtain ⟨a, ha, hboth⟩ := hclash
  have hname : m.name ∈ ms.map (·.name) := hboth.1 ▸ List.mem_map_of_mem ha
  obtain ⟨place, hplace⟩ := h.exists_place hname
  rw [add, hplace]
  exact if_pos ((h.any_sameTypes_iff m).mpr ⟨a, ha, hboth⟩)

/-- **What one method does to the pass.** -/
lemma Follows.add (h : Follows sign ms s) (hclash : ¬ ∃ a ∈ ms, Clash a m) :
    ∃ s', s.add sign m = .ok s' ∧ Follows sign (ms ++ [m]) s' := by
  by_cases hname : m.name ∈ ms.map (·.name)
  · exact h.add_further hname hclash
  · exact h.add_first hname

/-! ## All methods -/

/-- **What the pass does to methods**, where others have been taken in before: it takes all of them
in, or stops at the first one that clashes with one before it. -/
lemma Follows.addAll (h : Follows sign ms s) (hapart : ms.Pairwise fun a b => ¬ Clash a b)
    (rest : List Model.Method) :
    (∃ s', addAll sign rest s = .ok s' ∧ Follows sign (ms ++ rest) s'
        ∧ (ms ++ rest).Pairwise fun a b => ¬ Clash a b)
      ∨ ∃ m, FirstClash (ms ++ rest) m
        ∧ addAll sign rest s = .error (.ambiguousOverload m.name) := by
  induction rest generalizing ms s with
  | nil =>
      rw [List.append_nil]
      exact .inl ⟨s, rfl, h, hapart⟩
  | cons m rest ih =>
      by_cases hclash : ∃ a ∈ ms, Clash a m
      · refine .inr ⟨m, ⟨ms, rest, rfl, hclash, hapart⟩, ?_⟩
        rw [Merging.addAll, h.add_refused hclash]
        rfl
      · obtain ⟨s', hadd, hs'⟩ := h.add hclash
        have hapart' : (ms ++ [m]).Pairwise fun a b => ¬ Clash a b := by
          refine List.pairwise_append.mpr ⟨hapart, List.pairwise_singleton _ _, ?_⟩
          intro a ha b hb hab
          obtain rfl := List.mem_singleton.mp hb
          exact hclash ⟨a, ha, hab⟩
        have hrun : Merging.addAll sign (m :: rest) s = Merging.addAll sign rest s' := by
          rw [Merging.addAll, hadd]
          rfl
        rw [hrun, List.append_cons]
        exact ih hs' hapart'

end Merging

/-- Methods that can be told apart are merged, and come out in groups. -/
lemma methods_of_apart (t : Tree) (c : Config) (h : ¬ Ambiguous ms) :
    ∃ compiled, methods t c ms = .ok compiled ∧ GroupsOf (signature t c) ms compiled := by
  rcases (Merging.follows_empty (signature t c)).addAll .nil ms with ⟨s, hrun, hs, -⟩ | ⟨m, hm, -⟩
  · exact ⟨_, by rw [methods, hrun]; rfl, hs.groups⟩
  · exact absurd hm.ambiguous h

/-- Methods that cannot be told apart are refused, and the first one that clashes is named. -/
lemma methods_of_ambiguous (t : Tree) (c : Config) (h : Ambiguous ms) :
    ∃ m, FirstClash ms m ∧ methods t c ms = .error (.ambiguousOverload m.name) := by
  rcases (Merging.follows_empty (signature t c)).addAll .nil ms with
    ⟨s, -, -, hapart⟩ | ⟨m, hm, hrun⟩
  · exact absurd h (not_ambiguous_iff.mpr hapart)
  · exact ⟨m, hm, by rw [methods, hrun]; rfl⟩

lemma methods_ok_iff (t : Tree) (c : Config) :
    (∃ compiled, methods t c ms = .ok compiled) ↔ ¬ Ambiguous ms := by
  constructor
  · rintro ⟨compiled, hok⟩ hboth
    obtain ⟨m, -, herror⟩ := methods_of_ambiguous t c hboth
    rw [hok] at herror
    cases herror
  · intro hapart
    obtain ⟨compiled, hok, -⟩ := methods_of_apart t c hapart
    exact ⟨compiled, hok⟩

lemma groupsOf_methods {compiled : List Method} (h : methods t c ms = .ok compiled) :
    GroupsOf (signature t c) ms compiled := by
  obtain ⟨compiled', hok, hgroups⟩ := methods_of_apart t c ((methods_ok_iff t c).mp ⟨_, h⟩)
  rw [h] at hok
  cases hok
  exact hgroups

/-- **Overloads are grouped, or ambiguous.**  If two methods clash, wherever they stand, the error
names the first one that clashes with one before it.  Otherwise there is a compiled method for every
name, in the order in which the names come up, which is the group of the methods of that name, and
together they have one signature for every method.  So it does not depend on the order of the
methods whether they can be merged. -/
theorem overloads_grouped (t : Tree) (c : Config) (ms : List Model.Method) :
    (Ambiguous ms → ∃ m, FirstClash ms m ∧ methods t c ms = .error (.ambiguousOverload m.name))
      ∧ (¬ Ambiguous ms → ∃ compiled, methods t c ms = .ok compiled
        ∧ GroupsOf (signature t c) ms compiled
        ∧ (compiled.flatMap fun e => e.signatures.toList).Perm (ms.map (signature t c)))
      ∧ ∀ ms', ms.Perm ms' →
        ((∃ compiled, methods t c ms = .ok compiled)
          ↔ ∃ compiled, methods t c ms' = .ok compiled) := by
  refine ⟨methods_of_ambiguous t c, fun hapart => ?_, fun ms' hperm => ?_⟩
  · obtain ⟨compiled, hok, hgroups⟩ := methods_of_apart t c hapart
    exact ⟨compiled, hok, hgroups, hgroups.perm_content fun same e hsame => hsame.signatures⟩
  · rw [methods_ok_iff, methods_ok_iff, ambiguous_perm hperm]

/-- A method `find` with one parameter. -/
def finder (type : TypeExpr) : Model.Method :=
  { uuid := "", name := "find", parameters := [{ uuid := "", name := "by", type := some type }] }

/-- Two methods `find` and one `save` between them. -/
def lookups : List Model.Method :=
  [finder (.reference "user" "User"), { uuid := "", name := "save" }, finder (.base "Long")]

/-- `lookups` can be merged.  One more `find` by a user, under whatever name, cannot be told apart
from the first one. -/
theorem overloads_grouped_lookups :
    (∃ compiled, methods default {} lookups = .ok compiled
        ∧ GroupsOf (signature default {}) lookups compiled
        ∧ compiled.map (fun e => (e.name, e.signatures.toList.length)) = [("find", 2), ("save", 1)])
      ∧ ∃ m, FirstClash (lookups ++ [finder (.reference "user" "Person")]) m
        ∧ methods default {} (lookups ++ [finder (.reference "user" "Person")])
          = .error (.ambiguousOverload m.name) := by
  constructor
  · have hnames : (methods default {} lookups).map
        (fun compiled => compiled.map fun e => (e.name, e.signatures.toList.length))
        = .ok [("find", 2), ("save", 1)] := by decide +kernel
    obtain ⟨compiled, hok, hlengths⟩ := map_ok_iff.mp hnames
    have hapart : ¬ Ambiguous lookups := (methods_ok_iff default {}).mp ⟨compiled, hok⟩
    obtain ⟨compiled', hok', hgroups, -⟩ := (overloads_grouped default {} lookups).2.1 hapart
    rw [hok] at hok'
    cases hok'
    exact ⟨compiled, hok, hgroups, hlengths⟩
  · have hagree : TypeExpr.agrees? (some (.reference "user" "User"))
        (some (.reference "user" "Person")) = true := by decide
    exact (overloads_grouped default {} _).1
      ⟨0, 3, _, _, by decide, rfl, rfl, rfl, .cons hagree .nil⟩

end Compile

end DomainDesign
