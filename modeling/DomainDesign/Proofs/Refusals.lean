import DomainDesign.Proofs.Synthesis
import DomainDesign.Proofs.Tours

/-!
# References that cannot be carried

Data transfer objects can be made for everything that a class refers to, or a reference cannot be
carried, and then nothing is made.

**Refusals.**  `refusal? store id` is the error that a reference to an id gives, if it gives one.

**Following a tour.**  `Follows store x seen met entered` says how a step ends that meets some
references and enters some classes: with the first refusal among the references, or with a data
transfer object for each of the classes behind those there were.  It is proved of one step after
another, `Follows.bind` putting them together.  Nothing else can stop a step: no uuid is used twice,
and nothing that is in the memo is lost.

**The recursion.**  `tours_make` says that a reference is carried as the tour over it says, by
induction on the fuel: there is always fuel left for the classes that have not been seen.
-/

namespace DomainDesign

open Model

/-! ## Refusals -/

/-- An id leads to an enumeration, a value object or an entity. -/
def Store.Resolves (store : Store) (id : String) : Prop :=
  ∃ entry, store.get? id = some entry
    ∧ entry.object.kind ∈ [Kind.enumeration, .valueObject, .entity]

/-- The error that a reference to an id gives when it cannot be carried. -/
def refusal? (store : Store) (id : String) : Option Error :=
  match store.get? id with
  | none => some (.unknownReference id)
  | some entry =>
    if entry.object.kind ∈ [Kind.enumeration, .valueObject, .entity] then none
    else some (.uncarriable id entry.object.kind.name)

variable {σ : Type} [IdSource σ] {α β : Type} {store : Store} {id : String} {e : Error}

lemma refusal?_eq_none_iff : refusal? store id = none ↔ store.Resolves id := by
  rw [refusal?, Store.Resolves]
  cases store.get? id with
  | none => simp
  | some entry =>
      simp only [ite_eq_left_iff, reduceCtorEq, imp_false, not_not, Option.some.injEq,
        exists_eq_left']

lemma of_refusal? (h : refusal? store id = some e) :
    ¬ store.Resolves id ∧ ∃ detail, e = .unsupportedReference id detail := by
  refine ⟨fun hid => ?_, ?_⟩
  · rw [refusal?_eq_none_iff.mpr hid] at h
    cases h
  · rw [refusal?] at h
    split at h
    · exact ⟨_, (Option.some.inj h).symm⟩
    · split at h
      · cases h
      · exact ⟨_, (Option.some.inj h).symm⟩

lemma of_findSome?_refusal? {met : List String} (h : met.findSome? (refusal? store) = some e) :
    ∃ id detail, e = .unsupportedReference id detail := by
  obtain ⟨id, -, hid⟩ := List.exists_of_findSome?_eq_some h
  obtain ⟨-, detail, rfl⟩ := of_refusal? hid
  exact ⟨id, detail, rfl⟩

/-- What has been met already can be met again without a new refusal. -/
lemma findSome?_append_of_subset {met more : List String} (h : more ⊆ met) :
    (met ++ more).findSome? (refusal? store) = met.findSome? (refusal? store) := by
  rw [List.findSome?_append]
  cases hmet : met.findSome? (refusal? store) with
  | some e => rfl
  | none =>
      rw [Option.none_or, List.findSome?_eq_none_iff]
      exact fun id hid => List.findSome?_eq_none_iff.mp hmet id (h hid)

/-! ## Following a tour -/

/-- The uuids under which there is something in the memo. -/
def Workshop.keys (w : Workshop σ) : List String :=
  w.memo.entries.map (·.1)

lemma Workshop.keys_start (ids : σ) : ({ ids } : Workshop σ).keys = [] := by
  rw [Workshop.keys, Memo.entries_empty, List.map_nil]

/-- A step that meets references and enters classes, when the uuids under which there is something
are those seen: it fails with the first refusal, or else puts the classes into the memo. -/
structure Follows (store : Store) (x : MakingFrom σ α) (seen met : List String)
    (entered : List ClassBody) : Prop where
  succeeds : met.findSome? (refusal? store) = none → ∀ w : Workshop σ, w.keys = seen →
    ∃ a w', x w = .ok a w' ∧ w'.keys = seen ++ entered.map (·.uuid)
  fails : ∀ e, met.findSome? (refusal? store) = some e → ∀ w : Workshop σ, w.keys = seen →
    ∃ w', x w = .error e w'

namespace Follows

variable {x : MakingFrom σ α} {f : α → MakingFrom σ β} {seen met more : List String}
  {entered others : List ClassBody}

/-- A step that meets nothing. -/
lemma quiet (h : ∀ w : Workshop σ, w.keys = seen → ∃ a w', x w = .ok a w' ∧ w'.keys = seen) :
    Follows store x seen [] [] :=
  ⟨fun _ w hw => by simpa using h w hw, fun _ he => by cases he⟩

lemma pure (a : α) : Follows store (Pure.pure a : MakingFrom σ α) seen [] [] :=
  quiet fun w hw => ⟨a, w, rfl, hw⟩

/-- **One step after another.**  The second one starts where the first one ends. -/
lemma bind (hx : Follows store x seen met entered)
    (hf : ∀ a, Follows store (f a) (seen ++ entered.map (·.uuid)) more others) :
    Follows store (x >>= f) seen (met ++ more) (entered ++ others) := by
  refine ⟨fun hnone w hw => ?_, fun e he w hw => ?_⟩
  · rw [List.findSome?_append, Option.or_eq_none_iff] at hnone
    obtain ⟨a, w₁, hrun, hkeys⟩ := hx.succeeds hnone.1 w hw
    obtain ⟨b, w₂, hrun', hkeys'⟩ := (hf a).succeeds hnone.2 w₁ hkeys
    refine ⟨b, w₂, run_bind_iff.mpr ⟨a, w₁, hrun, hrun'⟩, ?_⟩
    rw [hkeys', List.map_append, List.append_assoc]
  · rw [List.findSome?_append, Option.or_eq_some_iff] at he
    rcases he with he | ⟨hnone, he⟩
    · obtain ⟨w₁, hrun⟩ := hx.fails e he w hw
      exact ⟨w₁, run_bind_error hrun⟩
    · obtain ⟨a, w₁, hrun, hkeys⟩ := hx.succeeds hnone w hw
      obtain ⟨w₂, hrun'⟩ := (hf a).fails e he w₁ hkeys
      exact ⟨w₂, (run_bind_ok hrun).trans hrun'⟩

/-- A step that meets nothing, behind another one. -/
lemma bind_quiet (hx : Follows store x seen met entered)
    (hf : ∀ a, Follows store (f a) (seen ++ entered.map (·.uuid)) [] []) :
    Follows store (x >>= f) seen met entered := by
  simpa using hx.bind hf

/-- A step behind which the result is only put into another form. -/
lemma bind_pure (hx : Follows store x seen met entered) (g : α → β) :
    Follows store (x >>= fun a => Pure.pure (g a)) seen met entered :=
  hx.bind_quiet fun a => .pure (g a)

/-- A step that meets nothing, before another one. -/
lemma quiet_bind (hx : Follows store x seen [] [])
    (hf : ∀ a, Follows store (f a) seen met entered) :
    Follows store (x >>= f) seen met entered := by
  have hnext : ∀ a,
      Follows store (f a) (seen ++ ([] : List ClassBody).map (·.uuid)) met entered := by
    simpa using hf
  exact hx.bind hnext

/-- A step that depends on what there is. -/
lemma get_bind {f : Workshop σ → MakingFrom σ β}
    (hf : ∀ w : Workshop σ, w.keys = seen → Follows store (f w) seen met entered) :
    Follows store (get >>= f) seen met entered :=
  ⟨fun hnone w hw => (hf w hw).succeeds hnone w hw, fun e he w hw => (hf w hw).fails e he w hw⟩

/-- A reference that is not refused is met first. -/
lemma resolved (hid : refusal? store id = none) (hx : Follows store x seen met entered) :
    Follows store x seen (id :: met) entered := by
  have hsame : (id :: met).findSome? (refusal? store) = met.findSome? (refusal? store) := by
    rw [List.findSome?_cons, hid]
  exact ⟨hsame ▸ hx.succeeds, hsame ▸ hx.fails⟩

/-- A reference that is refused. -/
lemma refused (hid : refusal? store id = some e) :
    Follows store (throw e : MakingFrom σ α) seen (id :: met) entered := by
  have hfirst : (id :: met).findSome? (refusal? store) = some e := by
    rw [List.findSome?_cons, hid]
  refine ⟨fun hnone => ?_, fun e' he' w _ => ?_⟩
  · rw [hfirst] at hnone
    cases hnone
  · rw [hfirst] at he'
    cases he'
    exact ⟨w, rfl⟩

lemma nextId : Follows store (Making.nextId : MakingFrom σ String) seen [] [] :=
  quiet fun _ hw => ⟨_, _, rfl, hw⟩

end Follows

namespace Carrier

variable {mk : ClassBody → MakingFrom σ TypeExpr} {c : ClassBody}

/-! ## Carrying a reference -/

lemma carryReference_of_class (mk : ClassBody → MakingFrom σ TypeExpr)
    (h : store.classAt? id = some c) :
    refusal? store id = none ∧ carryReference store mk id = mk c := by
  obtain ⟨⟨key, object, parent⟩, hget, hbody⟩ := Option.bind_eq_some_iff.mp h
  cases object with
  | entity e =>
      cases hbody
      simp [refusal?, carryReference, hget, StoredObject.kind]
  | valueObject v =>
      cases hbody
      simp [refusal?, carryReference, hget, StoredObject.kind]
  | _ => cases hbody

/-- Where there is no class, a reference is refused or is carried by a base type. -/
lemma carryReference_of_none (mk : ClassBody → MakingFrom σ TypeExpr)
    (h : store.classAt? id = none) :
    (∃ e, refusal? store id = some e ∧ carryReference store mk id = throw e)
      ∨ refusal? store id = none ∧ ∃ t, carryReference store mk id = pure t := by
  cases hget : store.get? id with
  | none => exact .inl ⟨.unknownReference id, by simp [refusal?, carryReference, hget]⟩
  | some entry =>
      obtain ⟨key, object, parent⟩ := entry
      cases object with
      | enumeration e =>
          exact .inr ⟨by simp [refusal?, hget, StoredObject.kind],
            e.storageType, by simp [carryReference, hget]⟩
      | dto d =>
          exact .inl ⟨.uncarriable id Kind.dto.name,
            by simp [refusal?, hget, StoredObject.kind],
            by simp [carryReference, hget, StoredObject.kind]⟩
      | dataObject d =>
          exact .inl ⟨.uncarriable id Kind.dataObject.name,
            by simp [refusal?, hget, StoredObject.kind],
            by simp [carryReference, hget, StoredObject.kind]⟩
      | _ => simp [Store.classAt?, hget] at h

/-- What is asked of a way to carry a class: with it a reference is carried as the tour over it
says, as long as there are not more classes `left` to be seen. -/
def Tours (store : Store) (mk : ClassBody → MakingFrom σ TypeExpr) (left : ℕ) : Prop :=
  ∀ {id seen met entered}, unseen store seen ≤ left → Tour store [id] seen met entered →
    Follows store (carryReference store mk id) seen met entered

variable {left : ℕ} {seen met : List String} {entered : List ClassBody}

mutual

/-- Carrying a type follows the tour over the references in it. -/
lemma mapReferencesM_follows (hmk : Tours store mk left) : (source : TypeExpr) →
    {seen met : List String} → {entered : List ClassBody} → unseen store seen ≤ left →
    Tour store source.targets seen met entered →
    Follows store (TypeExpr.mapReferencesM (fun id _ => carryReference store mk id) source)
      seen met entered
  | .base _, _, _, _, _, .done => .pure _
  | .reference _ _, _, _, _, hleft, htour => hmk hleft htour
  | .container _ params, _, _, _, hleft, htour =>
      (mapParamsM_follows hmk params hleft htour).bind_pure _

lemma mapParamsM_follows (hmk : Tours store mk left) :
    (params : List (String × Option TypeExpr)) →
    {seen met : List String} → {entered : List ClassBody} → unseen store seen ≤ left →
    Tour store (TypeExpr.paramTargets params) seen met entered →
    Follows store (TypeExpr.mapParamsM (fun id _ => carryReference store mk id) params)
      seen met entered
  | [], _, _, _, _, .done => .pure _
  | (_, none) :: rest, _, _, _, hleft, htour =>
      (mapParamsM_follows hmk rest hleft htour).bind_pure _
  | (_, some t) :: rest, seen, _, _, hleft, htour => by
      obtain ⟨inner, outer, below, others, rfl, rfl, hfirst, hrest⟩ := htour.split
      have hleft' : unseen store (seen ++ below.map (·.uuid)) ≤ left :=
        (unseen_append_le ..).trans hleft
      refine (mapReferencesM_follows hmk t hleft hfirst).bind fun _ => ?_
      exact (mapParamsM_follows hmk rest hleft' hrest).bind_pure _

end

lemma carry_follows (hmk : Tours store mk left) {type : Option TypeExpr}
    (hleft : unseen store seen ≤ left)
    (htour : Tour store (TypeExpr.targets? type) seen met entered) :
    Follows store (carry store mk type) seen met entered := by
  cases type with
  | none =>
      cases htour
      exact .pure _
  | some t => exact (mapReferencesM_follows hmk t hleft htour).bind_pure _

/-! ## Filling in properties -/

lemma exists_get?_of_mem_keys {w : Workshop σ} {uuid : String} (h : uuid ∈ w.keys) :
    ∃ d, w.memo.get? uuid = some d := by
  by_contra hnone
  push Not at hnone
  exact Memo.get?_eq_none_iff.mp (Option.eq_none_iff_forall_ne_some.mpr hnone) h

/-- A property can be added to what is in the memo. -/
lemma addProperty_follows {uuid : String} (huuid : uuid ∈ seen) (p : Property) :
    Follows store (addProperty uuid p : MakingFrom σ Unit) seen [] [] := by
  refine .get_bind fun w hw => ?_
  obtain ⟨d, hd⟩ := exists_get?_of_mem_keys (hw ▸ huuid)
  simp only [hd]
  exact .quiet fun w hw => ⟨(), _, rfl, (keys_modify ..).trans hw⟩

/-- **Filling in properties follows the tour over their references.** -/
lemma addProperties_follows (hmk : Tours store mk left) {uuid : String} {ps : List Property}
    (huuid : uuid ∈ seen) (hleft : unseen store seen ≤ left)
    (htour : Tour store (propertyTargets ps) seen met entered) :
    Follows store (addProperties store mk uuid ps) seen met entered := by
  induction ps generalizing seen met entered with
  | nil =>
      cases htour
      exact .pure _
  | cons p rest ih =>
      obtain ⟨inner, outer, below, others, rfl, rfl, hfirst, hrest⟩ := htour.split
      have huuid' : uuid ∈ seen ++ below.map (·.uuid) := List.mem_append_left _ huuid
      refine (carry_follows hmk hleft hfirst).bind fun type => ?_
      refine Follows.nextId.quiet_bind fun id => ?_
      refine (addProperty_follows huuid' _).quiet_bind fun _ => ?_
      exact ih huuid' ((unseen_append_le ..).trans hleft) hrest

/-! ## Making a data transfer object -/

/-- A class that has been seen is not entered again. -/
lemma make_passes (fuel : ℕ) (hc : c.uuid ∈ seen) :
    Follows store (make (σ := σ) store fuel c) seen [] [] := by
  refine .quiet fun w hw => ?_
  obtain ⟨d, hd⟩ := exists_get?_of_mem_keys (hw ▸ hc)
  exact ⟨reference d, w, make_eq_of_get? fuel hd, hw⟩

/-- **A new class is put into the memo and then toured.** -/
lemma make_enters {fuel : ℕ} (hmk : Tours store (make (σ := σ) store fuel) left)
    (hnew : c.uuid ∉ seen) (hleft : unseen store (seen ++ [c.uuid]) ≤ left)
    (htour : Tour store (propertyTargets c.properties) (seen ++ [c.uuid]) met entered) :
    Follows store (make (σ := σ) store (fuel + 1) c) seen met (c :: entered) := by
  have huuid : c.uuid ∈ seen ++ [c.uuid] := List.mem_append_right _ (List.mem_singleton_self _)
  have hfill := addProperties_follows hmk huuid hleft htour
  have hget : ∀ w : Workshop σ, w.keys = seen → w.memo.get? c.uuid = none :=
    fun w hw => Memo.get?_eq_none_iff.mpr fun hmem => hnew (hw ▸ hmem)
  have hkeys : ∀ w : Workshop σ, w.keys = seen → (withShell c w).keys = seen ++ [c.uuid] := by
    intro w hw
    rw [← hw, Workshop.keys, entries_withShell (hget w hw), List.map_append]
    rfl
  refine ⟨fun hnone w hw => ?_, fun e he w hw => ?_⟩
  · rw [make_succ_of_new fuel (hget w hw)]
    simpa using (hfill.bind_pure _).succeeds hnone (withShell c w) (hkeys w hw)
  · rw [make_succ_of_new fuel (hget w hw)]
    exact (hfill.bind_pure _).fails e he (withShell c w) (hkeys w hw)

/-- A reference to a class that has been seen, or to none, is met and no more. -/
lemma carryReference_passes (fuel : ℕ) (hknown : ∀ c, store.classAt? id = some c → c.uuid ∈ seen) :
    Follows store (carryReference store (make (σ := σ) store fuel) id) seen [id] [] := by
  cases hclass : store.classAt? id with
  | some c =>
      obtain ⟨hid, hrun⟩ := carryReference_of_class (make (σ := σ) store fuel) hclass
      rw [hrun]
      exact (make_passes fuel (hknown c hclass)).resolved hid
  | none =>
      rcases carryReference_of_none (make (σ := σ) store fuel) hclass with
        ⟨e, hid, hrun⟩ | ⟨hid, t, hrun⟩
      · rw [hrun]
        exact .refused hid
      · rw [hrun]
        exact (Follows.pure t).resolved hid

/-- **A reference is carried as the tour over it says**, by induction on the fuel.  A class that is
entered has not been seen, so there is fuel for it. -/
theorem tours_make (store : Store) (fuel : ℕ) : Tours store (make (σ := σ) store fuel) fuel := by
  induction fuel with
  | zero =>
      intro id seen met entered hleft htour
      cases htour with
      | pass known further =>
          cases further
          exact carryReference_passes 0 known
      | enter leads new =>
          have hfewer := unseen_append_lt leads new
          omega
  | succ fuel ih =>
      intro id seen met entered hleft htour
      cases htour with
      | pass known further =>
          cases further
          exact carryReference_passes (fuel + 1) known
      | enter leads new inside further =>
          cases further
          obtain ⟨hid, hrun⟩ := carryReference_of_class (make (σ := σ) store (fuel + 1)) leads
          have hfewer := unseen_append_lt leads new
          rw [hrun, List.append_nil, List.append_nil]
          exact (make_enters ih new (by omega) inside).resolved hid

end Carrier

end DomainDesign
