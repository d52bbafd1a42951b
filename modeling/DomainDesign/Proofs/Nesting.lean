import DomainDesign.Proofs.Refusals

/-!
# Data transfer objects are made in the end

To make a data transfer object those of other classes have to be made, and nothing about a class
gets smaller on the way: a class may refer to itself, to a class that refers back to it, or to any
other one.  What gets smaller is the number of classes that are not in the memo, since a class is
put there before its properties are looked at.

**The recursion.**  `Solves store f` is the recursion without any bound on it: `f` refers to what is
in the memo and enters what is not, and answers the calls inside by itself.  `within store beyond n`
follows the recursion for `n` nested entries, and leaves entries that are nested deeper to `beyond`.

**Nesting.**  `Alike store left x y` says that two steps do the same as long as no more than `left`
classes have not been seen.  `within_alike` says so of any two ways to go on beyond as many entries:
so nobody gets there.

`synthesis_terminates` draws the conclusions.  The recursion has one solution, which is `ofClass`,
and it is found within one nested entry more than there are uuids of entities and value objects.
-/

namespace DomainDesign

open Model

variable {σ : Type} [IdSource σ] {α β : Type} {store : Store} {left : ℕ}

/-- The uuids of the entities and value objects of a store. -/
def Store.carriedUuids (store : Store) : Finset String :=
  ((store.objects.filter fun e => e.object.kind ∈ [Kind.entity, .valueObject]).map
    (·.object.uuid)).toFinset

lemma Store.mem_carriedUuids {id : String} {c : ClassBody} (h : store.classAt? id = some c) :
    c.uuid ∈ store.carriedUuids := by
  obtain ⟨⟨key, object, parent⟩, hget, hbody⟩ := Option.bind_eq_some_iff.mp h
  obtain rfl : key = id := id_of_get? hget
  have hmem : ⟨key, object, parent⟩ ∈ store.objects := mem_objects_iff.mpr hget
  rw [Store.carriedUuids, List.mem_toFinset]
  refine List.mem_map.mpr ⟨_, List.mem_filter.mpr ⟨hmem, ?_⟩, ?_⟩
  all_goals
    cases object with
    | entity e =>
        cases hbody
        rfl
    | valueObject v =>
        cases hbody
        rfl
    | _ => cases hbody

/-- There are not more classes to be seen than there are uuids. -/
lemma unseen_le_carriedUuids (store : Store) (seen : List String) :
    unseen store seen ≤ store.carriedUuids.card := by
  refine Finset.card_le_card fun uuid huuid => ?_
  rw [Finset.mem_sdiff, List.mem_toFinset, Store.classUuids, List.mem_filterMap] at huuid
  obtain ⟨⟨e, -, he⟩, -⟩ := huuid
  obtain ⟨c, hc, rfl⟩ := Option.map_eq_some_iff.mp he
  exact Store.mem_carriedUuids hc

namespace Carrier

/-! ## Steps that do the same -/

/-- Two steps do the same, and leave no more classes to be seen, from every state where at most
`left` have not been seen. -/
def Alike (store : Store) (left : ℕ) (x y : MakingFrom σ α) : Prop :=
  ∀ w, unseen store w.keys ≤ left →
    x w = y w ∧ ∀ a w', x w = .ok a w' → unseen store w'.keys ≤ left

namespace Alike

/-- A step does the same as itself if it leaves alone what is in the memo. -/
lemma of_keys {x : MakingFrom σ α} (h : ∀ w a w', x w = .ok a w' → w'.keys = w.keys) :
    Alike store left x x := by
  intro w hw
  refine ⟨rfl, fun a w' hrun => ?_⟩
  rw [h w a w' hrun]
  exact hw

lemma pure (a : α) : Alike store left (Pure.pure a : MakingFrom σ α) (Pure.pure a) := by
  refine of_keys fun w b w' hrun => ?_
  obtain ⟨-, rfl⟩ := run_pure_iff.mp hrun
  rfl

lemma throw (e : Error) : Alike store left (throw e : MakingFrom σ α) (throw e) :=
  of_keys fun _ _ _ hrun => absurd hrun run_throw_ne

/-- **One step after another.**  The second one starts with no more classes to be seen. -/
lemma bind {x y : MakingFrom σ α} {f g : α → MakingFrom σ β} (hx : Alike store left x y)
    (hf : ∀ a, Alike store left (f a) (g a)) : Alike store left (x >>= f) (y >>= g) := by
  intro w hw
  obtain ⟨hsame, hleft⟩ := hx w hw
  cases hrun : x w with
  | error e w₁ =>
      rw [run_bind_error hrun, run_bind_error (hsame ▸ hrun)]
      refine ⟨rfl, fun a w' h => ?_⟩
      cases h
  | ok a w₁ =>
      rw [run_bind_ok hrun, run_bind_ok (hsame ▸ hrun)]
      exact hf a w₁ (hleft a w₁ hrun)

lemma nextId : Alike store left (Making.nextId : MakingFrom σ String) Making.nextId := by
  refine of_keys fun w id w' hrun => ?_
  obtain ⟨-, rfl⟩ := nextId_run hrun
  rfl

end Alike

variable {mk mk' beyond beyond' : ClassBody → MakingFrom σ TypeExpr} {c : ClassBody}
  {w : Workshop σ}

lemma addProperty_alike (uuid : String) (p : Property) :
    Alike store left (addProperty uuid p : MakingFrom σ Unit) (addProperty uuid p) := by
  refine .of_keys fun w _ w' hrun => ?_
  obtain rfl := addProperty_run hrun
  exact keys_modify ..

/-- What is asked of two ways to carry a class: they do the same for the classes of the store. -/
def AlikeOn (store : Store) (left : ℕ) (mk mk' : ClassBody → MakingFrom σ TypeExpr) : Prop :=
  ∀ id c, store.classAt? id = some c → Alike store left (mk c) (mk' c)

lemma carryReference_alike (hmk : AlikeOn store left mk mk') (id : String) :
    Alike store left (carryReference store mk id) (carryReference store mk' id) := by
  cases hclass : store.classAt? id with
  | some c =>
      rw [(carryReference_of_class mk hclass).2, (carryReference_of_class mk' hclass).2]
      exact hmk id c hclass
  | none =>
      -- without a class nothing is called, so the way to carry one does not matter
      have hsame : carryReference store mk id = carryReference store mk' id := by
        rw [carryReference, carryReference]
        cases hget : store.get? id with
        | none => rfl
        | some entry =>
            obtain ⟨key, object, parent⟩ := entry
            cases object with
            | entity e => simp [Store.classAt?, hget] at hclass
            | valueObject v => simp [Store.classAt?, hget] at hclass
            | _ => rfl
      rw [hsame]
      rcases carryReference_of_none mk' hclass with ⟨e, -, hrun⟩ | ⟨-, t, hrun⟩
      · rw [hrun]
        exact .throw e
      · rw [hrun]
        exact .pure t

mutual

lemma mapReferencesM_alike (hmk : AlikeOn store left mk mk') : (source : TypeExpr) →
    Alike store left (TypeExpr.mapReferencesM (fun id _ => carryReference store mk id) source)
      (TypeExpr.mapReferencesM (fun id _ => carryReference store mk' id) source)
  | .base _ => .pure _
  | .reference id _ => carryReference_alike hmk id
  | .container _ params => (mapParamsM_alike hmk params).bind fun _ => .pure _

lemma mapParamsM_alike (hmk : AlikeOn store left mk mk') :
    (params : List (String × Option TypeExpr)) →
    Alike store left (TypeExpr.mapParamsM (fun id _ => carryReference store mk id) params)
      (TypeExpr.mapParamsM (fun id _ => carryReference store mk' id) params)
  | [] => .pure _
  | (_, none) :: rest => (mapParamsM_alike hmk rest).bind fun _ => .pure _
  | (_, some t) :: rest =>
      (mapReferencesM_alike hmk t).bind fun _ => (mapParamsM_alike hmk rest).bind fun _ => .pure _

end

lemma carry_alike (hmk : AlikeOn store left mk mk') (type : Option TypeExpr) :
    Alike store left (carry store mk type) (carry store mk' type) := by
  cases type with
  | none => exact .pure _
  | some t => exact (mapReferencesM_alike hmk t).bind fun _ => .pure _

lemma addProperties_alike (hmk : AlikeOn store left mk mk') (uuid : String) (ps : List Property) :
    Alike store left (addProperties store mk uuid ps) (addProperties store mk' uuid ps) := by
  induction ps with
  | nil => exact .pure _
  | cons p rest ih =>
      refine (carry_alike hmk p.type).bind fun type => ?_
      refine Alike.nextId.bind fun id => ?_
      exact (addProperty_alike uuid _).bind fun _ => ih

/-! ## The recursion -/

/-- Refers to what is in the memo, and calls `enter` for what is not. -/
def unlessKnown (enter : ClassBody → MakingFrom σ TypeExpr) (c : ClassBody) :
    MakingFrom σ TypeExpr :=
  fun w =>
    match w.memo.get? c.uuid with
    | some d => .ok (reference d) w
    | none => enter c w

/-- Enters a class: its data transfer object is put into the memo and then filled, where `mk`
carries the classes that its properties refer to. -/
def enter (store : Store) (mk : ClassBody → MakingFrom σ TypeExpr) (c : ClassBody) :
    MakingFrom σ TypeExpr :=
  fun w =>
    (addProperties store mk c.uuid c.properties >>= fun _ =>
      pure (reference (shell (IdSource.next w.ids).1 c))) (withShell c w)

/-- A way to carry classes that obeys the recursion. -/
def Solves (store : Store) (f : ClassBody → MakingFrom σ TypeExpr) : Prop :=
  f = unlessKnown (enter store f)

/-- The recursion with at most `n` nested entries; `beyond` is called for those nested deeper. -/
def within (store : Store) (beyond : ClassBody → MakingFrom σ TypeExpr) :
    (n : ℕ) → ClassBody → MakingFrom σ TypeExpr
  | 0 => unlessKnown beyond
  | n + 1 => unlessKnown (enter store (within store beyond n))

lemma unlessKnown_of_get? {d : Dto} (mk : ClassBody → MakingFrom σ TypeExpr)
    (hget : w.memo.get? c.uuid = some d) : unlessKnown mk c w = .ok (reference d) w := by
  simp only [unlessKnown, hget]

lemma unlessKnown_of_new (mk : ClassBody → MakingFrom σ TypeExpr)
    (hget : w.memo.get? c.uuid = none) : unlessKnown mk c w = mk c w := by
  simp only [unlessKnown, hget]

lemma within_of_get? {d : Dto} (store : Store) (beyond : ClassBody → MakingFrom σ TypeExpr) (n : ℕ)
    (hget : w.memo.get? c.uuid = some d) : within store beyond n c w = .ok (reference d) w := by
  cases n <;> exact unlessKnown_of_get? _ hget

/-- Fuel bounds the nested entries. -/
lemma make_eq_within (store : Store) (fuel : ℕ) :
    make (σ := σ) store fuel = within store (fun c => throw (.graphTooDeep c.uuid)) fuel := by
  induction fuel with
  | zero =>
      funext c w
      cases hget : w.memo.get? c.uuid with
      | some d => rw [make_eq_of_get? 0 hget, within_of_get? _ _ _ hget]
      | none =>
          rw [within, unlessKnown_of_new _ hget, make, run_bind_ok (run_get_iff.mpr ⟨rfl, rfl⟩)]
          simp only [hget]
  | succ fuel ih =>
      funext c w
      cases hget : w.memo.get? c.uuid with
      | some d => rw [make_eq_of_get? (fuel + 1) hget, within_of_get? _ _ _ hget]
      | none => rw [make_succ_of_new fuel hget, within, unlessKnown_of_new _ hget, ← ih, enter]

/-! ## How deep entries are nested -/

/-- Two ways to carry the classes inside make no difference to a class that is entered, if few
enough classes are left to be seen behind it. -/
lemma enter_alike (hmk : AlikeOn store left mk mk') (hget : w.memo.get? c.uuid = none)
    (hleft : unseen store (w.keys ++ [c.uuid]) ≤ left) :
    enter store mk c w = enter store mk' c w
      ∧ ∀ t w', enter store mk c w = .ok t w' → unseen store w'.keys ≤ left := by
  have hkeys : (withShell c w).keys = w.keys ++ [c.uuid] := by
    rw [Workshop.keys, entries_withShell hget, List.map_append, List.map_singleton, Workshop.keys]
  have hfill := (addProperties_alike hmk c.uuid c.properties).bind fun _ =>
    Alike.pure (reference (shell (IdSource.next w.ids).1 c))
  exact hfill (withShell c w) (hkeys ▸ hleft)

/-- **Nobody gets beyond.**  For the classes of a store, no more entries are nested than there are
classes left to be seen: what happens beyond as many makes no difference. -/
theorem within_alike {m n : ℕ} (hm : left ≤ m) (hn : left ≤ n) :
    AlikeOn store left (within store beyond m) (within store beyond' n) := by
  induction left using Nat.strong_induction_on generalizing m n with
  | _ left ih =>
  intro id c hclass w hw
  cases hget : w.memo.get? c.uuid with
  | some d =>
      rw [within_of_get? _ _ _ hget, within_of_get? _ _ _ hget]
      refine ⟨rfl, fun t w' hrun => ?_⟩
      cases hrun
      exact hw
  | none =>
      -- the class is one of those left to be seen, and it is not left behind its own entry
      have hfewer : unseen store (w.keys ++ [c.uuid]) < unseen store w.keys :=
        unseen_append_lt hclass (Memo.get?_eq_none_iff.mp hget)
      obtain ⟨m, rfl⟩ : ∃ k, m = k + 1 := ⟨m - 1, by omega⟩
      obtain ⟨n, rfl⟩ : ∃ k, n = k + 1 := ⟨n - 1, by omega⟩
      have hless : unseen store (w.keys ++ [c.uuid]) < left := hfewer.trans_le hw
      have hinside : AlikeOn store (unseen store (w.keys ++ [c.uuid])) (within store beyond m)
          (within store beyond' n) := ih _ hless (by omega) (by omega)
      obtain ⟨hsame, hleft⟩ := enter_alike hinside hget le_rfl
      rw [within, within, unlessKnown_of_new _ hget, unlessKnown_of_new _ hget]
      exact ⟨hsame, fun t w' hrun => (hleft t w' hrun).trans hless.le⟩

/-- A class need not be in the store, so its own entry comes on top. -/
lemma within_succ_eq {m n : ℕ} (hm : unseen store w.keys ≤ m) (hn : unseen store w.keys ≤ n) :
    within store beyond (m + 1) c w = within store beyond' (n + 1) c w := by
  cases hget : w.memo.get? c.uuid with
  | some d => rw [within_of_get? _ _ _ hget, within_of_get? _ _ _ hget]
  | none =>
      rw [within, within, unlessKnown_of_new _ hget, unlessKnown_of_new _ hget]
      exact (enter_alike (within_alike hm hn) hget (unseen_append_le ..)).1

/-- **Entries are nested at most as deep as there are uuids**, and one more. -/
lemma within_eq_ofClass (store : Store) (beyond : ClassBody → MakingFrom σ TypeExpr) {n : ℕ}
    (hn : store.carriedUuids.card ≤ n) : within store beyond (n + 1) = ofClass store := by
  funext c w
  rw [ofClass, fuel, make_eq_within]
  exact within_succ_eq ((unseen_le_carriedUuids ..).trans hn) (unseen_le_size ..)

/-! ## The solution -/

lemma solves_ofClass (store : Store) : Solves store (ofClass (σ := σ) store) := by
  have hdeep := within_eq_ofClass store (ofClass (σ := σ) store) le_rfl
  have hdeeper := within_eq_ofClass store (ofClass (σ := σ) store) (Nat.le_succ _)
  rw [within, hdeep] at hdeeper
  exact hdeeper.symm

/-- A solution can be followed as far as one likes. -/
lemma Solves.eq_within {f : ClassBody → MakingFrom σ TypeExpr} (h : Solves store f) (n : ℕ) :
    f = within store f n := by
  induction n with
  | zero =>
      funext c w
      cases hget : w.memo.get? c.uuid with
      | some d => rw [h, within_of_get? _ _ _ hget, unlessKnown_of_get? _ hget]
      | none => rw [within, unlessKnown_of_new _ hget]
  | succ n ih =>
      rw [within, ← ih]
      exact h

theorem solves_iff {f : ClassBody → MakingFrom σ TypeExpr} :
    Solves store f ↔ f = ofClass store := by
  constructor
  · intro h
    rw [h.eq_within (store.carriedUuids.card + 1), within_eq_ofClass store f le_rfl]
  · rintro rfl
    exact solves_ofClass store

/-! ## How it ends -/

/-- A step ends with a type, or with a reference that cannot be carried. -/
def Ends (x : MakingFrom σ TypeExpr) (w : Workshop σ) : Prop :=
  (∃ t w', x w = .ok t w') ∨ ∃ id detail w', x w = .error (.unsupportedReference id detail) w'

/-- Whatever follows a tour ends. -/
lemma ends_of_follows {x : MakingFrom σ TypeExpr} {met : List String} {entered : List ClassBody}
    (h : Follows store x w.keys met entered) : Ends x w := by
  cases hmet : met.findSome? (refusal? store) with
  | none =>
      obtain ⟨t, w', hrun, -⟩ := h.succeeds hmet w rfl
      exact .inl ⟨t, w', hrun⟩
  | some e =>
      obtain ⟨id, detail, rfl⟩ := of_findSome?_refusal? hmet
      obtain ⟨w', hrun⟩ := h.fails _ hmet w rfl
      exact .inr ⟨id, detail, w', hrun⟩

lemma ends_ofClass (store : Store) (c : ClassBody) (w : Workshop σ) : Ends (ofClass store c) w := by
  by_cases hnew : c.uuid ∈ w.keys
  · exact ends_of_follows (make_passes (fuel store) hnew)
  · obtain ⟨met, entered, htour⟩ :=
      exists_tour store (propertyTargets c.properties) (w.keys ++ [c.uuid])
    exact ends_of_follows
      (make_enters (tours_make store store.size) hnew (unseen_le_size ..) htour)

lemma ends_ofType (store : Store) (type : TypeExpr) (w : Workshop σ) :
    Ends (ofType store type) w := by
  obtain ⟨met, entered, htour⟩ := exists_tour store type.targets w.keys
  have hleft : unseen store w.keys ≤ fuel store := (unseen_le_size ..).trans (Nat.le_succ _)
  exact ends_of_follows (mapReferencesM_follows (tours_make store (fuel store)) type hleft htour)

/-- **Synthesis terminates on every graph of objects**, whatever is in the memo.  The recursion
without a bound has one solution, which is `ofClass`.  From a class, and from a type, no more than
one entry and one for each uuid of an entity or value object are nested: it is the same whatever
happens beyond them.  It ends with a type, or with a reference that cannot be carried. -/
theorem synthesis_terminates (store : Store) :
    (∀ f : ClassBody → MakingFrom σ TypeExpr, Solves store f ↔ f = ofClass store)
      ∧ (∀ (beyond : ClassBody → MakingFrom σ TypeExpr) (c : ClassBody) (w : Workshop σ),
          within store beyond (1 + store.carriedUuids.card) c w = ofClass store c w
            ∧ Ends (ofClass store c) w)
      ∧ ∀ (beyond : ClassBody → MakingFrom σ TypeExpr) (type : TypeExpr) (w : Workshop σ),
          TypeExpr.mapReferencesM (fun id _ => carryReference store
              (within store beyond (1 + store.carriedUuids.card)) id) type w = ofType store type w
            ∧ Ends (ofType store type) w := by
  have hwithin : ∀ beyond : ClassBody → MakingFrom σ TypeExpr,
      within store beyond (1 + store.carriedUuids.card) = ofClass store := by
    intro beyond
    rw [Nat.add_comm]
    exact within_eq_ofClass store beyond le_rfl
  refine ⟨fun f => solves_iff, fun beyond c w => ?_, fun beyond type w => ?_⟩
  · rw [hwithin beyond]
    exact ⟨rfl, ends_ofClass store c w⟩
  · rw [hwithin beyond]
    exact ⟨rfl, ends_ofType store type w⟩

end Carrier

end DomainDesign
