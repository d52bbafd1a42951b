import DomainDesign.Proofs.Dictionaries
import DomainDesign.Proofs.FirstOccurrences
import DomainDesign.Proofs.ModelCodec
import DomainDesign.Proofs.ObjectGraph
import DomainDesign.Proofs.Outcomes

/-!
# The references that are found and those that are replaced

Two functions go through the references of a type.  `dependencies` picks the parameters of a
container by their names and drops repetitions at every map on the way; `mapReferencesM` walks all
parameters in the order of their names and asks a callback for every reference.
`dependencies_are_calls` says that they see the same references.

**Found.**  Parameters that have the names that their container asks for are picked in the order in
which they stand, `Dict.flatMap_lookup`.  So the dependencies of a type are the first occurrences
among its targets: `dependencies_eq_unique`.

**Replaced.**  `noting` makes a callback write down the ids it is asked for, and `Notes` says what a
step then writes.  `notes_mapReferencesM` follows the walk: whatever the callback does, it is asked
for the targets in order, until it fails.
-/

namespace DomainDesign

namespace TypeExpr

/-! ## The grammar of types -/

/-- The names of the parameters of a container. -/
def paramNames (container : String) : List String :=
  if container = "Map" then ["key", "value"] else ["item"]

mutual

/-- A type of the grammar: the parameters of a container are a dictionary, and a map has at most a
key and a value, any other container at most an item. -/
def Grammatical : TypeExpr → Prop
  | .base _ => True
  | .container n params =>
    Dict.Sorted params ∧ (∀ e ∈ params, e.1 ∈ paramNames n) ∧ ParamsGrammatical params
  | .reference _ _ => True

/-- The types of the parameters are of the grammar. -/
def ParamsGrammatical : List (String × Option TypeExpr) → Prop
  | [] => True
  | (_, none) :: rest => ParamsGrammatical rest
  | (_, some t) :: rest => t.Grammatical ∧ ParamsGrammatical rest

end

mutual

/-- Whether a type is of the grammar. -/
def decideGrammatical : (t : TypeExpr) → Decidable t.Grammatical
  | .base _ => isTrue trivial
  | .container _ params =>
    have := decideParamsGrammatical params
    inferInstanceAs (Decidable (_ ∧ _ ∧ _))
  | .reference _ _ => isTrue trivial

/-- Whether the types of the parameters are of the grammar. -/
def decideParamsGrammatical :
    (params : List (String × Option TypeExpr)) → Decidable (ParamsGrammatical params)
  | [] => isTrue trivial
  | (_, none) :: rest => decideParamsGrammatical rest
  | (_, some t) :: rest =>
    have := decideGrammatical t
    have := decideParamsGrammatical rest
    inferInstanceAs (Decidable (_ ∧ _))

end

instance : DecidablePred Grammatical := decideGrammatical

lemma pairwise_paramNames (container : String) : (paramNames container).Pairwise (· < ·) := by
  unfold paramNames
  split <;> decide

mutual

lemma ordered_of_grammatical : (t : TypeExpr) → t.Grammatical → t.Ordered
  | .base _, _ => trivial
  | .container _ params, h => ⟨h.1, paramsOrdered_of_grammatical params h.2.2⟩
  | .reference _ _, _ => trivial

lemma paramsOrdered_of_grammatical : (params : List (String × Option TypeExpr)) →
    ParamsGrammatical params → ParamsOrdered params
  | [], _ => trivial
  | (_, none) :: rest, h => paramsOrdered_of_grammatical rest h
  | (_, some t) :: rest, h => ⟨ordered_of_grammatical t h.1, paramsOrdered_of_grammatical rest h.2⟩

end

/-! ## References that are found -/

lemma lookup_paramDependencies (params : List (String × Option TypeExpr)) (k : String) :
    (paramDependencies params).lookup k = (List.lookup k params).map dependencies? := by
  induction params with
  | nil => rfl
  | cons e rest ih =>
      rcases e with ⟨key, _ | t⟩ <;>
        simp only [paramDependencies, Dict.lookup_cons_ite, ih] <;> split <;> rfl

lemma paramTargets_eq_flatMap (params : List (String × Option TypeExpr)) :
    paramTargets params = params.flatMap fun e => targets? e.2 := by
  induction params with
  | nil => rfl
  | cons e rest ih => rcases e with ⟨key, _ | t⟩ <;> simp [paramTargets, targets?, ih]

mutual

/-- **What a type depends on are its targets**, each once and in order. -/
lemma dependencies_eq_unique : (t : TypeExpr) → t.Grammatical → t.dependencies = unique t.targets
  | .base _, _ => rfl
  | .reference _ _, _ => by simp [dependencies, targets, unique]
  | .container n params, ⟨hsorted, hnames, hparams⟩ => by
      -- what is picked under a name are the unique targets there
      have hpick : ∀ k, ((paramDependencies params).lookup k).getD []
          = unique (((List.lookup k params).map targets?).getD []) := by
        intro k
        rw [lookup_paramDependencies]
        cases hlook : List.lookup k params with
        | none => rfl
        | some o => exact dependencies?_of_mem params hparams (Dict.mem_of_lookup hlook)
      have htargets := Dict.flatMap_lookup hsorted (pairwise_paramNames n) hnames targets?
      rw [targets, paramTargets_eq_flatMap, ← htargets, dependencies, paramNames]
      split
      · simp only [hpick, List.flatMap_cons, List.flatMap_nil, List.append_nil]
        exact unique_append_congr (unique_unique _) (unique_unique _)
      · simp only [hpick, List.flatMap_cons, List.flatMap_nil, List.append_nil]

lemma dependencies?_of_mem {k : String} {o : Option TypeExpr} :
    (params : List (String × Option TypeExpr)) → ParamsGrammatical params → (k, o) ∈ params →
    dependencies? o = unique (targets? o)
  | (_, none) :: rest, h, hmem => by
      rcases List.mem_cons.mp hmem with heq | hmem
      · cases heq
        rfl
      · exact dependencies?_of_mem rest h hmem
  | (_, some t) :: rest, h, hmem => by
      rcases List.mem_cons.mp hmem with heq | hmem
      · cases heq
        exact dependencies_eq_unique t h.1
      · exact dependencies?_of_mem rest h.2 hmem

end

/-! ## References that are replaced -/

section Calls

variable {ε σ α β : Type}

/-- A callback that does what another one does, and notes the ids that it is asked for. -/
def noting (f : String → String → EStateM ε σ TypeExpr) (id name : String) :
    EStateM ε (List String × σ) TypeExpr := fun w =>
  match f id name w.2 with
  | .ok t s => .ok t (w.1 ++ [id], s)
  | .error e s => .error e (w.1 ++ [id], s)

/-- A step does what another one does and notes ids: all of them if it succeeds, and the first of
them if it fails. -/
def Notes (ids : List String) (plain : EStateM ε σ α) (noted : EStateM ε (List String × σ) α) :
    Prop :=
  ∀ before s,
    (∀ a s', plain s = .ok a s' → noted (before, s) = .ok a (before ++ ids, s'))
      ∧ ∀ e s', plain s = .error e s' →
        ∃ made, made <+: ids ∧ noted (before, s) = .error e (before ++ made, s')

namespace Notes

lemma pure (a : α) : Notes [] (Pure.pure a : EStateM ε σ α) (Pure.pure a) := by
  intro before s
  constructor
  · intro b s' h
    obtain ⟨rfl, rfl⟩ := run_pure_iff.mp h
    rw [List.append_nil]
    rfl
  · intro e s' h
    cases h

/-- One step after another: the ids of the first come first. -/
lemma bind {ids more : List String} {x : EStateM ε σ α} {x' : EStateM ε (List String × σ) α}
    {f : α → EStateM ε σ β} {f' : α → EStateM ε (List String × σ) β} (hx : Notes ids x x')
    (hf : ∀ a, Notes more (f a) (f' a)) : Notes (ids ++ more) (x >>= f) (x' >>= f') := by
  intro before s
  cases hrun : x s with
  | ok a s₁ =>
      have hnext := hf a (before ++ ids) s₁
      rw [run_bind_ok hrun, run_bind_ok ((hx before s).1 a s₁ hrun)]
      refine ⟨fun b s' h => ?_, fun e s' h => ?_⟩
      · rw [hnext.1 b s' h, List.append_assoc]
      · obtain ⟨made, hmade, hfail⟩ := hnext.2 e s' h
        refine ⟨ids ++ made, ?_, ?_⟩
        · exact (List.prefix_append_right_inj ids).mpr hmade
        · rw [hfail, List.append_assoc]
  | error e s₁ =>
      obtain ⟨made, hmade, hfail⟩ := (hx before s).2 e s₁ hrun
      rw [run_bind_error hrun, run_bind_error hfail]
      refine ⟨fun b s' h => ?_, fun e' s' h => ?_⟩
      · cases h
      · cases h
        exact ⟨made, hmade.trans (List.prefix_append ids more), rfl⟩

lemma bind_pure {ids : List String} {x : EStateM ε σ α} {x' : EStateM ε (List String × σ) α}
    (hx : Notes ids x x') (g : α → β) :
    Notes ids (x >>= fun a => Pure.pure (g a)) (x' >>= fun a => Pure.pure (g a)) := by
  have hboth := hx.bind fun a => Notes.pure (g a)
  rwa [List.append_nil] at hboth

end Notes

variable {f : String → String → EStateM ε σ TypeExpr}

lemma notes_noting (id name : String) : Notes [id] (f id name) (noting f id name) := by
  intro before s
  constructor
  · intro t s' h
    simp [noting, h]
  · intro e s' h
    exact ⟨[id], List.prefix_rfl, by simp [noting, h]⟩

mutual

/-- **The callback is asked for the targets of the type**, one after the other. -/
lemma notes_mapReferencesM :
    (t : TypeExpr) → Notes t.targets (mapReferencesM f t) (mapReferencesM (noting f) t)
  | .base _ => .pure _
  | .container _ params => (notes_mapParamsM params).bind_pure _
  | .reference id name => notes_noting id name

lemma notes_mapParamsM : (params : List (String × Option TypeExpr)) →
    Notes (paramTargets params) (mapParamsM f params) (mapParamsM (noting f) params)
  | [] => .pure _
  | (_, none) :: rest => (notes_mapParamsM rest).bind_pure _
  | (_, some t) :: rest =>
      (notes_mapReferencesM t).bind fun _ => (notes_mapParamsM rest).bind_pure _

end

end Calls

section Rebuilding

variable {m : Type → Type} [Monad m] [LawfulMonad m]

mutual

/-- A type whose references are put back is the same. -/
lemma mapReferencesM_reference : (t : TypeExpr) → t.Ordered →
    mapReferencesM (m := m) (fun id name => pure (.reference id name)) t = pure t
  | .base _, _ => rfl
  | .reference _ _, _ => rfl
  | .container n params, h => by
      rw [mapReferencesM, mapParamsM_reference params h.2, pure_bind, Dict.ofEntries_of_sorted h.1]

lemma mapParamsM_reference : (params : List (String × Option TypeExpr)) → ParamsOrdered params →
    mapParamsM (m := m) (fun id name => pure (.reference id name)) params = pure params
  | [], _ => rfl
  | (_, none) :: rest, h => by rw [mapParamsM, mapParamsM_reference rest h, pure_bind]
  | (_, some t) :: rest, h => by
      rw [mapParamsM, mapReferencesM_reference t h.1, pure_bind, mapParamsM_reference rest h.2,
        pure_bind]

end

end Rebuilding

/-- **The references that are found are those that are replaced.**  For a type of the grammar there
are ids, the same for every callback, that replacing references asks for, in order and until the
callback fails.  The dependencies of the type are the first occurrences among them.  And a callback
that puts every reference back leaves the type as it is. -/
theorem dependencies_are_calls {t : TypeExpr} (h : t.Grammatical) :
    (∃ calls, FirstOccurrences calls t.dependencies
      ∧ ∀ {ε σ : Type} (f : String → String → EStateM ε σ TypeExpr),
        Notes calls (mapReferencesM f t) (mapReferencesM (noting f) t))
    ∧ ∀ {m : Type → Type} [Monad m] [LawfulMonad m],
      mapReferencesM (m := m) (fun id name => pure (.reference id name)) t = pure t := by
  constructor
  · refine ⟨t.targets, ?_, fun f => notes_mapReferencesM t⟩
    rw [dependencies_eq_unique t h]
    exact firstOccurrences_unique t.targets
  · exact mapReferencesM_reference t (ordered_of_grammatical t h)

/-- The items of every shop, each with shops and a set that has no type. -/
def stockType : TypeExpr :=
  .map (.reference "shop" "Shop")
    (.list (.map (.reference "item" "Item")
      (.map (.reference "shop" "Seller") (.container "Set" [("item", none)]))))

theorem dependencies_are_calls_stockType :
    stockType.Grammatical ∧ stockType.dependencies = ["shop", "item"]
      ∧ ∃ calls, FirstOccurrences calls stockType.dependencies
        ∧ mapReferencesM
            (noting fun id name => (pure (.reference id name) : EStateM Error ℕ TypeExpr))
            stockType ([], 0) = .ok stockType (calls, 0) := by
  have hgrammar : stockType.Grammatical := by decide +kernel
  obtain ⟨⟨calls, hfirst, hnotes⟩, hsame⟩ := dependencies_are_calls hgrammar
  refine ⟨hgrammar, by decide +kernel, calls, hfirst, ?_⟩
  exact (hnotes _ [] 0).1 _ _ (congrFun hsame 0)

end TypeExpr

end DomainDesign
