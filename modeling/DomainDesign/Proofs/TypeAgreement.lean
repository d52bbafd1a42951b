import DomainDesign.Proofs.Dictionaries
import DomainDesign.Proofs.Lists
import DomainDesign.Proofs.Overloads

/-!
# Types that differ in display names only

Types are compared without the display names of their references.  `agreement_past_names` says what
that comes to: an equivalence, which can be decided by looking the parameters of one type up in the
other, and which makes the display names in a method irrelevant to what the method clashes with.

**Other names.**  `Relabelled` says that a type is another one with other display names, at whatever
places.  That is so exactly if the two are the same without names: `relabelled_iff`.

**Looking up.**  Parameters are compared place by place.  Where they stand in the order of their
names, it is enough that there are as many of them and that every one of the first agrees with what
the second has under its name, `paramsAgree_iff_lookup`: then the second cannot have more names, and
the same names in order stand at the same places (`Dict.keys_eq_of_subset`).
-/

namespace DomainDesign

namespace TypeExpr

/-! ## Other names -/

mutual

/-- A type with other display names for its references, at whatever places. -/
inductive Relabelled : TypeExpr → TypeExpr → Prop
  | base (n : String) : Relabelled (.base n) (.base n)
  | container (n : String) {ps qs : List (String × Option TypeExpr)}
      (params : ParamsRelabelled ps qs) : Relabelled (.container n ps) (.container n qs)
  | reference (id n n' : String) : Relabelled (.reference id n) (.reference id n')

/-- Parameters with other display names for their references. -/
inductive ParamsRelabelled :
    List (String × Option TypeExpr) → List (String × Option TypeExpr) → Prop
  | nil : ParamsRelabelled [] []
  | absent (k : String) {ps qs : List (String × Option TypeExpr)} (rest : ParamsRelabelled ps qs) :
      ParamsRelabelled ((k, none) :: ps) ((k, none) :: qs)
  | present (k : String) {s t : TypeExpr} {ps qs : List (String × Option TypeExpr)}
      (type : Relabelled s t) (rest : ParamsRelabelled ps qs) :
      ParamsRelabelled ((k, some s) :: ps) ((k, some t) :: qs)

end

mutual

lemma unnamed_of_relabelled : {a b : TypeExpr} → Relabelled a b → a.unnamed = b.unnamed
  | _, _, .base _ => rfl
  | _, _, .container _ params => by
      rw [unnamed, unnamed, unnamedParams_of_relabelled params]
  | _, _, .reference _ _ _ => rfl

lemma unnamedParams_of_relabelled : {ps qs : List (String × Option TypeExpr)} →
    ParamsRelabelled ps qs → unnamedParams ps = unnamedParams qs
  | _, _, .nil => rfl
  | _, _, .absent _ rest => by
      rw [unnamedParams, unnamedParams, unnamedParams_of_relabelled rest]
  | _, _, .present _ type rest => by
      rw [unnamedParams, unnamedParams, unnamed_of_relabelled type,
        unnamedParams_of_relabelled rest]

end

mutual

lemma relabelled_of_unnamed : (a b : TypeExpr) → a.unnamed = b.unnamed → Relabelled a b
  | .base n, b, h => by
      cases b <;> simp only [unnamed, reduceCtorEq, base.injEq] at h
      subst h
      exact .base n
  | .container n ps, b, h => by
      cases b <;> simp only [unnamed, reduceCtorEq, container.injEq] at h
      obtain ⟨rfl, hparams⟩ := h
      exact .container n (paramsRelabelled_of_unnamed ps _ hparams)
  | .reference id n, b, h => by
      cases b <;> simp only [unnamed, reduceCtorEq, reference.injEq, and_true] at h
      subst h
      exact .reference id n _

lemma paramsRelabelled_of_unnamed : (ps qs : List (String × Option TypeExpr)) →
    unnamedParams ps = unnamedParams qs → ParamsRelabelled ps qs
  | [], qs, h => by
      rcases qs with _ | ⟨⟨_, _ | _⟩, qs⟩ <;> simp only [unnamedParams, reduceCtorEq] at h
      exact .nil
  | (k, none) :: ps, qs, h => by
      rcases qs with _ | ⟨⟨l, _ | t⟩, qs⟩ <;>
        simp only [unnamedParams, reduceCtorEq, List.cons.injEq, Prod.mk.injEq, and_true,
          and_false, false_and] at h
      obtain ⟨rfl, hrest⟩ := h
      exact .absent k (paramsRelabelled_of_unnamed ps qs hrest)
  | (k, some s) :: ps, qs, h => by
      rcases qs with _ | ⟨⟨l, _ | t⟩, qs⟩ <;>
        simp only [unnamedParams, reduceCtorEq, List.cons.injEq, Prod.mk.injEq,
          Option.some.injEq, and_false, false_and] at h
      obtain ⟨⟨rfl, htype⟩, hrest⟩ := h
      exact .present k (relabelled_of_unnamed s t htype) (paramsRelabelled_of_unnamed ps qs hrest)

end

/-- **Other display names are all that is lost without names.** -/
lemma relabelled_iff (a b : TypeExpr) : Relabelled a b ↔ a.unnamed = b.unnamed :=
  ⟨unnamed_of_relabelled, relabelled_of_unnamed a b⟩

lemma equivalence_agrees : Equivalence fun a b : TypeExpr => agrees a b = true := by
  simp only [agrees_iff]
  exact ⟨fun _ => rfl, fun h => h.symm, fun h h' => h.trans h'⟩

/-! ## Looking up -/

lemma paramsAgree_iff_forall₂ (ps qs : List (String × Option TypeExpr)) :
    paramsAgree ps qs = true
      ↔ List.Forall₂ (fun e e' => e.1 = e'.1 ∧ agrees? e.2 e'.2 = true) ps qs := by
  induction ps generalizing qs with
  | nil => rcases qs with _ | ⟨⟨_, _ | _⟩, qs⟩ <;> simp [paramsAgree]
  | cons e ps ih =>
      rcases e with ⟨k, _ | s⟩ <;> rcases qs with _ | ⟨⟨l, _ | t⟩, qs⟩ <;>
        simp [paramsAgree, agrees?, ih]

/-- **Parameters in the order of their names agree if one side can be looked up in the other.** -/
lemma paramsAgree_iff_lookup {ps qs : List (String × Option TypeExpr)} (hps : Dict.Sorted ps)
    (hqs : Dict.Sorted qs) :
    paramsAgree ps qs = true ↔ ps.length = qs.length
      ∧ ∀ k s, (k, s) ∈ ps → ∃ t, List.lookup k qs = some t ∧ agrees? s t = true := by
  rw [paramsAgree_iff_forall₂]
  constructor
  · intro h
    refine ⟨h.length_eq, fun k s hs => ?_⟩
    obtain ⟨⟨l, t⟩, ht, hkey, hagree⟩ := exists_of_mem_right h.flip hs
    obtain rfl : k = l := hkey
    exact ⟨t, Dict.lookup_of_mem hqs ht, hagree⟩
  · rintro ⟨hlength, hlook⟩
    have hsubset : Dict.keys ps ⊆ Dict.keys qs := by
      intro k hk
      obtain ⟨⟨k, s⟩, hs, rfl⟩ := List.mem_map.mp hk
      obtain ⟨t, ht, -⟩ := hlook k s hs
      exact List.mem_map.mpr ⟨(k, t), Dict.mem_of_lookup ht, rfl⟩
    -- so the same names stand at the same places, and what is looked up is what stands there
    have hkeys : List.Forall₂ (fun e e' => e.1 = e'.1) ps qs := by
      have heq := Dict.keys_eq_of_subset hps hqs hlength hsubset
      rwa [Dict.keys, Dict.keys, ← List.forall₂_eq_eq_eq, List.forall₂_map_left_iff,
        List.forall₂_map_right_iff] at heq
    refine forall₂_imp_of_mem hkeys ?_
    rintro ⟨k, s⟩ hs ⟨l, t⟩ ht hkey
    obtain rfl : k = l := hkey
    obtain ⟨t', ht', hagree⟩ := hlook k s hs
    rw [Dict.lookup_of_mem hqs ht] at ht'
    cases ht'
    exact ⟨rfl, hagree⟩

end TypeExpr

namespace Compile

/-! ## Methods -/

/-- Parameters of a method with other display names in their types. -/
def ParametersRelabelled : List Model.Parameter → List Model.Parameter → Prop :=
  List.Forall₂ fun p q => Option.Rel TypeExpr.Relabelled p.type q.type

/-- A method with other display names in the types of its parameters. -/
def MethodRelabelled (m n : Model.Method) : Prop :=
  m.name = n.name ∧ ParametersRelabelled m.parameters n.parameters

/-- The types of parameters without display names. -/
def unnamedTypes (ps : List Model.Parameter) : List (Option TypeExpr) :=
  ps.map fun p => p.type.map TypeExpr.unnamed

/-- What a method is told apart by. -/
def outline (m : Model.Method) : String × List (Option TypeExpr) :=
  (m.name, unnamedTypes m.parameters)

variable {ps ps' qs qs' : List Model.Parameter} {ms ms' : List Model.Method}

lemma sameTypes_iff_unnamedTypes (ps qs : List Model.Parameter) :
    sameTypes ps qs = true ↔ unnamedTypes ps = unnamedTypes qs := by
  rw [sameTypes_iff, unnamedTypes, unnamedTypes, ← List.forall₂_eq_eq_eq,
    List.forall₂_map_left_iff, List.forall₂_map_right_iff]
  simp only [TypeExpr.agrees?_iff]

lemma ParametersRelabelled.unnamedTypes_eq (h : ParametersRelabelled ps ps') :
    unnamedTypes ps = unnamedTypes ps' := by
  refine (map_eq_map (h.imp ?_)).symm
  intro p q hpq
  generalize p.type = s at hpq
  generalize q.type = t at hpq
  cases hpq with
  | none => rfl
  | some hst => simp [(TypeExpr.relabelled_iff _ _).mp hst]

/-- **Display names do not tell signatures apart.** -/
lemma sameTypes_of_relabelled (hp : ParametersRelabelled ps ps')
    (hq : ParametersRelabelled qs qs') : sameTypes ps qs = sameTypes ps' qs' := by
  rw [Bool.eq_iff_iff, sameTypes_iff_unnamedTypes, sameTypes_iff_unnamedTypes, hp.unnamedTypes_eq,
    hq.unnamedTypes_eq]

lemma clash_iff_outline (a b : Model.Method) : Clash a b ↔ outline a = outline b := by
  rw [Clash, ← sameTypes_iff, sameTypes_iff_unnamedTypes, outline, outline, Prod.mk.injEq]

/-- Methods can be told apart if they have different outlines. -/
lemma not_ambiguous_iff_nodup : ¬ Ambiguous ms ↔ (ms.map outline).Nodup := by
  rw [not_ambiguous_iff, List.Nodup, List.pairwise_map]
  simp only [clash_iff_outline, ne_eq]

lemma map_outline_of_relabelled (h : List.Forall₂ MethodRelabelled ms ms') :
    ms.map outline = ms'.map outline := by
  refine (map_eq_map (h.imp ?_)).symm
  rintro m n ⟨hname, hparameters⟩
  rw [outline, outline, hname, hparameters.unnamedTypes_eq]

/-- **Types are compared past display names.**  Two types agree exactly if they are the same without
display names, which is an equivalence.  For containers whose parameters stand in the order of their
names, that is the same name, as many parameters, and for each parameter of the first one under its
name in the second that agrees with it.  So with other display names, at whatever places, the same
signatures are ambiguous, and the same methods can be merged. -/
theorem agreement_past_names :
    (∀ a b : TypeExpr, a.agrees b = true ↔ a.unnamed = b.unnamed)
      ∧ Equivalence (fun a b : TypeExpr => a.agrees b = true)
      ∧ (∀ (n n' : String) (ps qs : List (String × Option TypeExpr)),
        Dict.Sorted ps → Dict.Sorted qs →
        ((TypeExpr.container n ps).agrees (.container n' qs) = true
          ↔ n = n' ∧ ps.length = qs.length ∧ ∀ k s, (k, s) ∈ ps →
            ∃ t, List.lookup k qs = some t ∧ TypeExpr.agrees? s t = true))
      ∧ (∀ ps ps' qs qs' : List Model.Parameter, ParametersRelabelled ps ps' →
        ParametersRelabelled qs qs' → sameTypes ps qs = sameTypes ps' qs')
      ∧ ∀ (t : Tree) (c : Config) (ms ms' : List Model.Method),
        List.Forall₂ MethodRelabelled ms ms' →
        ((∃ compiled, methods t c ms = .ok compiled)
          ↔ ∃ compiled, methods t c ms' = .ok compiled) := by
  refine ⟨TypeExpr.agrees_iff, TypeExpr.equivalence_agrees, ?_, ?_, ?_⟩
  · intro n n' ps qs hps hqs
    rw [TypeExpr.agrees, Bool.and_eq_true, beq_iff_eq, TypeExpr.paramsAgree_iff_lookup hps hqs]
  · intro ps ps' qs qs' hp hq
    exact sameTypes_of_relabelled hp hq
  · intro t c ms ms' hms
    rw [methods_ok_iff, methods_ok_iff, not_ambiguous_iff_nodup, not_ambiguous_iff_nodup,
      map_outline_of_relabelled hms]

/-- Users by the name that is shown for them. -/
def userMap (name : String) : TypeExpr :=
  .map (.base "Long") (.list (.reference "user" name))

theorem agreement_past_names_userMap :
    (userMap "User").agrees (userMap "Person") = true
      ∧ sameTypes (finder (userMap "User")).parameters (finder (.base "Long")).parameters
        = sameTypes (finder (userMap "Person")).parameters (finder (.base "Long")).parameters
      ∧ ((∃ compiled, methods default {} [finder (userMap "User"), finder (.base "Long")]
          = .ok compiled)
        ↔ ∃ compiled, methods default {} [finder (userMap "Person"), finder (.base "Long")]
          = .ok compiled) := by
  obtain ⟨-, -, hlook, hsame, hmethods⟩ := agreement_past_names
  have hsorted : ∀ name, Dict.Sorted [("key", some (TypeExpr.base "Long")),
      ("value", some (.list (.reference "user" name)))] := by
    intro name
    simp only [Dict.Sorted, List.pairwise_cons, List.mem_singleton, forall_eq]
    exact ⟨by decide, by simp, .nil⟩
  have huser : TypeExpr.Relabelled (userMap "User") (userMap "Person") :=
    .container _ (.present _ (.base _) (.present _
      (.container _ (.present _ (.reference ..) .nil)) .nil))
  have hfinder : ParametersRelabelled (finder (userMap "User")).parameters
      (finder (userMap "Person")).parameters := .cons (.some huser) .nil
  have hlong : ParametersRelabelled (finder (.base "Long")).parameters
      (finder (.base "Long")).parameters := .cons (.some (.base _)) .nil
  refine ⟨(hlook _ _ _ _ (hsorted _) (hsorted _)).mpr ⟨rfl, rfl, ?_⟩, hsame _ _ _ _ hfinder hlong,
    hmethods _ _ _ _ (.cons ⟨rfl, hfinder⟩ (.cons ⟨rfl, hlong⟩ .nil))⟩
  intro k s hs
  simp only [List.mem_cons, Prod.mk.injEq, List.not_mem_nil, or_false] at hs
  rcases hs with ⟨rfl, rfl⟩ | ⟨rfl, rfl⟩
  · exact ⟨_, rfl, by decide +kernel⟩
  · exact ⟨_, rfl, by decide +kernel⟩

end Compile

end DomainDesign
