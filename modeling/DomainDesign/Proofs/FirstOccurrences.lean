import DomainDesign.TypeExpr.Basic
import Mathlib.Data.List.Basic
import Mathlib.Tactic.Common

/-!
# First occurrences

Ids are collected in lists that may have an id many times, and `unique` keeps the first of each.
`FirstOccurrences` says what that is without saying how it is found.

What is collected in parts is made unique part by part, and then again as a whole.  That is the same
as making the whole unique once, however deep the parts are nested: `unique` of a list only depends
on `unique` of its parts, `unique_append_congr` and `unique_flatMap_congr`.
-/

namespace DomainDesign

/-- `ids` are the texts of a list, each once, in the order in which they first come up there. -/
structure FirstOccurrences (all ids : List String) : Prop where
  nodup : ids.Nodup
  mem_iff : ∀ id, id ∈ ids ↔ id ∈ all
  order : ids.Pairwise fun a b => all.idxOf a < all.idxOf b

lemma firstOccurrences_unique (all : List String) : FirstOccurrences all (unique all) := by
  refine ⟨nodup_unique all, fun id => mem_unique, ?_⟩
  induction all with
  | nil => simp [unique]
  | cons a rest ih =>
      have hlater : ∀ b, b ≠ a → (a :: rest).idxOf b = rest.idxOf b + 1 := by
        intro b hb
        exact List.idxOf_cons_ne rest (Ne.symm hb)
      rw [unique, List.pairwise_cons]
      constructor
      · intro b hb
        have hne : b ≠ a := by simpa using (List.mem_filter.mp hb).2
        rw [List.idxOf_cons_self, hlater b hne]
        omega
      · rw [List.pairwise_filter]
        refine ih.imp ?_
        intro b d hlt hb hd
        rw [hlater b (by simpa using hb), hlater d (by simpa using hd)]
        omega

/-! ## Parts -/

lemma unique_append (as bs : List String) :
    unique (as ++ bs) = unique as ++ (unique bs).filter (· ∉ as) := by
  induction as with
  | nil => simp [unique]
  | cons a rest ih =>
      simp only [List.cons_append, unique, ih, List.filter_append, List.filter_filter]
      congr 2
      refine List.filter_congr fun b _ => ?_
      simp

lemma unique_of_nodup {ids : List String} (h : ids.Nodup) : unique ids = ids := by
  induction h with
  | nil => rfl
  | cons hnew _ ih =>
      rw [unique, ih, List.filter_eq_self.mpr]
      intro b hb
      simpa using Ne.symm (hnew b hb)

@[simp] lemma unique_unique (ids : List String) : unique (unique ids) = unique ids :=
  unique_of_nodup (nodup_unique ids)

/-- The unique texts of two parts do not depend on what is repeated in either of them. -/
lemma unique_append_congr {as as' bs bs' : List String} (ha : unique as = unique as')
    (hb : unique bs = unique bs') : unique (as ++ bs) = unique (as' ++ bs') := by
  have hmem : ∀ id, id ∈ as ↔ id ∈ as' := by
    intro id
    rw [← mem_unique, ha, mem_unique]
  rw [unique_append, unique_append, ha, hb]
  congr 1
  refine List.filter_congr fun id _ => ?_
  simp [hmem]

/-- **Making parts unique first makes no difference**, for any number of parts. -/
lemma unique_flatMap_congr {α : Type} {as : List α} {f g : α → List String}
    (h : ∀ a ∈ as, unique (f a) = unique (g a)) :
    unique (as.flatMap f) = unique (as.flatMap g) := by
  induction as with
  | nil => rfl
  | cons a rest ih =>
      rw [List.flatMap_cons, List.flatMap_cons]
      refine unique_append_congr (h a List.mem_cons_self) (ih ?_)
      intro b hb
      exact h b (List.mem_cons_of_mem a hb)

lemma filter_unique (keep : String → Bool) (ids : List String) :
    (unique ids).filter keep = unique (ids.filter keep) := by
  induction ids with
  | nil => rfl
  | cons a rest ih =>
      by_cases ha : keep a
      · rw [List.filter_cons_of_pos ha, unique, unique, List.filter_cons_of_pos ha,
          List.filter_comm, ih]
      · rw [List.filter_cons_of_neg ha, unique, List.filter_cons_of_neg ha, List.filter_comm, ih,
          List.filter_eq_self.mpr]
        intro b hb
        have hkeep : keep b := (List.mem_filter.mp (mem_unique.mp hb)).2
        have hne : b ≠ a := by
          rintro rfl
          exact ha hkeep
        simpa using hne

end DomainDesign
