import Mathlib.Data.List.Basic
import Mathlib.Data.List.Forall2
import Mathlib.Data.List.Nodup
import Mathlib.Data.List.Perm.Basic
import Mathlib.Tactic.Common

/-!
# Lists of things with keys

Compiled parts stand in lists beside the nodes they come from, and are found there by their ids.
The first lemmas of this file are about two lists whose items go together one by one, the next about
a list in which every item has a key of its own, and the last about the order of the items of a list
and what sorting makes of it.
-/

namespace DomainDesign

/-! ## Lists that go together -/

section Pairs

variable {α β γ : Type} {R : α → β → Prop} {as : List α} {bs : List β}

/-- Where two lists go together, every item of the second goes with one of the first. -/
lemma exists_of_mem_right (h : List.Forall₂ R as bs) {b : β} (hb : b ∈ bs) : ∃ a ∈ as, R a b := by
  induction h with
  | nil => simp at hb
  | @cons a b' as bs hab _ ih =>
      rcases List.mem_cons.mp hb with rfl | hb
      · exact ⟨a, List.mem_cons_self, hab⟩
      · obtain ⟨a', ha', hR⟩ := ih hb
        exact ⟨a', List.mem_cons_of_mem _ ha', hR⟩

/-- Where two lists go together, the items at one place do. -/
lemma exists_getElem?_right (h : List.Forall₂ R as bs) {k : ℕ} {a : α} (ha : as[k]? = some a) :
    ∃ b, bs[k]? = some b ∧ R a b := by
  induction h generalizing k with
  | nil => simp at ha
  | @cons a' b as bs hab _ ih =>
      cases k with
      | zero =>
          obtain rfl : a' = a := by simpa using ha
          exact ⟨b, rfl, hab⟩
      | succ k => exact ih ha

/-- Two lists go together in what they say if their items do. -/
lemma map_eq_map {f : α → γ} {g : β → γ} (h : List.Forall₂ (fun a b => g b = f a) as bs) :
    bs.map g = as.map f := by
  induction h with
  | nil => rfl
  | cons hab _ ih => rw [List.map_cons, List.map_cons, hab, ih]

/-- Where two lists go together, a cut in the first is a cut in the second. -/
lemma forall₂_cut {before after : List α} {a : α} (h : List.Forall₂ R (before ++ a :: after) bs) :
    ∃ front b back, bs = front ++ b :: back ∧ R a b ∧ List.Forall₂ R after back := by
  induction before generalizing bs with
  | nil =>
      obtain ⟨b, back, hab, hafter, rfl⟩ := List.forall₂_cons_left_iff.mp h
      exact ⟨[], b, back, rfl, hab, hafter⟩
  | cons d rest ih =>
      obtain ⟨e, bs, -, hrest, rfl⟩ := List.forall₂_cons_left_iff.mp h
      obtain ⟨front, b, back, rfl, hab, hafter⟩ := ih hrest
      exact ⟨e :: front, b, back, rfl, hab, hafter⟩

/-- Only what is in the two lists matters for how they go together. -/
lemma forall₂_imp_of_mem {S : α → β → Prop} (h : List.Forall₂ R as bs)
    (himp : ∀ a ∈ as, ∀ b ∈ bs, R a b → S a b) : List.Forall₂ S as bs := by
  induction h with
  | nil => exact .nil
  | cons hab _ ih =>
      refine .cons (himp _ List.mem_cons_self _ List.mem_cons_self hab) (ih ?_)
      intro a ha b hb
      exact himp a (List.mem_cons_of_mem _ ha) b (List.mem_cons_of_mem _ hb)

/-- Two lists that go together with the same one go together. -/
lemma forall₂_of_common {S : α → γ → Prop} {T : β → γ → Prop} {cs : List γ}
    (h : List.Forall₂ R as bs) (h' : List.Forall₂ S as cs)
    (himp : ∀ a b c, R a b → S a c → T b c) : List.Forall₂ T bs cs := by
  induction h generalizing cs with
  | nil =>
      cases h'
      exact .nil
  | cons hab _ ih =>
      obtain ⟨c, cs, hac, hrest, rfl⟩ := List.forall₂_cons_left_iff.mp h'
      exact .cons (himp _ _ _ hab hac) (ih hrest)

/-- What is chosen from every item goes with it. -/
lemma forall₂_filterMap {choose : α → Option β} (h : ∀ a ∈ as, ∃ b, choose a = some b ∧ R a b) :
    List.Forall₂ R as (as.filterMap choose) := by
  induction as with
  | nil => exact .nil
  | cons a rest ih =>
      obtain ⟨b, hb, hR⟩ := h a List.mem_cons_self
      rw [List.filterMap_cons_some hb]
      exact .cons hR (ih fun c hc => h c (List.mem_cons_of_mem _ hc))

/-- A list of values in another order is the list of the values of items in another order. -/
lemma exists_order_of_perm {f : α → β} (h : bs.Perm (as.map f)) :
    ∃ order : List α, bs = order.map f ∧ order.Perm as :=
  (congrFun (congrFun (List.eq_map_comp_perm f) bs) as).mpr h

end Pairs

/-! ## Keys -/

section Keys

variable {α κ : Type} {key : α → κ}

/-- Among different keys, that of an item is none of those before it. -/
lemma key_notMem_before {before after : List α} {a : α}
    (h : ((before ++ a :: after).map key).Nodup) : key a ∉ before.map key := by
  rw [List.map_append, List.map_cons, List.nodup_append] at h
  exact fun hmem => h.2.2 _ hmem _ List.mem_cons_self rfl

/-- What stands behind an item stands behind it wherever the list is cut. -/
lemma mem_after_of_sublist {before after : List α} {a b : α}
    (h : ((before ++ a :: after).map key).Nodup) (hb : [a, b].Sublist (before ++ a :: after)) :
    b ∈ after := by
  obtain ⟨front, back, hsplit, hfront, hback⟩ := List.sublist_append_iff.mp hb
  cases front with
  | nil =>
      cases hsplit
      cases hback with
      | cons _ hboth => exact hboth.subset (by simp)
      | cons_cons _ hrest => exact hrest.subset (by simp)
  | cons d front =>
      obtain ⟨rfl, -⟩ := List.cons_eq_cons.mp hsplit
      have ha : a ∈ before := hfront.subset List.mem_cons_self
      exact absurd (List.mem_map_of_mem ha) (key_notMem_before h)

/-- An item is found by its key if no other one has it. -/
lemma find?_key [DecidableEq κ] {as : List α} {a : α} (ha : a ∈ as)
    (hunique : ∀ b ∈ as, key b = key a → b = a) :
    (as.find? fun b => key b = key a) = some a := by
  cases hfind : as.find? fun b => key b = key a with
  | none => exact absurd (decide_eq_true rfl) (List.find?_eq_none.mp hfind a ha)
  | some b =>
      have hkey : key b = key a := of_decide_eq_true (List.find?_some hfind :)
      rw [hunique b (List.mem_of_find?_eq_some hfind) hkey]

end Keys

/-! ## Order -/

section Order

variable {α : Type} {R : α → α → Prop} {l : List α}

/-- Of two different items of a list, one stands before the other. -/
lemma pair_sublist_or {a b : α} (ha : a ∈ l) (hb : b ∈ l) (hne : a ≠ b) :
    [a, b].Sublist l ∨ [b, a].Sublist l := by
  obtain ⟨before, after, rfl⟩ := List.append_of_mem ha
  rcases List.mem_append.mp hb with hb | hb
  · right
    exact (List.singleton_sublist.mpr hb).append (List.singleton_sublist.mpr List.mem_cons_self)
  · left
    have hafter : b ∈ after := (List.mem_cons.mp hb).resolve_left (Ne.symm hne)
    exact ((List.singleton_sublist.mpr hafter).cons_cons a).trans (List.sublist_append_right _ _)

/-- Two different items cannot both stand before each other. -/
lemma not_pair_sublist {a b : α} (h : l.Nodup) (hab : [a, b].Sublist l) : ¬ [b, a].Sublist l := by
  intro hba
  have hlist : ∀ before after : List α, l = before ++ after → ((before ++ after).map id).Nodup := by
    rintro before after rfl
    simpa using h
  obtain ⟨before, after, hl⟩ := List.append_of_mem (hab.subset List.mem_cons_self)
  have hb : b ∈ after := mem_after_of_sublist (hlist _ _ hl) (hl ▸ hab)
  obtain ⟨between, behind, rfl⟩ := List.append_of_mem hb
  have hl' : l = (before ++ a :: between) ++ b :: behind := by simpa using hl
  have ha : a ∈ behind := mem_after_of_sublist (hlist _ _ hl') (hl' ▸ hba)
  rw [hl, List.nodup_append, List.nodup_cons] at h
  exact h.2.1.1 (by simp [ha])

/-- **Sorting keeps the order of items that are alike.**  The items of a list with ascending places
are sorted by their rank, and by their places where the rank is the same. -/
lemma pairwise_mergeSort_place {le : α → α → Bool} {place : α → ℕ}
    (trans : ∀ a b c, le a b → le b c → le a c) (total : ∀ a b, le a b || le b a)
    (hplace : l.Pairwise fun a b => place a < place b) :
    (l.mergeSort le).Pairwise fun a b => le a b ∧ (le b a → place a < place b) := by
  have hnodup : l.Nodup := by
    refine hplace.imp ?_
    rintro a _ hlt rfl
    exact Nat.lt_irrefl _ hlt
  have hsorted : (l.mergeSort le).Nodup := (List.mergeSort_perm l le).nodup_iff.mpr hnodup
  refine List.pairwise_iff_forall_sublist.mpr fun {a b} hab => ⟨?_, fun hba => ?_⟩
  · exact (List.pairwise_mergeSort trans total l).forall_sublist hab
  · have ha : a ∈ l := List.mem_mergeSort.mp (hab.subset (by simp))
    have hb : b ∈ l := List.mem_mergeSort.mp (hab.subset (by simp))
    have hne : a ≠ b := List.Pairwise.forall_sublist hsorted hab
    rcases pair_sublist_or ha hb hne with hl | hl
    · exact hplace.forall_sublist hl
    · -- sorting would have kept the other order
      exact absurd (List.pair_sublist_mergeSort trans total hba hl) (not_pair_sublist hsorted hab)

/-- What is found first in an ordered list comes before everything else that could have been
found. -/
lemma find?_first {q : α → Bool} {a : α} (hl : l.Pairwise R) (h : l.find? q = some a) {b : α}
    (hb : b ∈ l) (hq : q b) : b = a ∨ R a b := by
  obtain ⟨-, before, after, rfl, hbefore⟩ := List.find?_eq_some_iff_append.mp h
  rcases List.mem_append.mp hb with hb | hb
  · exact absurd hq (by simpa using hbefore b hb)
  · rcases List.mem_cons.mp hb with rfl | hb
    · exact .inl rfl
    · have htail := (List.pairwise_append.mp hl).2.1
      exact .inr ((List.pairwise_cons.mp htail).1 b hb)

end Order

end DomainDesign
