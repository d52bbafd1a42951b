import DomainDesign.IdSupply
import Mathlib.Data.List.Nodup
import Mathlib.Data.List.Perm.Basic
import Mathlib.Data.List.Range
import Mathlib.Tactic.Common

/-!
# Ids that a source has given out

`IdSource.Drawn s s' ids` says that the ids are what has been drawn on the way from one state of a
source to another, in any order.  Nothing is known about such ids: a source may give one twice.

`IdSupply.Minted s s' ids` says it of a supply that counts, with the numbers of the ids, and
`Minted.of_drawn` goes from the one to the other.  The numbers are those between the two counts, and
different numbers give different ids, so no id is drawn twice: `Minted.nodup`.  Every id has a
hyphen, which keeps it apart from the id of a root: `Minted.ne_of_no_hyphen`.
-/

namespace DomainDesign

/-- The ids that have been drawn between two states of a source, in any order. -/
inductive IdSource.Drawn {σ : Type} [IdSource σ] : (s s' : σ) → (ids : List String) → Prop
  | refl (s : σ) : Drawn s s []
  | next (s : σ) : Drawn s (IdSource.next s).2 [(IdSource.next s).1]
  | trans {s s₁ s₂ : σ} {ids more : List String} (before : Drawn s s₁ ids)
      (after : Drawn s₁ s₂ more) : Drawn s s₂ (ids ++ more)
  | of_perm {s s₁ : σ} {ids more : List String} (drawn : Drawn s s₁ ids) (perm : ids.Perm more) :
      Drawn s s₁ more

namespace IdSupply

/-- The ids that have been drawn between two states of a supply. -/
structure Minted (s s' : IdSupply) (ids : List String) : Prop where
  label : s'.label = s.label
  issued : s'.issued = s.issued + ids.length
  drawn : ids.Perm ((List.range' (s.issued + 1) ids.length).map (idAt s.label))

variable {s s₁ s₂ : IdSupply} {ids more : List String}

namespace Minted

lemma refl (s : IdSupply) : Minted s s [] :=
  ⟨rfl, rfl, .refl _⟩

lemma next (s : IdSupply) : Minted s s.next.2 [s.next.1] :=
  ⟨rfl, rfl, .refl _⟩

/-- The order of the ids does not matter. -/
lemma of_perm (h : Minted s s₁ ids) (hperm : ids.Perm more) : Minted s s₁ more := by
  refine ⟨h.label, ?_, ?_⟩
  · rw [← hperm.length_eq]
    exact h.issued
  · rw [← hperm.length_eq]
    exact hperm.symm.trans h.drawn

lemma trans (h : Minted s s₁ ids) (h' : Minted s₁ s₂ more) : Minted s s₂ (ids ++ more) := by
  refine ⟨h'.label.trans h.label, ?_, ?_⟩
  · rw [h'.issued, h.issued, List.length_append]
    omega
  · have hrange : List.range' (s.issued + 1) (ids ++ more).length
        = List.range' (s.issued + 1) ids.length
          ++ List.range' (s.issued + 1 + ids.length) more.length := by
      rw [List.length_append, List.range'_append_1]
    have hmore : s.issued + 1 + ids.length = s₁.issued + 1 := by
      rw [h.issued]
      omega
    rw [hrange, List.map_append, hmore, ← h.label]
    refine List.Perm.append ?_ h'.drawn
    rw [h.label]
    exact h.drawn

end Minted

/-- What has been drawn from a supply that counts. -/
lemma Minted.of_drawn (h : IdSource.Drawn s s₁ ids) : Minted s s₁ ids := by
  induction h with
  | refl s => exact .refl s
  | next s => exact .next s
  | trans _ _ ih ih' => exact ih.trans ih'
  | of_perm _ perm ih => exact ih.of_perm perm

/-- Different numbers give different ids. -/
lemma idAt_injective (label : String) : Function.Injective (idAt label) := by
  intro m n h
  rw [idAt, idAt, String.append_right_inj, Nat.toString_eq_ofList_toDigits,
    Nat.toString_eq_ofList_toDigits, String.ofList_inj] at h
  -- the digits of a number say which number it is
  rw [← @Nat.ofDigitChars_ten_toDigits m, ← @Nat.ofDigitChars_ten_toDigits n, h]

lemma hyphen_mem_idAt (label : String) (n : ℕ) : '-' ∈ (idAt label n).toList := by
  simp [idAt]

namespace Minted

/-- **No id is drawn twice.** -/
lemma nodup (h : Minted s s₁ ids) : ids.Nodup :=
  h.drawn.nodup_iff.mpr ((List.nodup_map_iff (idAt_injective _)).mpr List.nodup_range')

/-- An id that has been drawn has a number between the two counts. -/
lemma exists_number (h : Minted s s₁ ids) {id : String} (hid : id ∈ ids) :
    ∃ n, s.issued < n ∧ n ≤ s₁.issued ∧ id = idAt s.label n := by
  obtain ⟨n, hn, rfl⟩ := List.mem_map.mp (h.drawn.mem_iff.mp hid)
  rw [List.mem_range'_1] at hn
  have hissued := h.issued
  exact ⟨n, by omega, by omega, rfl⟩

/-- An id that has been drawn is no text without a hyphen. -/
lemma ne_of_no_hyphen (h : Minted s s₁ ids) {id text : String} (hid : id ∈ ids)
    (htext : '-' ∉ text.toList) :
    id ≠ text := by
  obtain ⟨n, -, -, rfl⟩ := h.exists_number hid
  exact fun heq => htext (heq ▸ hyphen_mem_idAt s.label n)

end Minted

end IdSupply

end DomainDesign
