import DomainDesign.Json.Printer
import DomainDesign.Proofs.JsonRange
import DomainDesign.Proofs.NumberText

/-!
# JSON values and their texts

**Main result.**  `Json.render_inj`: values in range with the same text are the same.

The proof reads two equal texts side by side, each with some rest behind the value
(`render_append_inj`).  The first character tells the form of the value.  A string ends with the
first quote that is not escaped, a list or table with its bracket, and a word or a number where the
rest begins, provided that the rest does not go on with a character of a word: `Ends`.
-/

namespace DomainDesign.Json

/-! ## Strings -/

/-- The characters that are escaped in a string. -/
def specials : List Char :=
  '"' :: '\\' :: (List.range 0x20).map Char.ofNat

lemma escapeChar_of_notMem {c : Char} (hc : c ∉ specials) : escapeChar c = [c] := by
  have hlow : ¬ c.toNat < 0x20 := by
    intro hlt
    refine hc (List.mem_cons_of_mem _ (List.mem_cons_of_mem _ (List.mem_map.mpr ?_)))
    exact ⟨c.toNat, List.mem_range.mpr hlt, Char.ofNat_toNat c⟩
  have hne {d : Char} (hd : d ∈ specials) : c ≠ d := fun h => hc (h ▸ hd)
  rw [escapeChar, if_neg (hne (by decide)), if_neg (hne (by decide)), if_neg (hne (by decide)),
    if_neg (hne (by decide)), if_neg (hne (by decide)), if_neg (by omega), if_neg (by omega),
    if_neg hlow]

lemma escapeChar_of_mem {c : Char} (hc : c ∈ specials) : ∃ t, escapeChar c = '\\' :: t := by
  have hhead : specials.all fun c => (escapeChar c).head? = some '\\' := by decide +kernel
  exact ⟨_, List.eq_cons_of_mem_head? (of_decide_eq_true (List.all_eq_true.mp hhead c hc))⟩

lemma eq_of_escapeChar_isPrefix {c d : Char} (hc : c ∈ specials) (hd : d ∈ specials)
    (h : escapeChar c <+: escapeChar d) : c = d := by
  have hfree : specials.all fun c => specials.all fun d =>
      (escapeChar c).isPrefixOf (escapeChar d) → c = d := by decide +kernel
  have hcd := List.all_eq_true.mp (List.all_eq_true.mp hfree c hc) d hd
  exact of_decide_eq_true hcd (List.isPrefixOf_iff_prefix.mpr h)

/-- No character is written with a beginning of what another is written with. -/
lemma escapeChar_append_inj {c d : Char} {u v : List Char}
    (h : escapeChar c ++ u = escapeChar d ++ v) : c = d ∧ u = v := by
  have hcd : c = d := by
    by_cases hc : c ∈ specials <;> by_cases hd : d ∈ specials
    · rcases List.prefix_or_prefix_of_prefix (List.prefix_append _ u)
        (h ▸ List.prefix_append _ v) with hprefix | hprefix
      · exact eq_of_escapeChar_isPrefix hc hd hprefix
      · exact (eq_of_escapeChar_isPrefix hd hc hprefix).symm
    · obtain ⟨t, ht⟩ := escapeChar_of_mem hc
      rw [ht, escapeChar_of_notMem hd] at h
      exact absurd (by rw [← (List.cons.inj h).1]; decide) hd
    · obtain ⟨t, ht⟩ := escapeChar_of_mem hd
      rw [ht, escapeChar_of_notMem hc] at h
      exact absurd (by rw [(List.cons.inj h).1]; decide) hc
    · rw [escapeChar_of_notMem hc, escapeChar_of_notMem hd] at h
      exact (List.cons.inj h).1
  exact ⟨hcd, List.append_cancel_left (hcd ▸ h)⟩

lemma escapeChar_append_ne {c : Char} {u v : List Char} : escapeChar c ++ u ≠ '"' :: v := by
  intro h
  by_cases hc : c ∈ specials
  · obtain ⟨t, ht⟩ := escapeChar_of_mem hc
    rw [ht] at h
    exact absurd (List.cons.inj h).1 (by decide)
  · rw [escapeChar_of_notMem hc] at h
    exact hc (by rw [(List.cons.inj h).1]; decide)

lemma escaped_append_inj {s t r r' : List Char}
    (h : s.flatMap escapeChar ++ '"' :: r = t.flatMap escapeChar ++ '"' :: r') :
    s = t ∧ r = r' := by
  induction s generalizing t with
  | nil =>
    cases t with
    | nil => exact ⟨rfl, (List.cons.inj h).2⟩
    | cons d t =>
      rw [List.flatMap_cons, List.append_assoc] at h
      exact absurd h.symm escapeChar_append_ne
  | cons c s ih =>
    cases t with
    | nil =>
      rw [List.flatMap_cons, List.append_assoc] at h
      exact absurd h escapeChar_append_ne
    | cons d t =>
      rw [List.flatMap_cons, List.flatMap_cons, List.append_assoc, List.append_assoc] at h
      obtain ⟨rfl, hrest⟩ := escapeChar_append_inj h
      obtain ⟨rfl, hr⟩ := ih hrest
      exact ⟨rfl, hr⟩

lemma quoted_append_inj {s t : String} {r r' : List Char}
    (h : (quoted s).toList ++ r = (quoted t).toList ++ r') : s = t ∧ r = r' := by
  simp only [quoted, String.toList_append, String.toList_ofList, List.append_assoc] at h
  obtain ⟨hst, hr⟩ := escaped_append_inj (List.append_cancel_left h)
  exact ⟨String.toList_inj.mp hst, hr⟩

/-! ## Values -/

/-- What follows a value does not go on with a character of a word. -/
def Ends (r : List Char) : Prop :=
  ∀ c ∈ r.head?, ¬ isWordChar c

inductive Form where
  | null
  | truth
  | number
  | text
  | list
  | table

def form : Json → Form
  | .null => .null
  | .bool _ => .truth
  | .num _ => .number
  | .str _ => .text
  | .arr _ => .list
  | .obj _ => .table

/-- The form of the values that start with a character. -/
def formOf? (c : Char) : Option Form :=
  if c = 'n' then some .null
  else if c = 't' ∨ c = 'f' then some .truth
  else if c = '-' ∨ c.isDigit then some .number
  else if c = '"' then some .text
  else if c = '[' then some .list
  else if c = '\x7b' then some .table
  else none

lemma exists_head {j : Json} (hj : j.InRange) :
    ∃ c t, (render j).toList = c :: t ∧ formOf? c = some j.form := by
  cases j with
  | null => exact ⟨_, _, rfl, rfl⟩
  | bool b => cases b <;> exact ⟨_, _, rfl, rfl⟩
  | num n =>
    obtain ⟨c, hc, hstart⟩ := Number.head_render hj
    refine ⟨c, _, List.eq_cons_of_mem_head? hc, ?_⟩
    rcases hstart with rfl | hdigit
    · rfl
    · have hne {d : Char} (hd : ¬ d.isDigit) : c ≠ d := fun h => hd (h ▸ hdigit)
      rw [formOf?, if_neg (hne (by decide)), if_neg, if_pos (.inr hdigit), form]
      exact not_or.mpr ⟨hne (by decide), hne (by decide)⟩
  | str s =>
    rw [render, quoted, String.append_assoc, String.toList_append]
    exact ⟨'"', _, rfl, rfl⟩
  | arr items =>
    rw [render, String.append_assoc, String.toList_append]
    exact ⟨'[', _, rfl, rfl⟩
  | obj fields =>
    rw [render, String.append_assoc, String.toList_append]
    exact ⟨'\x7b', _, rfl, rfl⟩

lemma form_eq {j j' : Json} {r r' : List Char} (hj : j.InRange) (hj' : j'.InRange)
    (h : (render j).toList ++ r = (render j').toList ++ r') : j.form = j'.form := by
  obtain ⟨c, t, htext, hform⟩ := exists_head hj
  obtain ⟨c', t', htext', hform'⟩ := exists_head hj'
  rw [htext, htext'] at h
  rw [(List.cons.inj h).1, hform'] at hform
  exact (Option.some.inj hform).symm

/-- No value starts with a character that has no form. -/
lemma render_append_ne {j : Json} {r t : List Char} {c : Char} (hj : j.InRange)
    (hc : formOf? c = none) : (render j).toList ++ r ≠ c :: t := by
  obtain ⟨d, u, htext, hform⟩ := exists_head hj
  intro h
  rw [htext] at h
  rw [(List.cons.inj h).1, hc] at hform
  exact absurd hform nofun

lemma ends_nil : Ends [] :=
  nofun

lemma ends_cons {c : Char} {t : List Char} (hc : ¬ isWordChar c) : Ends (c :: t) := by
  rintro _ ⟨⟩
  exact hc

/-! ## Lists and tables -/

section

variable {α : Type} {write : List α → String} {rest rest' : List α} {c : Char} {r r' : List Char}

/-- A comma before what follows, unless nothing does. -/
def separated : List α → List Char → List Char
  | [], text => text
  | _ :: _, text => ',' :: text

lemma ends_separated (hwrite : write [] = "") (hc : ¬ isWordChar c) :
    Ends (separated rest ((write rest).toList ++ c :: r)) := by
  cases rest with
  | nil =>
    rw [separated, hwrite]
    exact ends_cons hc
  | cons a rest => exact ends_cons (by decide)

lemma separated_inj (hwrite : write [] = "") (hc : c ≠ ',')
    (h : separated rest ((write rest).toList ++ c :: r)
      = separated rest' ((write rest').toList ++ c :: r')) :
    (write rest).toList ++ c :: r = (write rest').toList ++ c :: r' := by
  cases rest with
  | nil =>
    cases rest' with
    | nil => exact h
    | cons a' rest' =>
      rw [hwrite] at h
      exact absurd (List.cons.inj h).1 hc
  | cons a rest =>
    cases rest' with
    | nil =>
      rw [hwrite] at h
      exact absurd (List.cons.inj h).1.symm hc
    | cons a' rest' => exact (List.cons.inj h).2

end

lemma renderItems_cons_append (j : Json) (rest : List Json) (t : List Char) :
    (renderItems (j :: rest)).toList ++ t
      = (render j).toList ++ separated rest ((renderItems rest).toList ++ t) := by
  cases rest <;> simp [renderItems, separated]

lemma renderFields_cons_append (k : String) (j : Json) (rest : List (String × Json))
    (t : List Char) :
    (renderFields ((k, j) :: rest)).toList ++ t
      = (quoted k).toList ++ (':' :: ((render j).toList
        ++ separated rest ((renderFields rest).toList ++ t))) := by
  cases rest <;> simp [renderFields, separated]

mutual

lemma render_append_inj : (j : Json) → ∀ ⦃j' : Json⦄ ⦃r r' : List Char⦄, j.InRange → j'.InRange →
    Ends r → Ends r' → (render j).toList ++ r = (render j').toList ++ r' → j = j' ∧ r = r'
  | .null => by
    intro j' r r' hj hj' _ _ h
    cases j' with
    | null => exact ⟨rfl, List.append_cancel_left h⟩
    | _ => cases form_eq hj hj' h
  | .bool b => by
    intro j' r r' hj hj' _ _ h
    cases j' with
    | bool b' => cases b <;> cases b' <;> simp [render] at h ⊢ <;> exact h
    | _ => cases form_eq hj hj' h
  | .num n => by
    intro j' r r' hj hj' hr hr' h
    cases j' with
    | num n' =>
      obtain ⟨htext, hrest⟩ := append_inj_of_forall (Number.isWordChar_render hj)
        (Number.isWordChar_render hj') hr hr' h
      exact ⟨by rw [Number.render_inj hj hj' htext], hrest⟩
    | _ => cases form_eq hj hj' h
  | .str s => by
    intro j' r r' hj hj' _ _ h
    cases j' with
    | str s' =>
      obtain ⟨rfl, hrest⟩ := quoted_append_inj h
      exact ⟨rfl, hrest⟩
    | _ => cases form_eq hj hj' h
  | .arr items => by
    intro j' r r' hj hj' _ _ h
    cases j' with
    | arr items' =>
      simp only [render, String.toList_append, List.append_assoc] at h
      obtain ⟨rfl, hrest⟩ := renderItems_append_inj items hj hj' (List.append_cancel_left h)
      exact ⟨rfl, hrest⟩
    | _ => cases form_eq hj hj' h
  | .obj fields => by
    intro j' r r' hj hj' _ _ h
    cases j' with
    | obj fields' =>
      simp only [render, String.toList_append, List.append_assoc] at h
      obtain ⟨rfl, hrest⟩ := renderFields_append_inj fields hj hj' (List.append_cancel_left h)
      exact ⟨rfl, hrest⟩
    | _ => cases form_eq hj hj' h

lemma renderItems_append_inj : (items : List Json) → ∀ ⦃items' : List Json⦄ ⦃r r' : List Char⦄,
    ItemsInRange items → ItemsInRange items' →
    (renderItems items).toList ++ ']' :: r = (renderItems items').toList ++ ']' :: r' →
    items = items' ∧ r = r'
  | [] => by
    intro items' r r' _ hj' h
    cases items' with
    | nil => exact ⟨rfl, (List.cons.inj h).2⟩
    | cons j' rest' =>
      rw [renderItems_cons_append] at h
      exact absurd h.symm (render_append_ne hj'.1 rfl)
  | j :: rest => by
    intro items' r r' hj hj' h
    rw [renderItems_cons_append] at h
    cases items' with
    | nil => exact absurd h (render_append_ne hj.1 rfl)
    | cons j' rest' =>
      rw [renderItems_cons_append] at h
      obtain ⟨rfl, hmore⟩ := render_append_inj j hj.1 hj'.1 (ends_separated rfl (by decide))
        (ends_separated rfl (by decide)) h
      obtain ⟨rfl, hr⟩ :=
        renderItems_append_inj rest hj.2 hj'.2 (separated_inj rfl (by decide) hmore)
      exact ⟨rfl, hr⟩

lemma renderFields_append_inj : (fields : Fields) → ∀ ⦃fields' : Fields⦄ ⦃r r' : List Char⦄,
    FieldsInRange fields → FieldsInRange fields' →
    (renderFields fields).toList ++ '\x7d' :: r = (renderFields fields').toList ++ '\x7d' :: r' →
    fields = fields' ∧ r = r'
  | [] => by
    intro fields' r r' _ _ h
    cases fields' with
    | nil => exact ⟨rfl, (List.cons.inj h).2⟩
    | cons f' rest' =>
      rw [renderFields_cons_append, quoted, String.append_assoc, String.toList_append] at h
      exact absurd (List.cons.inj h).1 (by decide)
  | (k, j) :: rest => by
    intro fields' r r' hj hj' h
    rw [renderFields_cons_append] at h
    cases fields' with
    | nil =>
      rw [quoted, String.append_assoc, String.toList_append] at h
      exact absurd (List.cons.inj h).1 (by decide)
    | cons f' rest' =>
      rw [renderFields_cons_append] at h
      obtain ⟨rfl, hvalue⟩ := quoted_append_inj h
      obtain ⟨rfl, hmore⟩ := render_append_inj j hj.1 hj'.1 (ends_separated rfl (by decide))
        (ends_separated rfl (by decide)) (List.cons.inj hvalue).2
      obtain ⟨rfl, hr⟩ :=
        renderFields_append_inj rest hj.2 hj'.2 (separated_inj rfl (by decide) hmore)
      exact ⟨rfl, hr⟩

end

/-- **Values in range with the same text are the same.** -/
lemma render_inj {j j' : Json} (hj : j.InRange) (hj' : j'.InRange) (h : render j = render j') :
    j = j' := by
  have htext : (render j).toList ++ [] = (render j').toList ++ [] := by rw [h]
  exact (render_append_inj j hj hj' ends_nil ends_nil htext).1

end DomainDesign.Json
