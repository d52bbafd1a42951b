import DomainDesign.Json.Token
import DomainDesign.Proofs.ShortestDecimals

/-!
# Numbers and their texts

The text of a number is the text of a literal (`Number.exists_literal`), and the literal says all
about the number: its sign, whether it has a fraction or an exponent, and its value.  A literal is
found back in its text (`Literal.text_inj`), because no part of a literal goes on with a character
that the next part starts with.  So numbers in range with the same text are the same:
`Number.render_inj`.
-/

namespace DomainDesign.Json

/-- Two texts split in the same way, if every character before the split satisfies a condition and
none right after it does. -/
lemma append_inj_of_forall {p : Char → Bool} {s t r r' : List Char} (hs : ∀ c ∈ s, p c)
    (ht : ∀ c ∈ t, p c) (hr : ∀ c ∈ r.head?, ¬ p c) (hr' : ∀ c ∈ r'.head?, ¬ p c)
    (h : s ++ r = t ++ r') : s = t ∧ r = r' := by
  have hspan {s r : List Char} (hs : ∀ c ∈ s, p c) (hr : ∀ c ∈ r.head?, ¬ p c) :
      (s ++ r).takeWhile p = s := by
    rw [List.takeWhile_append_of_pos hs]
    cases r with
    | nil => simp
    | cons c r => rw [List.takeWhile_cons_of_neg (hr c rfl), List.append_nil]
  have hst : s = t := by rw [← hspan hs hr, h, hspan ht hr']
  exact ⟨hst, List.append_cancel_left (hst ▸ h)⟩

namespace Number

/-! ## Digits -/

lemma natOfDigits_eq (digits : List Char) : natOfDigits digits = Nat.ofDigitChars 10 digits 0 := by
  rw [natOfDigits, Nat.ofDigitChars]
  simp only [Nat.mul_comm 10, digit]

lemma natOfDigits_append (s t : List Char) :
    natOfDigits (s ++ t) = natOfDigits s * 10 ^ t.length + natOfDigits t := by
  simp only [natOfDigits_eq]
  rw [Nat.ofDigitChars_append, Nat.ofDigitChars_eq_ofDigitChars_zero, mul_comm]

lemma natOfDigits_zeros (n : ℕ) : natOfDigits (Layout.zeros n) = 0 := by
  rw [natOfDigits_eq, Layout.zeros, Nat.ofDigitChars_replicate_zero, mul_zero]

lemma natOfDigits_toDigits (n : ℕ) : natOfDigits (Nat.toDigits 10 n) = n := by
  rw [natOfDigits_eq, Nat.ofDigitChars_ten_toDigits]

lemma isDigit_toDigits {n : ℕ} {c : Char} (hc : c ∈ Nat.toDigits 10 n) : c.isDigit :=
  Nat.isDigit_of_mem_toDigits (by decide) le_rfl hc

lemma isDigit_zeros {n : ℕ} {c : Char} (hc : c ∈ Layout.zeros n) : c.isDigit := by
  rw [List.eq_of_mem_replicate hc]
  rfl

/-! ## Literals -/

def fractionText : List Char → List Char
  | [] => []
  | c :: digits => '.' :: c :: digits

def exponentText : Option (Bool × List Char) → List Char
  | none => []
  | some (minus, digits) => 'e' :: (if minus then '-' else '+') :: digits

/-- The text of a literal. -/
def Literal.text (l : Literal) : List Char :=
  (if l.negative then ['-'] else [])
    ++ (l.whole ++ (fractionText l.fraction ++ exponentText l.exponent))

/-- The power of ten that the exponent of a literal writes. -/
def Literal.power (l : Literal) : ℤ :=
  match l.exponent with
  | none => 0
  | some (true, digits) => -natOfDigits digits
  | some (false, digits) => natOfDigits digits

/-- The value of a literal without its sign. -/
def Literal.value (l : Literal) : ℚ :=
  natOfDigits (l.whole ++ l.fraction) * 10 ^ (l.power - l.fraction.length)

/-- The parts of a literal are digits, with one before the point. -/
structure Literal.Digits (l : Literal) : Prop where
  whole_ne_nil : l.whole ≠ []
  whole : ∀ c ∈ l.whole, c.isDigit
  fraction : ∀ c ∈ l.fraction, c.isDigit
  exponent : ∀ e ∈ l.exponent, ∀ c ∈ e.2, c.isDigit

lemma exponentText_inj {e e' : Option (Bool × List Char)} (h : exponentText e = exponentText e') :
    e = e' := by
  obtain _ | ⟨minus, digits⟩ := e <;> obtain _ | ⟨minus', digits'⟩ := e'
  · rfl
  · exact absurd h nofun
  · exact absurd h nofun
  · cases minus <;> cases minus' <;> simp [exponentText] at h ⊢ <;> exact h

lemma head_exponentText {e : Option (Bool × List Char)} :
    ∀ c ∈ (exponentText e).head?, c = 'e' := by
  intro c hc
  cases e with
  | none => exact absurd hc nofun
  | some e => exact (Option.some.inj hc).symm

lemma not_isDigit_head {f : List Char} {e : Option (Bool × List Char)} :
    ∀ c ∈ (fractionText f ++ exponentText e).head?, ¬ c.isDigit := by
  intro c hc
  cases f with
  | nil =>
    rw [head_exponentText c hc]
    decide
  | cons d digits =>
    rw [← Option.some.inj hc]
    decide

lemma fractionText_inj {f f' : List Char} {e e' : Option (Bool × List Char)}
    (hf : ∀ c ∈ f, c.isDigit) (hf' : ∀ c ∈ f', c.isDigit)
    (h : fractionText f ++ exponentText e = fractionText f' ++ exponentText e') :
    f = f' ∧ e = e' := by
  have hpoint {e : Option (Bool × List Char)} {t : List Char} : exponentText e ≠ '.' :: t := by
    intro he
    have hhead := head_exponentText (e := e) '.' (by rw [he]; rfl)
    exact absurd hhead (by decide)
  cases f with
  | nil =>
    cases f' with
    | nil => exact ⟨rfl, exponentText_inj h⟩
    | cons d' digits' => exact absurd h hpoint
  | cons d digits =>
    cases f' with
    | nil => exact absurd h.symm hpoint
    | cons d' digits' =>
      obtain ⟨hdigits, he⟩ := append_inj_of_forall hf hf' (not_isDigit_head (f := []))
        (not_isDigit_head (f := [])) (List.cons.inj h).2
      exact ⟨hdigits, exponentText_inj he⟩

/-- **A literal is found back in its text.** -/
lemma Literal.text_inj {l m : Literal} (hl : l.Digits) (hm : m.Digits) (h : l.text = m.text) :
    l = m := by
  have hsign {l : Literal} (hl : l.Digits) {t u : List Char} : l.whole ++ t ≠ '-' :: u := by
    obtain ⟨d, digits, hwhole⟩ := List.exists_cons_of_ne_nil hl.whole_ne_nil
    intro hcons
    rw [hwhole] at hcons
    have hd := hl.whole d (by simp [hwhole])
    rw [(List.cons.inj hcons).1] at hd
    exact absurd hd (by decide)
  obtain ⟨hnegative, htext⟩ : l.negative = m.negative
      ∧ l.whole ++ (fractionText l.fraction ++ exponentText l.exponent)
        = m.whole ++ (fractionText m.fraction ++ exponentText m.exponent) := by
    rw [text, text] at h
    split at h <;> split at h
    next hminus hminus' => exact ⟨by rw [hminus, hminus'], List.append_cancel_left h⟩
    next => exact absurd h.symm (hsign hm)
    next => exact absurd h (hsign hl)
    next hplus hplus' => exact ⟨by simp [hplus, hplus'], h⟩
  obtain ⟨hwhole, hrest⟩ :=
    append_inj_of_forall hl.whole hm.whole not_isDigit_head not_isDigit_head htext
  obtain ⟨hfraction, hexponent⟩ := fractionText_inj hl.fraction hm.fraction hrest
  obtain ⟨⟩ := l
  obtain ⟨⟩ := m
  simp_all

/-! ## Layouts -/

/-- A text is the text of a literal without a sign that is no whole number and has the value of a
decimal. -/
def Writes (text : List Char) (d : Decimal) : Prop :=
  ∃ l : Literal, l.Digits ∧ l.negative = false ∧ (l.fraction ≠ [] ∨ l.exponent ≠ none)
    ∧ text = l.text ∧ l.value = d.value

lemma writes_point {d : Decimal} (whole fraction : List Char) (hwhole : whole ≠ [])
    (hfraction : fraction ≠ []) (hdigits : ∀ c ∈ whole ++ fraction, c.isDigit)
    (hvalue : (natOfDigits (whole ++ fraction) : ℚ) * 10 ^ (-(fraction.length : ℤ)) = d.value) :
    Writes (whole ++ '.' :: fraction) d := by
  refine ⟨⟨false, whole, fraction, none⟩, ⟨hwhole, ?_, ?_, nofun⟩, rfl, .inl hfraction, ?_, ?_⟩
  · exact fun c hc => hdigits c (List.mem_append_left _ hc)
  · exact fun c hc => hdigits c (List.mem_append_right _ hc)
  · obtain ⟨c, digits, rfl⟩ := List.exists_cons_of_ne_nil hfraction
    simp [Literal.text, fractionText, exponentText]
  · rw [← hvalue, Literal.value, Literal.power, zero_sub]

lemma exponent_eq (d : Decimal) :
    d.exponent = d.leadingExponent + 1 - (Nat.toDigits 10 d.coefficient).length := by
  rw [Decimal.leadingExponent, Binary64.digitCount]
  omega

lemma writes_positionalText (d : Decimal) :
    Writes (Layout.positionalText true (Nat.toDigits 10 d.coefficient) d.leadingExponent) d := by
  have hdigits : ∀ c ∈ Nat.toDigits 10 d.coefficient, c.isDigit := fun _ => isDigit_toDigits
  have hnil : Nat.toDigits 10 d.coefficient ≠ [] := Nat.toDigits_ne_nil
  have hcoefficient := natOfDigits_toDigits d.coefficient
  have hexponent := exponent_eq d
  generalize Nat.toDigits 10 d.coefficient = digits at *
  rw [Layout.positionalText]
  split
  next h =>
    refine writes_point ['0'] (Layout.zeros _ ++ digits) nofun (by simp [hnil]) ?_ ?_
    · intro c hc
      rcases List.mem_append.mp hc with hc | hc
      · rw [List.mem_singleton.mp hc]
        rfl
      · exact (List.mem_append.mp hc).elim isDigit_zeros (hdigits c)
    · rw [natOfDigits_append, natOfDigits_append, natOfDigits_zeros, hcoefficient, Decimal.value,
        hexponent, show natOfDigits ['0'] = 0 from rfl, zero_mul, zero_mul, zero_add, zero_add]
      congr 2
      simp [Layout.zeros]
      omega
  next h =>
    extract_lets whole
    split
    next hlt =>
      have hdrop : (digits.drop whole).length = digits.length - whole := List.length_drop
      refine writes_point _ _ ?_ ?_ (by simpa using hdigits) ?_
      · exact List.ne_nil_of_length_pos (by rw [List.length_take]; omega)
      · exact List.ne_nil_of_length_pos (by omega)
      · rw [List.take_append_drop, hcoefficient, Decimal.value, hexponent]
        congr 2
        omega
    next hle =>
      refine writes_point (digits ++ Layout.zeros _) ['0'] (by simp [hnil]) nofun ?_ ?_
      · intro c hc
        rcases List.mem_append.mp hc with hc | hc
        · exact (List.mem_append.mp hc).elim (hdigits c) isDigit_zeros
        · rw [List.mem_singleton.mp hc]
          rfl
      · rw [natOfDigits_append, natOfDigits_append, natOfDigits_zeros, hcoefficient, Decimal.value,
          hexponent, show natOfDigits ['0'] = 0 from rfl, Layout.zeros, List.length_replicate,
          show d.leadingExponent + 1 - digits.length = (whole - digits.length : ℕ) by omega]
        push_cast
        simp

lemma power_some (negative : Bool) (whole fraction : List Char) (e : ℤ) :
    Literal.power ⟨negative, whole, fraction, some (e < 0, Nat.toDigits 10 e.natAbs)⟩ = e := by
  by_cases h : e < 0
  · simp only [Literal.power, h, decide_true, natOfDigits_toDigits]
    omega
  · simp only [Literal.power, h, decide_false, natOfDigits_toDigits]
    omega

lemma writes_scientificText (d : Decimal) :
    Writes (Layout.scientificText (Nat.toDigits 10 d.coefficient) d.leadingExponent) d := by
  have hdigits : ∀ c ∈ Nat.toDigits 10 d.coefficient, c.isDigit := fun _ => isDigit_toDigits
  have hcoefficient := natOfDigits_toDigits d.coefficient
  have hexponent := exponent_eq d
  obtain ⟨first, rest, hcons⟩ := List.exists_cons_of_ne_nil (@Nat.toDigits_ne_nil d.coefficient 10)
  rw [hcons] at hdigits hcoefficient hexponent ⊢
  set e := d.leadingExponent
  refine ⟨⟨false, [first], rest, some (e < 0, Nat.toDigits 10 e.natAbs)⟩,
    ⟨nofun, fun c hc => hdigits c (List.mem_append_left rest hc),
      fun c hc => hdigits c (List.mem_cons_of_mem first hc), ?_⟩, rfl, .inr nofun, ?_, ?_⟩
  · rintro _ ⟨⟩ c hc
    exact isDigit_toDigits hc
  · cases rest <;> simp [Layout.scientificText, Literal.text, fractionText, exponentText]
  · rw [Literal.value, power_some, List.singleton_append, hcoefficient, Decimal.value, hexponent,
      List.length_cons]
    congr 2
    push_cast
    ring

lemma writes_decimalText (d : Decimal) : Writes (Layout.json.decimalText d) d := by
  rw [Layout.decimalText]
  split
  · exact writes_positionalText d
  · exact writes_scientificText d

/-! ## Numbers -/

/-- A literal says all about a number. -/
def Literal.Determines (l : Literal) : Number → Prop
  | .int i => l.fraction = [] ∧ l.exponent = none ∧ l.negative = decide (i < 0)
      ∧ natOfDigits l.whole = i.natAbs
  | .float x => (l.fraction ≠ [] ∨ l.exponent ≠ none) ∧ l.negative = x.negative
      ∧ l.value = x.written.value

lemma Literal.Determines.unique {l : Literal} {n m : Number} (hn : l.Determines n)
    (hm : l.Determines m) : n = m := by
  cases n with
  | int i =>
    obtain ⟨hfraction, hexponent, hnegative, hnat⟩ := hn
    cases m with
    | int j =>
      obtain ⟨-, -, hnegative', hnat'⟩ := hm
      rw [hnegative, decide_eq_decide] at hnegative'
      congr 1
      omega
    | float y => exact absurd hm.1 (by simp [hfraction, hexponent])
  | float x =>
    cases m with
    | int j => exact absurd hn.1 (by simp [hm.1, hm.2.1])
    | float y =>
      obtain ⟨-, hnegative, hvalue⟩ := hn
      obtain ⟨-, hnegative', hvalue'⟩ := hm
      rw [Binary64.eq_of_written (hnegative.symm.trans hnegative') (hvalue.symm.trans hvalue')]

lemma exists_literal_int (i : ℤ) :
    ∃ l : Literal, l.Digits ∧ (render (.int i)).toList = l.text ∧ l.Determines (.int i) := by
  refine ⟨⟨i < 0, Nat.toDigits 10 i.natAbs, [], none⟩,
    ⟨Nat.toDigits_ne_nil, fun _ => isDigit_toDigits, nofun, nofun⟩, ?_, rfl, rfl, rfl,
    natOfDigits_toDigits _⟩
  by_cases hnegative : i < 0 <;>
    simp [render, Literal.text, fractionText, exponentText, hnegative]

lemma exists_literal_float {x : Binary64} (hx : x.isFinite) :
    ∃ l : Literal, l.Digits ∧ (render (.float x)).toList = l.text ∧ l.Determines (.float x) := by
  have hnan : x.isNaN = false := by
    rw [Binary64.isFinite, bne_iff_ne] at hx
    simp [Binary64.isNaN, hx]
  have hrender : (render (.float x)).toList
      = (if x.negative then ['-'] else []) ++ Layout.json.decimalText x.written := by
    by_cases hzero : x.significand = 0 <;> cases hnegative : x.negative <;>
      simp [render, Binary64.render, Binary64.written, hx, hnan, hzero, hnegative]
  obtain ⟨l, hdigits, hnegative, hparts, htext, hvalue⟩ := writes_decimalText x.written
  refine ⟨{ l with negative := x.negative }, ⟨hdigits.1, hdigits.2, hdigits.3, hdigits.4⟩, ?_,
    hparts, rfl, hvalue⟩
  rw [hrender, htext, Literal.text, Literal.text, hnegative]
  rfl

lemma exists_literal {n : Number} (hn : n.InRange) :
    ∃ l : Literal, l.Digits ∧ n.render.toList = l.text ∧ l.Determines n := by
  cases n with
  | int i => exact exists_literal_int i
  | float x => exact exists_literal_float hn

/-- **Numbers in range with the same text are the same.** -/
lemma render_inj {n m : Number} (hn : n.InRange) (hm : m.InRange)
    (h : n.render.toList = m.render.toList) : n = m := by
  obtain ⟨l, hl, htext, hdetermines⟩ := exists_literal hn
  obtain ⟨l', hl', htext', hdetermines'⟩ := exists_literal hm
  rw [htext, htext'] at h
  cases Literal.text_inj hl hl' h
  exact hdetermines.unique hdetermines'

lemma isWordChar_of_isDigit {c : Char} (h : c.isDigit) : isWordChar c := by
  simp [isWordChar, Char.isAlphanum, h]

lemma Literal.isWordChar_text {l : Literal} (hl : l.Digits) : ∀ c ∈ l.text, isWordChar c := by
  have hsign : ∀ c ∈ if l.negative then ['-'] else [], isWordChar c := by
    split
    · exact List.forall_mem_singleton.mpr rfl
    · exact nofun
  have hfraction : ∀ c ∈ fractionText l.fraction, isWordChar c := by
    have hdigits := hl.fraction
    cases hcons : l.fraction with
    | nil => exact nofun
    | cons d digits =>
      rw [hcons] at hdigits
      exact List.forall_mem_cons.mpr ⟨rfl, fun c hc => isWordChar_of_isDigit (hdigits c hc)⟩
  have hexponent : ∀ c ∈ exponentText l.exponent, isWordChar c := by
    rcases hsome : l.exponent with _ | ⟨minus, digits⟩
    · exact nofun
    · refine List.forall_mem_cons.mpr ⟨rfl, List.forall_mem_cons.mpr ⟨by cases minus <;> rfl, ?_⟩⟩
      exact fun c hc => isWordChar_of_isDigit (hl.exponent _ hsome c hc)
  intro c hc
  simp only [Literal.text, List.mem_append] at hc
  rcases hc with hc | hc | hc | hc
  · exact hsign c hc
  · exact isWordChar_of_isDigit (hl.whole c hc)
  · exact hfraction c hc
  · exact hexponent c hc

lemma isWordChar_render {n : Number} (hn : n.InRange) : ∀ c ∈ n.render.toList, isWordChar c := by
  obtain ⟨l, hl, htext, -⟩ := exists_literal hn
  rw [htext]
  exact Literal.isWordChar_text hl

/-- The text of a number starts with a sign or a digit. -/
lemma head_render {n : Number} (hn : n.InRange) :
    ∃ c ∈ n.render.toList.head?, c = '-' ∨ c.isDigit := by
  obtain ⟨l, hl, htext, -⟩ := exists_literal hn
  obtain ⟨d, digits, hwhole⟩ := List.exists_cons_of_ne_nil hl.whole_ne_nil
  rw [htext, Literal.text]
  split
  · exact ⟨'-', rfl, .inl rfl⟩
  · rw [hwhole]
    exact ⟨d, rfl, .inr (hl.whole d (by simp [hwhole]))⟩

end Number

end DomainDesign.Json
