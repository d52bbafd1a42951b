import DomainDesign.Compile.Rendering
import DomainDesign.Proofs.NumberText
import Mathlib.Data.List.DropRight

/-!
# Codes are read as integers, exactly

The code of an enumeration may be a text, and the number at its start is read, however the text goes
on.  `integers_read_exactly` says which part of the text that is, and that an integer is not touched
by reading it.

**The part that is read.**  `IsNumeral` is the form of a number in a code, and `Leads p cs` says
that `p` is the longest numeral that `cs` starts with.  There is one (`leads_leading`), and only one
(`Leads.eq`): the reader takes a sign, and then goes on through digits and one point for as long as
it can.

**Its value.**  Where the numeral has no digit there is no number (`leadingNumber?_eq_none`).  Where
it is an integer, apart from a point at its end, that integer is the number
(`leadingNumber?_eq_integer`).

**There and back.**  The text of an integer is a numeral as a whole, so it is read back
(`number?_toText`).
-/

namespace DomainDesign.Model.EnumCode

open Json

/-! ## Numerals -/

/-- What a numeral may have before its digits. -/
def signs : List (List Char) :=
  [[], ['+'], ['-']]

/-- Digits with at most one point among them, or none where a point has been seen. -/
structure IsBody (pointSeen : Bool) (cs : List Char) : Prop where
  digits : ∀ c ∈ cs, c.isDigit ∨ c = '.'
  points : cs.count '.' ≤ if pointSeen then 0 else 1

/-- A sign or none, and digits with at most one point among them. -/
def IsNumeral (cs : List Char) : Prop :=
  ∃ sign ∈ signs, ∃ body, cs = sign ++ body ∧ IsBody false body

/-- The longest numeral that a text starts with. -/
structure Leads (p cs : List Char) : Prop where
  starts : p <+: cs
  numeral : IsNumeral p
  longest : ∀ q, q <+: cs → IsNumeral q → q.length ≤ p.length

/-- The integer that a sign and digits write. -/
def integer (sign digits : List Char) : ℤ :=
  if sign = ['-'] then -(Nat.ofDigitChars 10 digits 0 : ℤ) else Nat.ofDigitChars 10 digits 0

/-- An integer fits sixty-four bits, one of them for its sign. -/
def Fits (n : ℤ) : Prop :=
  -2 ^ 63 ≤ n ∧ n < 2 ^ 63

variable {cs p q : List Char} {sign body digits : List Char} {pointSeen : Bool}

/-! ## Digits and a point -/

lemma isBody_cons {c : Char} {rest : List Char} :
    IsBody pointSeen (c :: rest)
      ↔ c.isDigit ∧ IsBody pointSeen rest ∨ c = '.' ∧ pointSeen = false ∧ IsBody true rest := by
  have hdot : ¬ ('.').isDigit := by decide
  constructor
  · rintro ⟨hdigits, hpoints⟩
    obtain ⟨hc, hrest⟩ := List.forall_mem_cons.mp hdigits
    by_cases hpoint : c = '.'
    · rw [hpoint, List.count_cons_self] at hpoints
      cases pointSeen
      · exact .inr ⟨hpoint, rfl, hrest, by simpa using hpoints⟩
      · simp at hpoints
    · rw [List.count_cons_of_ne hpoint] at hpoints
      exact .inl ⟨hc.resolve_right hpoint, hrest, hpoints⟩
  · rintro (⟨hc, hdigits, hpoints⟩ | ⟨rfl, rfl, hdigits, hpoints⟩)
    · have hpoint : c ≠ '.' := by
        rintro rfl
        exact hdot hc
      refine ⟨List.forall_mem_cons.mpr ⟨.inl hc, hdigits⟩, ?_⟩
      rwa [List.count_cons_of_ne hpoint]
    · refine ⟨List.forall_mem_cons.mpr ⟨.inr rfl, hdigits⟩, ?_⟩
      rw [List.count_cons_self]
      simpa using hpoints

lemma isBody_nil : IsBody pointSeen [] :=
  ⟨List.forall_mem_nil _, Nat.zero_le _⟩

lemma isBody_of_digits (h : ∀ c ∈ digits, c.isDigit) : IsBody pointSeen digits := by
  induction digits with
  | nil => exact isBody_nil
  | cons c rest ih =>
      obtain ⟨hc, hrest⟩ := List.forall_mem_cons.mp h
      exact isBody_cons.mpr (.inl ⟨hc, ih hrest⟩)

lemma numeral_starts (pointSeen : Bool) (cs : List Char) : numeral pointSeen cs <+: cs := by
  induction cs generalizing pointSeen with
  | nil => exact List.prefix_rfl
  | cons c rest ih =>
      rw [numeral]
      split
      · exact List.prefix_cons_inj c |>.mpr (ih _)
      · split
        · exact List.prefix_cons_inj c |>.mpr (ih _)
        · exact List.nil_prefix

lemma isBody_numeral (pointSeen : Bool) (cs : List Char) :
    IsBody pointSeen (numeral pointSeen cs) := by
  induction cs generalizing pointSeen with
  | nil => exact isBody_nil
  | cons c rest ih =>
      rw [numeral]
      split
      next hc => exact isBody_cons.mpr (.inl ⟨hc, ih _⟩)
      next =>
        split
        next hc => exact isBody_cons.mpr (.inr ⟨hc.1, hc.2, ih _⟩)
        next => exact isBody_nil

/-- **The reader stops at nothing that could be read.** -/
lemma starts_numeral (h : IsBody pointSeen q) (hstarts : q <+: cs) :
    q <+: numeral pointSeen cs := by
  induction cs generalizing q pointSeen with
  | nil => exact hstarts
  | cons c rest ih =>
      cases q with
      | nil => exact List.nil_prefix
      | cons d q =>
          obtain ⟨rfl, hrest⟩ := List.cons_prefix_cons.mp hstarts
          rw [numeral]
          rcases isBody_cons.mp h with ⟨hd, hq⟩ | ⟨hd, hseen, hq⟩
          · rw [if_pos hd]
            exact (List.prefix_cons_inj d).mpr (ih hq hrest)
          · rw [if_neg (by rw [hd]; decide), if_pos ⟨hd, hseen⟩]
            exact (List.prefix_cons_inj d).mpr (ih hq hrest)

/-! ## The sign -/

/-- The sign at the start of a text. -/
def signOf : List Char → List Char
  | '-' :: _ => ['-']
  | '+' :: _ => ['+']
  | _ => []

lemma signOf_mem (cs : List Char) : signOf cs ∈ signs := by
  rw [signOf.eq_def]
  split <;> decide

/-- A sign is split off, and the rest is left. -/
lemma splitSign_eq (cs : List Char) :
    signOf cs ++ (splitSign cs).2 = cs ∧ (splitSign cs).1 = decide (signOf cs = ['-']) := by
  rw [signOf.eq_def, splitSign.eq_def]
  split <;> simp

/-- Digits and points start with no sign. -/
lemma signOf_body (h : ∀ c ∈ body, c.isDigit ∨ c = '.') : signOf body = [] := by
  rw [signOf.eq_def]
  split
  next => exact absurd (h '-' List.mem_cons_self) (by decide)
  next => exact absurd (h '+' List.mem_cons_self) (by decide)
  next => rfl

/-- A sign is told by its first character. -/
lemma signOf_append (hsign : sign ∈ signs) (hbody : ∀ c ∈ body, c.isDigit ∨ c = '.') :
    signOf (sign ++ body) = sign := by
  simp only [signs, List.mem_cons, List.not_mem_nil, or_false] at hsign
  rcases hsign with rfl | rfl | rfl
  · exact signOf_body hbody
  · rfl
  · rfl

lemma splitSign_append (hsign : sign ∈ signs) (hbody : ∀ c ∈ body, c.isDigit ∨ c = '.') :
    splitSign (sign ++ body) = (decide (sign = ['-']), body) := by
  obtain ⟨hrest, hnegative⟩ := splitSign_eq (sign ++ body)
  rw [signOf_append hsign hbody] at hrest hnegative
  exact Prod.ext hnegative (List.append_cancel_left hrest)

/-! ## The leading numeral -/

/-- What the reader takes from a text. -/
def leading (cs : List Char) : List Char :=
  signOf cs ++ numeral false (splitSign cs).2

lemma IsNumeral.isBody (h : IsNumeral q) : IsBody false (splitSign q).2 := by
  obtain ⟨sign, hsign, body, rfl, hbody⟩ := h
  rwa [splitSign_append hsign hbody.digits]

/-- A start of a text that is not empty has the sign of the text. -/
lemma splitSign_cons_append (c : Char) (q rest : List Char) :
    signOf (c :: (q ++ rest)) = signOf (c :: q)
      ∧ (splitSign (c :: (q ++ rest))).2 = (splitSign (c :: q)).2 ++ rest := by
  by_cases hminus : c = '-'
  · subst hminus
    exact ⟨rfl, rfl⟩
  by_cases hplus : c = '+'
  · subst hplus
    exact ⟨rfl, rfl⟩
  have hnone (t : List Char) : signOf (c :: t) = [] := by
    rw [signOf.eq_def]
    split <;> simp_all
  have hrest (t : List Char) : (splitSign (c :: t)).2 = c :: t := by
    simpa [hnone] using (splitSign_eq (c :: t)).1
  exact ⟨by rw [hnone, hnone], by rw [hrest, hrest, List.cons_append]⟩

/-- **The reader takes the longest numeral.** -/
lemma leads_leading (cs : List Char) : Leads (leading cs) cs := by
  have hsplit := (splitSign_eq cs).1
  refine ⟨?_, ⟨signOf cs, signOf_mem cs, _, rfl, isBody_numeral ..⟩, fun q hstarts hq => ?_⟩
  · nth_rewrite 2 [← hsplit]
    exact (List.prefix_append_right_inj _).mpr (numeral_starts ..)
  · cases q with
    | nil => exact Nat.zero_le _
    | cons c q =>
        obtain ⟨rest, rfl⟩ := hstarts
        obtain ⟨hsign, hrest⟩ := splitSign_cons_append c q rest
        have hbody : (splitSign (c :: q)).2 <+: numeral false (splitSign (c :: (q ++ rest))).2 :=
          starts_numeral hq.isBody (hrest ▸ List.prefix_append ..)
        have hlength := congrArg List.length (splitSign_eq (c :: q)).1
        rw [List.length_append] at hlength
        rw [← hlength, List.cons_append, leading, hsign, List.length_append]
        exact Nat.add_le_add_left hbody.length_le _

/-- There is one longest numeral. -/
lemma Leads.eq (h : Leads p cs) : p = leading cs := by
  have hlead := leads_leading cs
  have hle := hlead.longest p h.starts h.numeral
  have hge := h.longest _ hlead.starts hlead.numeral
  have hstarts := List.prefix_of_prefix_length_le h.starts hlead.starts hle
  exact hstarts.eq_of_length (Nat.le_antisymm hle hge)

/-! ## Its value -/

lemma leadingNumber?_eq (cs : List Char) :
    leadingNumber? cs
      = if (numeral false (splitSign cs).2).any Char.isDigit then
          numberOf? (splitSign cs).1 (numeral false (splitSign cs).2)
        else none :=
  rfl

/-- Without a digit there is no number. -/
lemma leadingNumber?_eq_none (h : ∀ c ∈ leading cs, ¬ c.isDigit) : leadingNumber? cs = none := by
  rw [leadingNumber?_eq, if_neg]
  rw [List.any_eq_true]
  rintro ⟨c, hc, hdigit⟩
  exact h c (List.mem_append_right _ hc) hdigit

/-- Digits that a point may follow are the integer that they write. -/
lemma numberOf?_eq_integer (hdigits : ∀ c ∈ digits, c.isDigit) {points : List Char}
    (hpoints : ∀ c ∈ points, c = '.') (hlength : points.length ≤ 1)
    (hfits : Fits (integer sign digits)) :
    numberOf? (decide (sign = ['-'])) (digits ++ points)
      = some (.int (integer sign digits)) := by
  have hnone : points.takeWhile Char.isDigit = [] ∧ points.dropWhile Char.isDigit = points := by
    cases points with
    | nil => exact ⟨rfl, rfl⟩
    | cons c rest =>
        rw [hpoints c List.mem_cons_self]
        exact ⟨rfl, rfl⟩
  have hwhole : (digits ++ points).takeWhile Char.isDigit = digits := by
    rw [List.takeWhile_append_of_pos hdigits, hnone.1, List.append_nil]
  have hfraction : ((digits ++ points).dropWhile Char.isDigit).drop 1 = [] := by
    rw [List.dropWhile_append_of_pos hdigits, hnone.2, List.drop_eq_nil_of_le hlength]
  have hvalue : (if decide (sign = ['-']) = true then -(Number.natOfDigits digits : ℤ)
      else Number.natOfDigits digits) = integer sign digits := by
    rw [Number.natOfDigits_eq, integer]
    simp only [decide_eq_true_eq]
  unfold numberOf?
  simp only [hwhole, hfraction, hvalue]
  exact if_pos ⟨rfl, hfits⟩

/-- **An integer is read as it is written**, if it fits, whatever follows it. -/
lemma leadingNumber?_eq_integer (hsign : sign ∈ signs) (hne : digits ≠ [])
    (hdigits : ∀ c ∈ digits, c.isDigit)
    (hlead : (leading cs).rdropWhile (· = '.') = sign ++ digits)
    (hfits : Fits (integer sign digits)) :
    leadingNumber? cs = some (.int (integer sign digits)) := by
  obtain ⟨points, hpoints, hsplit⟩ : ∃ points : List Char, (∀ c ∈ points, c = '.')
      ∧ leading cs = sign ++ (digits ++ points) := by
    refine ⟨(leading cs).rtakeWhile (· = '.'), ?_, ?_⟩
    · intro c hc
      have hpoint := List.mem_rtakeWhile_imp hc
      exact of_decide_eq_true hpoint
    · rw [← List.append_assoc, ← hlead, List.rdropWhile_append_rtakeWhile]
  have hbody : ∀ c ∈ digits ++ points, c.isDigit ∨ c = '.' := by
    intro c hc
    exact (List.mem_append.mp hc).imp (hdigits c) (hpoints c)
  -- what the reader takes splits in one way only
  have hfound := splitSign_append (signOf_mem cs) (isBody_numeral false (splitSign cs).2).digits
  rw [← leading, hsplit, splitSign_append hsign hbody] at hfound
  obtain ⟨hnegative, hnumeral⟩ := Prod.mk.inj hfound
  have hlength : points.length ≤ 1 := by
    have hcount := (isBody_numeral false (splitSign cs).2).points
    rw [← hnumeral, List.count_append] at hcount
    have hall : points.count '.' = points.length :=
      List.count_eq_length.mpr fun c hc => (hpoints c hc).symm
    simp only [Bool.false_eq_true, if_false] at hcount
    omega
  have hany : (digits ++ points).any Char.isDigit := by
    obtain ⟨c, rest, rfl⟩ := List.exists_cons_of_ne_nil hne
    simp [hdigits c List.mem_cons_self]
  rw [leadingNumber?_eq, ← hnumeral, if_pos hany, (splitSign_eq cs).2, ← hnegative]
  exact numberOf?_eq_integer hdigits hpoints hlength hfits

/-! ## There and back -/

lemma not_isBlank_of_isDigit {c : Char} (h : c.isDigit) : Text.isBlank c = false := by
  obtain ⟨hlow, hhigh⟩ := Char.isDigit_iff_toNat.mp h
  have hlow : 48 ≤ c.toNat := hlow
  have hhigh : c.toNat ≤ 57 := hhigh
  simp only [Text.isBlank, Bool.or_eq_false_iff, Bool.and_eq_false_iff, decide_eq_false_iff_not,
    beq_eq_false_iff_ne]
  omega

lemma trim_eq_self (h : ∀ c ∈ cs, Text.isBlank c = false) : Text.trim cs = cs := by
  have hkeeps {t : List Char} (ht : ∀ c ∈ t, Text.isBlank c = false) :
      t.dropWhile Text.isBlank = t := by
    cases t with
    | nil => rfl
    | cons c rest => rw [List.dropWhile_cons_of_neg (by simp [ht c List.mem_cons_self])]
  rw [Text.trim, hkeeps h, hkeeps (by simpa using h), List.reverse_reverse]

lemma not_isBlank_of_mem_sign (hsign : sign ∈ signs) {c : Char} (hc : c ∈ sign) :
    Text.isBlank c = false := by
  simp only [signs, List.mem_cons, List.not_mem_nil, or_false] at hsign
  rcases hsign with rfl | rfl | rfl
  · cases hc
  · rw [List.mem_singleton.mp hc]
    rfl
  · rw [List.mem_singleton.mp hc]
    rfl

/-- A text that is an integer as a whole is read as a whole. -/
lemma number?_of_toList {s : String} (hs : s.toList = sign ++ digits) (hsign : sign ∈ signs)
    (hne : digits ≠ []) (hdigits : ∀ c ∈ digits, c.isDigit) (hfits : Fits (integer sign digits)) :
    (EnumCode.text s).number? = some (.int (integer sign digits)) := by
  have hblank : ∀ c ∈ sign ++ digits, Text.isBlank c = false := by
    intro c hc
    exact (List.mem_append.mp hc).elim (not_isBlank_of_mem_sign hsign)
      fun hc => not_isBlank_of_isDigit (hdigits c hc)
  have hself : Leads (sign ++ digits) (sign ++ digits) :=
    ⟨List.prefix_rfl, ⟨sign, hsign, digits, rfl, isBody_of_digits hdigits⟩,
      fun q hq _ => hq.length_le⟩
  -- it ends with a digit, not with a point
  have hlast : (leading (sign ++ digits)).rdropWhile (· = '.') = sign ++ digits := by
    rw [← hself.eq, List.rdropWhile_eq_self_iff]
    intro hl hpoint
    have hdigit := hdigits _ (List.getLast_mem hne)
    rw [List.getLast_append_of_ne_nil hl hne] at hpoint
    rw [of_decide_eq_true hpoint] at hdigit
    exact absurd hdigit (by decide)
  rw [number?, hs, trim_eq_self hblank]
  exact leadingNumber?_eq_integer hsign hne hdigits hlast hfits

/-- **The text of an integer is read back.** -/
lemma number?_toText {n : ℤ} (h : Fits n) :
    (EnumCode.text (EnumCode.number (.int n)).toText).number? = some (.int n) := by
  have hdigits : ∀ c ∈ Nat.toDigits 10 n.natAbs, c.isDigit := fun _ => Number.isDigit_toDigits
  have hnil : Nat.toDigits 10 n.natAbs ≠ [] := Nat.toDigits_ne_nil
  have hnat : Nat.ofDigitChars 10 (Nat.toDigits 10 n.natAbs) 0 = n.natAbs :=
    Nat.ofDigitChars_ten_toDigits
  by_cases hnegative : n < 0
  · have htext : (EnumCode.number (.int n)).toText.toList = ['-'] ++ Nat.toDigits 10 n.natAbs := by
      simp [toText, Number.render, hnegative]
    have hinteger : integer ['-'] (Nat.toDigits 10 n.natAbs) = n := by
      rw [integer, if_pos rfl, hnat]
      omega
    rw [number?_of_toList htext (by decide) hnil hdigits (hinteger.symm ▸ h), hinteger]
  · have htext : (EnumCode.number (.int n)).toText.toList = [] ++ Nat.toDigits 10 n.natAbs := by
      simp [toText, Number.render, hnegative]
    have hinteger : integer [] (Nat.toDigits 10 n.natAbs) = n := by
      rw [integer, if_neg (by decide), hnat]
      omega
    rw [number?_of_toList htext (by decide) hnil hdigits (hinteger.symm ▸ h), hinteger]

/-! ## Compiling -/

/-- A code that has been compiled to a number, or could not be, is compiled to itself. -/
lemma enumCode_enumCode (code : EnumCode) :
    Compile.enumCode .number (Compile.enumCode .number code) = Compile.enumCode .number code := by
  cases hnumber : code.number? with
  | none =>
      have hsame : Compile.enumCode .number code = code := by simp [Compile.enumCode, hnumber]
      rw [hsame, hsame]
  | some n =>
      have hcompiled : Compile.enumCode .number code = .number n := by
        simp [Compile.enumCode, hnumber]
      rw [hcompiled]
      rfl

lemma enumCode_toText {n : ℤ} (h : Fits n) :
    Compile.enumCode .number (.text (EnumCode.number (.int n)).toText) = .number (.int n) := by
  rw [Compile.enumCode, number?_toText h]
  rfl

/-- The codes of a compiled enumeration. -/
def compiledCodes (node : Node) (e : Enumeration) : List EnumCode :=
  (Compile.enumeration node e).members.map (·.code)

lemma compiledCodes_eq (node : Node) (e : Enumeration) :
    compiledCodes node e = (e.members.map (·.code)).map (Compile.enumCode e.base) := by
  rw [compiledCodes, Compile.enumeration, List.map_map, List.map_map]
  rfl

/-! ## The whole -/

/-- **Integers are read exactly.**  A text starts with one longest numeral.  If that has no digit,
there is no number; if it is an integer that fits, apart from a point at its end, that is the
number, whatever follows it.  So the text of an integer is read back, and an enumeration of numbers
can be compiled again: no code is changed, and no integer that fits even if the codes are handed on
as texts. -/
theorem integers_read_exactly :
    (∀ s : String, ∃! p, Leads p (Text.trim s.toList))
      ∧ (∀ (s : String) (p : List Char), Leads p (Text.trim s.toList) → (∀ c ∈ p, ¬ c.isDigit) →
          (EnumCode.text s).number? = none)
      ∧ (∀ (s : String) (p sign digits : List Char), Leads p (Text.trim s.toList) →
          p.rdropWhile (· = '.') = sign ++ digits → sign ∈ signs → digits ≠ [] →
          (∀ c ∈ digits, c.isDigit) → Fits (integer sign digits) →
          (EnumCode.text s).number? = some (.int (integer sign digits)))
      ∧ (∀ n, Fits n → (EnumCode.text (EnumCode.number (.int n)).toText).number? = some (.int n))
      ∧ (∀ (node node' : Node) (e again : Enumeration), e.base = .number → again.base = .number →
          again.members.map (·.code) = compiledCodes node e →
          compiledCodes node' again = compiledCodes node e)
      ∧ ∀ (node node' : Node) (e again : Enumeration), e.base = .number → again.base = .number →
          again.members.map (·.code) = (compiledCodes node e).map (fun code => .text code.toText) →
          ∀ (i : ℕ) (n : ℤ), Fits n → (compiledCodes node e)[i]? = some (.number (.int n)) →
            (compiledCodes node' again)[i]? = some (.number (.int n)) := by
  refine ⟨fun s => ?_, fun s p hp hnone => ?_,
    fun s p sign digits hp hlead hsign hne hdigits hfits => ?_, fun n hn => number?_toText hn,
    fun node node' e again he hagain hcodes => ?_,
    fun node node' e again he hagain hcodes i n hn hi => ?_⟩
  · exact ⟨_, leads_leading _, fun p hp => hp.eq⟩
  · rw [hp.eq] at hnone
    exact leadingNumber?_eq_none hnone
  · rw [hp.eq] at hlead
    exact leadingNumber?_eq_integer hsign hne hdigits hlead hfits
  · rw [compiledCodes_eq, hcodes, hagain, compiledCodes_eq, he, List.map_map]
    exact List.map_congr_left fun code _ => enumCode_enumCode code
  · rw [compiledCodes_eq, hcodes, hagain, List.getElem?_map, List.getElem?_map, hi, Option.map_some,
      Option.map_some, enumCode_toText hn]

/-- The least integer that fits, between blanks, with zeros before it and more behind its point. -/
theorem integers_read_exactly_least :
    (EnumCode.text "\u3000-009223372036854775808.\u00e9.5\t").number? = some (.int (-2 ^ 63)) := by
  have hleads := leads_leading (Text.trim "\u3000-009223372036854775808.\u00e9.5\t".toList)
  have hdigits : "009223372036854775808".toList.all Char.isDigit := by decide
  have hvalue : integer ['-'] "009223372036854775808".toList = -2 ^ 63 := by decide
  have hfits : Fits (integer ['-'] "009223372036854775808".toList) := by
    rw [hvalue]
    exact ⟨by decide, by decide⟩
  have hread := integers_read_exactly.2.2.1 _ _ ['-'] _ hleads (by decide +kernel) (by decide)
    (by decide) (List.all_eq_true.mp hdigits) hfits
  rw [hread, hvalue]

end DomainDesign.Model.EnumCode
