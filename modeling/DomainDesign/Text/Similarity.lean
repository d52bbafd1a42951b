/-!
# Likeness of two names

The Jaro-Winkler likeness of two texts, between `0` and `1`.  Characters match when they are equal
and not too far apart; the share of matched characters, lowered for matches that are out of order,
is the Jaro likeness, and a common beginning of up to four characters raises it when it is above
`0.7`.

The sums are taken in double precision in the order in which they are written here, since a score is
compared with a threshold and with other scores.
-/

namespace DomainDesign.Text

/-- Marks the first unmarked occurrence of `c` with an index from `low` up to but not including
`high`; the list begins at index `start`. -/
def occupy (c : Char) (low high : Nat) : (start : Nat) → List (Char × Bool) →
    Option (List (Char × Bool))
  | _, [] => none
  | start, (d, taken) :: rest =>
    if low ≤ start && start < high && d == c && !taken then some ((d, true) :: rest)
    else (occupy c low high (start + 1) rest).map ((d, taken) :: ·)

/-- Matches the characters from index `i` on, each with the first free equal one within `range`.
The result is the matched characters and the marked list. -/
def matchFrom (range : Nat) : (i : Nat) → List Char → List (Char × Bool) →
    List Char × List (Char × Bool)
  | _, [], marked => ([], marked)
  | i, c :: rest, marked =>
    match occupy c (i - range) (i + range + 1) 0 marked with
    | some marked' =>
      let (found, final) := matchFrom range (i + 1) rest marked'
      (c :: found, final)
    | none => matchFrom range (i + 1) rest marked

/-- The Jaro likeness. -/
def jaro (a b : List Char) : Float :=
  if a.isEmpty && b.isEmpty then 1
  else if a.isEmpty || b.isEmpty then 0
  else
    let range := max a.length b.length / 2 - 1
    let (left, marked) := matchFrom range 0 a (b.map (·, false))
    let right := (marked.filter (·.2)).map (·.1)
    let found := left.length
    let swapped := ((left.zip right).filter fun p => p.1 != p.2).length / 2
    if found = 0 then 0
    else
      let m := found.toFloat
      ((m / a.length.toFloat + m / b.length.toFloat) + (found - swapped).toFloat / m) / 3

/-- How many characters two texts begin with in common. -/
def commonStart : List Char → List Char → Nat
  | a :: as, b :: bs => if a = b then commonStart as bs + 1 else 0
  | _, _ => 0

/-- The Jaro-Winkler likeness. -/
def likeness (a b : String) : Float :=
  let base := jaro a.toList b.toList
  if base > 0.7 then
    let shared := (min (commonStart a.toList b.toList) 4).toFloat
    base + (0.1 * shared) * (1 - base)
  else base

end DomainDesign.Text
