import NoteAssistant.Number.Double

/-! # Suggestions for misspelt names

Names are compared by the Jaro similarity, raised for a common beginning.
-/

namespace NoteAssistant.Suggestion

/-- Marks the first free place that holds `c` and lies from `low` on; places are
    counted from `i`. -/
def claim? (c : Char) (low : Nat) : Nat → List (Char × Bool) → Option (List (Char × Bool))
  | _, [] => none
  | i, (d, taken) :: rest =>
    if low ≤ i && c = d && !taken then some ((d, true) :: rest)
    else (claim? c low (i + 1) rest).map ((d, taken) :: ·)

/-- The characters of `a` that find a partner in `b` within `reach` places of
    their own, and `b` with the partners marked. -/
def pairUp (reach : Nat) : Nat → List Char → List (Char × Bool) → List Char × List (Char × Bool)
  | _, [], b => ([], b)
  | i, c :: a, b =>
    let near := b.take (i + reach + 1)
    match claim? c (i - reach) 0 near with
    | some near =>
      let (found, b) := pairUp reach (i + 1) a (near ++ b.drop (i + reach + 1))
      (c :: found, b)
    | none => pairUp reach (i + 1) a b

/-- Jaro similarity: the mean share of paired characters in both texts and of
    pairs that are in order. -/
def jaro (a b : List Char) : Double :=
  if a = [] ∧ b = [] then Double.ofNat 1
  else if a = [] ∨ b = [] then Double.ofNat 0
  else
    let reach := max a.length b.length / 2 - 1
    let (found, marked) := pairUp reach 0 a (b.map (·, false))
    let partners := (marked.filter (·.2)).map (·.1)
    let m := found.length
    let swaps := ((found.zip partners).filter fun (x, y) => x ≠ y).length / 2
    if m = 0 then Double.ofNat 0
    else
      let share (n d : Nat) : Double := Double.ofNat n / Double.ofNat d
      (share m a.length + share m b.length + share (m - swaps) m) / Double.ofNat 3

/-- The length of the common beginning. -/
def common : List Char → List Char → Nat
  | x :: a, y :: b => if x = y then common a b + 1 else 0
  | _, _ => 0

/-- Jaro similarity above 0.7 is raised by a tenth of what it lacks for each of
    up to four characters of a common beginning. -/
def similarity (a b : List Char) : Double :=
  let s := jaro a b
  if (Double.ofDecimal 7 (-1)).lt s then
    s + Double.ofDecimal 1 (-1) * Double.ofNat (common (a.take 4) (b.take 4))
      * (Double.ofNat 1 - s)
  else s

/-- The candidate most similar to a name, the last one of equals; none if it is
    not more similar than 0.75. -/
def suggest? (name : String) (candidates : List String) : Option String :=
  let scored := candidates.map fun c => (similarity name.toList c.toList, c)
  let close := scored.filter fun (s, _) => (Double.ofDecimal 75 (-2)).lt s
  let better (best : Option (Double × String)) (x : Double × String) :=
    match best with
    | none => some x
    | some b => if b.1.le x.1 then some x else best
  (close.foldl better none).map (·.2)

end NoteAssistant.Suggestion
