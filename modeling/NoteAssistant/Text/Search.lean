/-! # Searching text

Occurrences, replacement and lines of a text given as a list of characters.
-/

namespace NoteAssistant.Text

/-- The rest of a text after a given beginning. -/
def after? : List Char → List Char → Option (List Char)
  | [], s => some s
  | _ :: _, [] => none
  | p :: ps, c :: s => if p = c then after? ps s else none

theorem eq_append_of_after? {p s r : List Char} (h : after? p s = some r) : s = p ++ r := by
  fun_induction after? p s with
  | case1 s => simpa using h
  | case2 => simp at h
  | case3 p ps s ih => simp [ih h]
  | case4 => simp at h

theorem after?_append (p r : List Char) : after? p (p ++ r) = some r := by
  induction p with
  | nil => simp [after?]
  | cons c p ih => simp [after?, ih]

def startsWith (p s : List Char) : Bool := (after? p s).isSome

/-- The text without every occurrence of `old`, `new` in its place; occurrences
    are found from the left and do not overlap. -/
def replaceAll (old new : List Char) (s : List Char) : List Char :=
  match old with
  | [] => s
  | o :: os => go o os s
where
  go (o : Char) (os : List Char) (s : List Char) : List Char :=
    match s with
    | [] => []
    | c :: t =>
      match _h : after? (o :: os) (c :: t) with
      | some r => new ++ go o os r
      | none => c :: go o os t
  termination_by s.length
  decreasing_by
    · have := eq_append_of_after? _h
      simp_all only [List.length_cons, List.cons_append, List.cons.injEq, List.length_append]
      omega
    · simp

/-- The text before the first occurrence of `mark`, and the text after it. -/
def cut? (mark : List Char) : List Char → Option (List Char × List Char)
  | [] => if mark = [] then some ([], []) else none
  | c :: s =>
    match after? mark (c :: s) with
    | some r => some ([], r)
    | none => (cut? mark s).map fun (b, r) => (c :: b, r)

def contains (mark s : List Char) : Bool := (cut? mark s).isSome

/-- The pieces of a text between the occurrences of one character. -/
def splitOn (sep : Char) : List Char → List (List Char)
  | [] => [[]]
  | c :: s =>
    if c = sep then [] :: splitOn sep s
    else match splitOn sep s with
      | [] => [[c]]
      | piece :: pieces => (c :: piece) :: pieces

/-- The lines of a text, each with its line feed. -/
def lines : List Char → List (List Char)
  | [] => []
  | c :: s =>
    if c = '\n' then [c] :: lines s
    else match lines s with
      | [] => [[c]]
      | line :: rest => (c :: line) :: rest

theorem flatten_lines (s : List Char) : (lines s).flatten = s := by
  fun_induction lines s with
  | case1 => rfl
  | case2 s ih => simp [ih]
  | case3 c s _ h ih => simpa [h] using ih
  | case4 c s _ line rest h ih => simpa [h] using ih

end NoteAssistant.Text
