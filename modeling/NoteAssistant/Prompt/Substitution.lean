import NoteAssistant.Text.Search

/-! # Filling in tokens

One pass over a template from the left. A token is looked for only where a
dollar sign and a brace stand; what is filled in is not looked at again.
-/

namespace NoteAssistant.Substitution

/-- Tokens with the values to put in their place. -/
abbrev Bindings := List (List Char × List Char)

/-- The value of the first listed token with which the text begins, and the text
    after that token. -/
def match? : Bindings → List Char → Option (List Char × List Char)
  | [], _ => none
  | (token, value) :: rest, s =>
    match token, Text.after? token s with
    | _ :: _, some r => some (value, r)
    | _, _ => match? rest s

theorem length_of_match? {vars : Bindings} {s value r : List Char}
    (h : match? vars s = some (value, r)) : r.length < s.length := by
  induction vars with
  | nil => simp [match?] at h
  | cons var vars ih =>
    obtain ⟨token, v⟩ := var
    unfold match? at h
    split at h
    · rename_i c t _ hr
      simp only [Option.some.injEq, Prod.mk.injEq] at h
      obtain ⟨rfl, rfl⟩ := h
      have := Text.eq_append_of_after? hr
      simp only [this, List.cons_append, List.length_cons, List.length_append]
      omega
    · exact ih h

/-- A template with the values in place of its tokens. -/
def fill (vars : Bindings) (s : List Char) : List Char :=
  match s with
  | '$' :: '{' :: t =>
    match _h : match? vars ('$' :: '{' :: t) with
    | some (value, r) => value ++ fill vars r
    | none => '$' :: '{' :: fill vars t
  | c :: t => c :: fill vars t
  | [] => []
termination_by s.length
decreasing_by
  · exact length_of_match? _h
  · simp only [List.length_cons]; omega
  · simp

end NoteAssistant.Substitution

namespace NoteAssistant

/-- A template with the values in place of its tokens. -/
def substitute (template : String) (vars : List (String × String)) : String :=
  String.ofList <|
    Substitution.fill (vars.map fun (t, v) => (t.toList, v.toList)) template.toList

end NoteAssistant
