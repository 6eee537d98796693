import NoteAssistant.Proofs.Mask.Scanning

/-! # A text that passes a scanner

`MaskRules.pass` is what becomes of a text that follows what a scanner holds back and that
nothing follows, with any lookahead and span. Where the text is cut into pieces does not
matter (`pass_append`), and with room for a placeholder it is the resolved text
(`pass_idle`).
-/

namespace NoteAssistant.MaskRules

def pass (r : MaskRules) (s : MaskState) (text : List Char) : List Char :=
  (r.push s text).2 ++ (r.push s text).1.held

variable (r : MaskRules) (s : MaskState)

theorem scan_append (a b : List Char) :
    r.scan s (a ++ b) =
      ((r.scan (r.scan s a).1 b).1, (r.scan s a).2 ++ (r.scan (r.scan s a).1 b).2) := by
  induction a generalizing s with
  | nil => rfl
  | cons c a ih => simp only [List.cons_append, scan, ih, List.append_assoc]

theorem push_append (a b : List Char) :
    r.push s (a ++ b) =
      ((r.push (r.push s a).1 b).1, (r.push s a).2 ++ (r.push (r.push s a).1 b).2) := by
  unfold push
  split
  case isTrue => rfl
  case isFalse => exact r.scan_append s a b

theorem pass_append (a b : List Char) :
    r.pass s (a ++ b) = (r.push s a).2 ++ r.pass (r.push s a).1 b := by
  simp only [pass, push_append, List.append_assoc]

@[simp] theorem pass_nil : r.pass s [] = s.held := by
  unfold pass push
  split <;> rfl

theorem pass_idle {r : MaskRules} (roomy : r.Roomy) (text : List Char) :
    r.pass .idle text = r.resolve text := by
  have whole := push_resolves roomy (s := .idle) trivial text []
  have rest := congrArg List.flatten (units_held roomy (push_holds (s := .idle) trivial text))
  rw [flatten_units, flatten_letters] at rest
  rw [List.append_nil, List.append_nil, rest] at whole
  exact whole

end NoteAssistant.MaskRules
