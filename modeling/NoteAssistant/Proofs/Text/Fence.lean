import NoteAssistant.Proofs.Text.NameKey
import NoteAssistant.Proofs.Text.Search
import NoteAssistant.Text.Fence

/-! # Texts in a code fence

A fence around a text is taken off again, whatever is inside (`unfenced_of_fenced`): the text comes
out as if it had only been trimmed.
-/

namespace NoteAssistant.Text

/-- Nothing but white space. -/
def Blank (s : List Char) : Prop := ∀ c ∈ s, isBlank c = true

instance (s : List Char) : Decidable (Blank s) :=
  List.decidableBAll (fun c => isBlank c = true) s

/-- A text in a code fence, which may carry some words on its first line and have white space
    around it. -/
inductive Fenced (body : List Char) : List Char → Prop where
  | fence {front info back : List Char} (before : Blank front) (oneLine : '\n' ∉ info)
      (after : Blank back) :
      Fenced body (front ++ (backquotes ++ info ++ '\n' :: body ++ '\n' :: backquotes) ++ back)

section Trimming

variable {s front back : List Char}

theorem trim_blank_append (before : Blank front) (s : List Char) : trim (front ++ s) = trim s := by
  rw [trim, trimStart, List.dropWhile_append_of_pos before, ← trimStart, ← trim]

theorem trimEnd_append_blank (s : List Char) (after : Blank back) :
    trimEnd (s ++ back) = trimEnd s := by
  have turned : ∀ c ∈ back.reverse, isBlank c = true := fun c mem => after c (by simpa using mem)
  rw [trimEnd, List.reverse_append, List.dropWhile_append_of_pos turned, ← trimEnd]

theorem trim_append_blank (s : List Char) (after : Blank back) : trim (s ++ back) = trim s := by
  rw [trim, trim, trimStart, List.dropWhile_append]
  split
  case isTrue empty =>
    have none : trimStart s = [] := by simpa [trimStart] using empty
    rw [none, List.dropWhile_eq_nil_iff.mpr after]
  case isFalse => exact trimEnd_append_blank _ after

/-- A text with something visible at both ends is trimmed already. -/
theorem trim_of_visible {a b : Char} (first : isBlank a = false) (last : isBlank b = false)
    (mid : List Char) : trim (a :: (mid ++ [b])) = a :: (mid ++ [b]) := by
  have started : trimStart (a :: (mid ++ [b])) = a :: (mid ++ [b]) :=
    List.dropWhile_cons_of_neg (by simp [first])
  rw [trim, started, trimEnd, ← List.cons_append, List.reverse_append, List.reverse_singleton,
    List.singleton_append, List.dropWhile_cons_of_neg (by simp [last])]
  simp

end Trimming

theorem cut?_newline {line : List Char} (oneLine : '\n' ∉ line) (rest : List Char) :
    cut? ['\n'] (line ++ '\n' :: rest) = some (line, rest) := by
  induction line with
  | nil => simp [cut?, after?]
  | cons c line ih =>
      obtain ⟨other, oneLine⟩ : '\n' ≠ c ∧ '\n' ∉ line := by simpa using oneLine
      rw [List.cons_append, cut?, after?, if_neg other, ih oneLine]
      rfl

theorem dropSuffix_append (mark s : List Char) : dropSuffix mark (s ++ mark) = s := by
  rw [dropSuffix, List.reverse_append, after?_append]
  simp

theorem dropSuffix_initial (mark s : List Char) : dropSuffix mark s <+: s := by
  unfold dropSuffix
  cases ending : after? mark.reverse s.reverse with
  | none => exact List.prefix_rfl
  | some r =>
      have whole := congrArg List.reverse (eq_append_of_after? ending)
      rw [List.reverse_reverse, List.reverse_append, List.reverse_reverse] at whole
      exact ⟨mark, whole.symm⟩

/-- Nothing but the fence and white space is taken off. -/
theorem unfenced_inside (s : List Char) : unfenced s <:+: trim s := by
  unfold unfenced
  dsimp only
  split
  case h_1 => exact List.infix_rfl
  case h_2 rest opened =>
    have suffix : rest <:+ trim s := ⟨backquotes, (eq_append_of_after? opened).symm⟩
    have trimmed (body : List Char) := trim_infix (dropSuffix backquotes body)
    refine (trimmed _).trans ((dropSuffix_initial _ _).isInfix.trans (.trans ?_ suffix.isInfix))
    split
    case h_1 info body line => exact ⟨info ++ ['\n'], [], by simp [eq_append_of_cut? line]⟩
    case h_2 => exact List.infix_rfl

theorem unfenced_of_fenced {body s : List Char} (fenced : Fenced body s) :
    unfenced s = trim body := by
  cases fenced with
  | @fence front info back before oneLine after =>
      have trimmed :
          trim (front ++ (backquotes ++ info ++ '\n' :: body ++ '\n' :: backquotes) ++ back) =
            backquotes ++ (info ++ '\n' :: (body ++ ['\n'] ++ backquotes)) := by
        have visible := @trim_of_visible '\x60' '\x60' rfl rfl
          (['\x60', '\x60'] ++ info ++ '\n' :: body ++ ['\n', '\x60', '\x60'])
        rw [trim_append_blank _ after, trim_blank_append before]
        simpa [backquotes] using visible
      have lineEnd : Blank ['\n'] := fun c mem => by rw [List.mem_singleton.mp mem]; rfl
      have inner := trim_append_blank body lineEnd
      simp only [unfenced, trimmed, after?_append, cut?_newline oneLine, dropSuffix_append, inner]

/-- A text without fence is trimmed. -/
theorem unfenced_of_bare {s : List Char} (bare : startsWith backquotes (trim s) = false) :
    unfenced s = trim s := by
  have none : after? backquotes (trim s) = none := by simpa [startsWith] using bare
  simp only [unfenced, none]

/-- A fence around a text makes no difference, unless the text has one already. -/
theorem unfenced_fenced {body s : List Char} (fenced : Fenced body s)
    (bare : startsWith backquotes (trim body) = false) : unfenced s = unfenced body := by
  rw [unfenced_of_fenced fenced, unfenced_of_bare bare]

end NoteAssistant.Text
