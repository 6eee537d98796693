/-! # First occurrences -/

namespace NoteAssistant

/-- The items of a list without those whose key has occurred before. -/
def distinctBy {α : Type} (key : α → String) : List α → List α
  | [] => []
  | a :: as => a :: (distinctBy key as).filter fun b => key b ≠ key a

end NoteAssistant
