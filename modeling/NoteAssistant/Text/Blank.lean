/-! # White space

The characters with the Unicode property White_Space (25 code points), and the
trimming and case rules that names, keys and replies go through.
-/

namespace NoteAssistant.Text

/-- Closed ranges of the white-space code points, ascending and apart. -/
def blankRanges : List (Nat × Nat) :=
  [(0x09, 0x0D), (0x20, 0x20), (0x85, 0x85), (0xA0, 0xA0), (0x1680, 0x1680),
   (0x2000, 0x200A), (0x2028, 0x2029), (0x202F, 0x202F), (0x205F, 0x205F),
   (0x3000, 0x3000)]

def inRanges (ranges : List (Nat × Nat)) (n : Nat) : Bool :=
  ranges.any fun (lo, hi) => lo ≤ n && n ≤ hi

/-- A character with the property White_Space. -/
def isBlank (c : Char) : Bool := inRanges blankRanges c.toNat

/-- The text from its first non-blank character on. -/
def trimStart (s : List Char) : List Char := s.dropWhile isBlank

/-- The text up to its last non-blank character. -/
def trimEnd (s : List Char) : List Char := (s.reverse.dropWhile isBlank).reverse

/-- The text between its first and its last non-blank character. -/
def trim (s : List Char) : List Char := trimEnd (trimStart s)

/-- A character of the six that plain-text formats skip: tab, line feed, form
    feed, carriage return and space, without the vertical tab. -/
def isAsciiBlank (c : Char) : Bool :=
  c = ' ' || c = '\t' || c = '\n' || c = '\r' || c = '\x0c'

/-- ASCII letters in lower case; every other character as it is. -/
def lowerAscii (s : List Char) : List Char := s.map Char.toLower

end NoteAssistant.Text

namespace NoteAssistant

/-- The text without the white space at both ends. -/
def trimmed (s : String) : String := String.ofList (Text.trim s.toList)

/-- The text without the white space at its end. -/
def trimmedEnd (s : String) : String := String.ofList (Text.trimEnd s.toList)

/-- The text with its ASCII letters in lower case. -/
def lowered (s : String) : String := String.ofList (Text.lowerAscii s.toList)

/-- The form in which names and keys are compared. -/
def nameKey (s : String) : String := lowered (trimmed s)

/-- A text with nothing but white space in it. -/
def isBlankText (s : String) : Bool := s.toList.all Text.isBlank

end NoteAssistant
