import NoteAssistant.Mask.Map

/-! # Finding placeholders in a stream

Text arrives in pieces of any length. What may become a placeholder is held back
until it has become one or cannot become one any more.
-/

namespace NoteAssistant

/-- What is held back. -/
inductive MaskState where
  | idle
  /-- A proper part of the beginning of a placeholder. -/
  | suspect (held : List Char)
  /-- The beginning of a placeholder and what followed it. -/
  | confirmed (held : List Char)
  deriving DecidableEq, Repr

namespace MaskState

def held : MaskState → List Char
  | idle => []
  | suspect held => held
  | confirmed held => held

def isIdle : MaskState → Bool
  | idle => true
  | _ => false

def name : MaskState → String
  | idle => "idle"
  | suspect _ => "suspect"
  | confirmed _ => "confirmed"

end MaskState

/-- The placeholders to look for, and how long text may be held back for them. -/
structure MaskRules where
  masks : MaskMap
  /-- Characters after which a beginning that is not complete is given up. -/
  lookahead : Nat
  /-- The greatest length of a placeholder. -/
  maxSpan : Nat
  deriving DecidableEq, Repr

namespace MaskRules

/-- A character that follows nothing held back. -/
def start (c : Char) : MaskState × List Char :=
  if c = '$' then (.suspect [c], []) else (.idle, [c])

/-- Takes one character: what is held back then, and the text it releases. Text
    given up is released and looked at again without its first character; the sign
    that opens a placeholder does not stand again within its beginning, so only the
    last character can open a new one. -/
def step (r : MaskRules) (s : MaskState) (c : Char) : MaskState × List Char :=
  match s with
  | .idle => start c
  | .suspect held =>
    let longer := held ++ [c]
    if longer = maskPrefix then (.confirmed longer, [])
    else if longer.isPrefixOf maskPrefix && longer.length < r.lookahead then (.suspect longer, [])
    else
      let (s, released) := start c
      (s, held ++ released)
  | .confirmed held =>
    let longer := held ++ [c]
    if c = ']' then
      let text := String.ofList longer
      (.idle, ((r.masks.get? text).getD text).toList)
    else if r.maxSpan < longer.length then (.idle, longer)
    else (.confirmed longer, [])

def scan (r : MaskRules) (s : MaskState) : List Char → MaskState × List Char
  | [] => (s, [])
  | c :: cs =>
    let (s', released) := r.step s c
    let (s'', rest) := r.scan s' cs
    (s'', released ++ rest)

/-- Takes a piece of text. Without placeholders there is nothing to look for. -/
def push (r : MaskRules) (s : MaskState) (text : List Char) : MaskState × List Char :=
  if r.masks.isEmpty then (s, text) else r.scan s text

end MaskRules

end NoteAssistant
