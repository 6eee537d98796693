import NoteAssistant.Proofs.Mask.Scanning
import NoteAssistant.Reply.Processor

/-! # The text of a reply

What a receiver is to read, told from the tokens alone: at most one block of reasoning,
and after it the answer with the values of its placeholders.
-/

namespace NoteAssistant

/-- What counts for the text of a reply. -/
inductive Piece where
  | reasoning (text : List Char)
  | content (text : List Char)
  /-- A boundary, at which all text so far is delivered. -/
  | cut
  deriving DecidableEq, Repr

namespace Piece

def isReasoning : Piece → Bool
  | reasoning _ => true
  | _ => false

def isContent : Piece → Bool
  | content _ => true
  | _ => false

def isCut : Piece → Bool
  | cut => true
  | _ => false

def thought : Piece → List Char
  | reasoning text => text
  | _ => []

def said : Piece → List Char
  | content text => text
  | _ => []

/-- The pieces of what tokens say. A finish is a boundary, and after one so is usage. -/
def ofParts (finished : Bool) : List Token.Part → List Piece
  | [] => []
  | .reasoning text :: parts => reasoning text.toList :: ofParts finished parts
  | .content text :: parts => content text.toList :: ofParts finished parts
  | .finish _ :: parts => cut :: ofParts true parts
  | .usage _ _ :: parts =>
    if finished then cut :: ofParts finished parts else ofParts finished parts

/-- An empty text says nothing. -/
def ofText (piece : List Char → Piece) : Option String → List Piece
  | none => []
  | some text => if text = "" then [] else [piece text.toList]

/-- The pieces of tokens: of each one its reasoning, its content, and the boundaries of its finish
    and of its usage, if there has been a finish. -/
def ofTokens (finished : Bool) : List Token → List Piece
  | [] => []
  | t :: ts =>
    let finished := finished || t.finishReason.isSome
    ofText reasoning t.reasoning ++ ofText content t.content
      ++ (if t.finishReason.isSome then [cut] else [])
      ++ (if finished && t.usage.isSome then [cut] else [])
      ++ ofTokens finished ts

end Piece

namespace Reference

open Piece Writer

/-- Reasoning as it is shown, in one line. -/
def inLine (text : List Char) : List Char :=
  text.flatMap fun c => if c = '\n' then lineBreak else [c]

/-- The reasoning that goes on up to the answer or a boundary. -/
def thoughts (ps : List Piece) : List Piece :=
  (ps.takeWhile fun p => !p.isContent).takeWhile fun p => !p.isCut

/-- The reasoning of the block: from the first piece before the answer on, up to a
    boundary. -/
def blockThoughts (ps : List Piece) : List Piece :=
  ((ps.takeWhile fun p => !p.isContent).dropWhile fun p => !p.isReasoning).takeWhile
    fun p => !p.isCut

/-- The block of reasoning; none if nothing was thought before the answer. -/
def block (ps : List Piece) : List Char :=
  match blockThoughts ps with
  | [] => []
  | inside => thinkOpen ++ inLine (inside.flatMap thought) ++ thinkClose

/-- The answer between boundaries. -/
def segments (ps : List Piece) : List (List Char) :=
  (ps.splitOnP isCut).map fun segment => segment.flatMap said

/-- The answer with the values of placeholders; no placeholder reaches across a
    boundary. -/
def answer (r : MaskRules) (ps : List Piece) : List Char := (segments ps).flatMap r.resolve

/-- The block and the answer, with every value of a placeholder in one. -/
def units (r : MaskRules) (ps : List Piece) : List (List Char) :=
  letters (block ps) ++ (segments ps).flatMap r.units

/-- The text of a reply made from tokens. -/
def text (r : MaskRules) (tokens : List Token) : List Char :=
  let ps := ofTokens false tokens
  block ps ++ answer r ps

end Reference

end NoteAssistant
