import NoteAssistant.Text.Search
import NoteAssistant.Text.Utf8

/-! # Event streams

A body of server-sent events: lines `field: value`, of which an empty line ends
an event. Only the `data` fields matter; several in one event are joined with
line feeds. What is unfinished at the end of the body is dropped.
-/

namespace NoteAssistant.Wire.EventStream

/-- One item of a body: the data of an event, or bytes that are not text. -/
inductive Item where
  | data (text : String)
  | broken
  deriving DecidableEq, Repr

/-- The first line and the text after its end. A line ends in a line feed, or in
    a carriage return with or without a line feed behind it; a carriage return
    at the very end of the body may still be followed by one, and ends nothing. -/
def line? : List Char → Option (List Char × List Char)
  | [] => none
  | '\n' :: s => some ([], s)
  | '\r' :: '\n' :: s => some ([], s)
  | ['\r'] => none
  | '\r' :: s => some ([], s)
  | c :: s => (line? s).map fun (line, rest) => (c :: line, rest)

theorem length_of_line? {s line rest : List Char} (h : line? s = some (line, rest)) :
    rest.length < s.length := by
  fun_induction line? s generalizing line rest with
  | case1 => simp at h
  | case2 => simp at h; simp [h.2]
  | case3 => simp at h; simp only [← h.2, List.length_cons]; omega
  | case4 => simp at h
  | case5 => simp at h; simp [h.2]
  | case6 c s _ _ _ _ ih =>
    simp only [Option.map_eq_some_iff] at h
    obtain ⟨⟨l, r⟩, hl, heq⟩ := h
    simp only [Prod.mk.injEq] at heq
    obtain ⟨-, rfl⟩ := heq
    have := ih hl
    simp only [List.length_cons]
    omega

/-- The finished lines of a body. -/
def lines (s : List Char) : List (List Char) :=
  match _h : line? s with
  | some (line, rest) => line :: lines rest
  | none => []
termination_by s.length
decreasing_by exact length_of_line? _h

/-- The value of a `data` field; one space after the colon is not part of it. -/
def dataOf? (line : List Char) : Option (List Char) :=
  match Text.after? "data".toList line with
  | some [] => some []
  | some (':' :: ' ' :: value) => some value
  | some (':' :: value) => some value
  | _ => none

/-- Data values joined with line feeds. -/
def joined : List (List Char) → List Char
  | [] => []
  | [d] => d
  | d :: ds => d ++ '\n' :: joined ds

/-- The data of the events that the lines make up; `begun` holds the data values
    of the event begun, the last one first. An event without data is none. -/
def events (begun : List (List Char)) : List (List Char) → List String
  | [] => []
  | [] :: rest =>
    if begun = [] then events [] rest
    else String.ofList (joined begun.reverse) :: events [] rest
  | line :: rest =>
    match dataOf? line with
    | some d => events (d :: begun) rest
    | none => events begun rest

/-- The items of a body that arrives in pieces. Bytes that are no text, and a
    character left unfinished, break the stream off. -/
def items (pieces : List (List UInt8)) : List Item :=
  let (chars, state) := Text.Utf8.scan .ready pieces.flatten
  let text := (chars.takeWhile Option.isSome).filterMap id
  let whole : Bool := chars.all Option.isSome && state = .ready
  (events [] (lines text)).map .data ++ if whole then [] else [.broken]

end NoteAssistant.Wire.EventStream
