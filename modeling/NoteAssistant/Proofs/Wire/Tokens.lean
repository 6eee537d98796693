import Mathlib.Data.List.Forall2
import NoteAssistant.Proofs.Text.NameKey
import NoteAssistant.Wire.Completion

/-! # From events to tokens

Each item of a streamed reply in front of the end mark brings one thing or nothing
(`Wire.Brings`), and what the items bring, in their order, is the whole stream
(`Wire.tokens_heard`). So the contents of the tokens are those of the chunks, and what comes
behind the end mark makes no difference.
-/

namespace NoteAssistant

namespace Wire

open EventStream (Item)

namespace Chunk

/-- The first choice of a chunk has a part, and it is not empty. -/
def Says (c : Chunk) (part : ReplyChoice → Option String) (text : String) : Prop :=
  text ≠ "" ∧ ∃ choice, c.choices.head? = some choice ∧ part choice = some text

/-- A chunk with nothing in it that would be told. -/
structure Silent (c : Chunk) : Prop where
  content : ∀ text, ¬ c.Says (·.content) text
  reasoning : ∀ text, ¬ c.Says (·.reasoning) text
  finish : ∀ text, ¬ c.Says (·.finishReason) text
  usage : c.usage = none
  error : c.error = none

/-- The token tells what the chunk holds: what its first choice says, its usage together with its
    model, and its error. -/
structure Tells (c : Chunk) (t : Token) : Prop where
  content : ∀ text, t.content = some text ↔ c.Says (·.content) text
  reasoning : ∀ text, t.reasoning = some text ↔ c.Says (·.reasoning) text
  finish : ∀ text, t.finishReason = some text ↔ c.Says (·.finishReason) text
  usage : ∀ usage, t.usage = some usage ↔ ∃ report, c.usage = some report ∧ report.usage = usage
  model : ∀ model, t.model = some model ↔ c.usage.isSome = true ∧ c.model = model
  error : ∀ text, t.error = some text ↔ ∃ report, c.error = some report ∧ report.text = text

variable {c : Chunk} {t : Token}

theorem nonEmpty_eq_some {part : ReplyChoice → Option String} {text : String} :
    nonEmpty (c.choices.head?.bind part) = some text ↔ c.Says part text := by
  simp [nonEmpty, Says, Option.filter_eq_some_iff, Option.bind_eq_some_iff, and_comm]

theorem tells_token (c : Chunk) : c.Tells c.token := by
  constructor
  case content | reasoning | finish => exact fun text => nonEmpty_eq_some
  case usage => simp [token]
  case model => simp [token, Option.isSome_iff_exists]
  case error => simp [token]

/-- There is one token that tells what a chunk holds. -/
theorem Tells.eq_token (h : c.Tells t) : t = c.token := by
  have same := c.tells_token
  cases t
  simp only [token, Token.mk.injEq]
  refine ⟨?_, ?_, ?_, ?_, ?_, ?_⟩
  · exact Option.ext fun x => (h.content x).trans (same.content x).symm
  · exact Option.ext fun x => (h.reasoning x).trans (same.reasoning x).symm
  · exact Option.ext fun x => (h.finish x).trans (same.finish x).symm
  · exact Option.ext fun x => (h.usage x).trans (same.usage x).symm
  · exact Option.ext fun x => (h.model x).trans (same.model x).symm
  · exact Option.ext fun x => (h.error x).trans (same.error x).symm

theorem token_eq_empty : c.token = Token.empty ↔ c.Silent := by
  have absent {part : ReplyChoice → Option String} :
      nonEmpty (c.choices.head?.bind part) = none ↔ ∀ text, ¬ c.Says part text := by
    simp [Option.eq_none_iff_forall_ne_some, nonEmpty_eq_some]
  simp only [token, Token.empty, Token.mk.injEq, absent, Option.map_eq_none_iff]
  constructor
  · rintro ⟨content, reasoning, finish, usage, -, error⟩
    exact ⟨content, reasoning, finish, usage, error⟩
  · rintro ⟨content, reasoning, finish, usage, error⟩
    exact ⟨content, reasoning, finish, usage, usage, error⟩

end Chunk

/-- The end mark of a reply, with any blanks around it. -/
def Ends : Item → Prop
  | .data text => trimmed text = endMark
  | .broken => False

instance : DecidablePred Ends
  | .data text => inferInstanceAs (Decidable (trimmed text = endMark))
  | .broken => inferInstanceAs (Decidable False)

/-- The items in front of the end mark. -/
def heard (items : List Item) : List Item := items.takeWhile fun item => !decide (Ends item)

/-- What an item in front of the end mark brings into the stream. -/
inductive Brings : Item → List (Except Fault Token) → Prop where
  | broken : Brings .broken [.error (.provider "SSE stream error:")]
  | blank {text : String} (blank : isBlankText text = true) : Brings (.data text) []
  | unreadable {text : String} (solid : isBlankText text = false)
      (unread : Chunk.reading.parse? (trimmed text) = none) :
      Brings (.data text) [.error (.provider "failed to parse stream chunk:")]
  | silent {text : String} {chunk : Chunk} (read : Chunk.reading.parse? (trimmed text) = some chunk)
      (silent : chunk.Silent) : Brings (.data text) []
  | token {text : String} {chunk : Chunk} {t : Token}
      (read : Chunk.reading.parse? (trimmed text) = some chunk) (speaks : ¬ chunk.Silent)
      (tells : chunk.Tells t) : Brings (.data text) [.ok t]

variable {item : Item} {items rest : List Item} {brought : List (Except Fault Token)}

theorem tokens_of_ends (ends : Ends item) : tokens (item :: rest) = [] := by
  cases item with
  | broken => cases ends
  | data text => exact if_pos ends

theorem parse?_blank : Chunk.reading.parse? "" = none := by decide +kernel

theorem tokens_of_brings (goesOn : ¬ Ends item) (brings : Brings item brought) :
    tokens (item :: rest) = brought ++ tokens rest := by
  have full {text : String} {chunk : Chunk}
      (read : Chunk.reading.parse? (trimmed text) = some chunk) : trimmed text ≠ "" := by
    intro empty
    rw [empty, parse?_blank] at read
    cases read
  cases brings with
  | broken => rfl
  | @blank text blank =>
      have goesOn : trimmed text ≠ endMark := goesOn
      rw [tokens, if_neg goesOn, if_pos (trimmed_eq_empty.mpr blank), List.nil_append]
  | @unreadable text solid unread =>
      have goesOn : trimmed text ≠ endMark := goesOn
      have full : trimmed text ≠ "" := trimmed_eq_empty.not.mpr (by simp [solid])
      rw [tokens, if_neg goesOn, if_neg full, unread]
      rfl
  | @silent text chunk read silent =>
      have goesOn : trimmed text ≠ endMark := goesOn
      rw [tokens, if_neg goesOn, if_neg (full read), read]
      exact if_pos (Chunk.token_eq_empty.mpr silent)
  | @token text chunk t read speaks tells =>
      have goesOn : trimmed text ≠ endMark := goesOn
      rw [tokens, if_neg goesOn, if_neg (full read), read, tells.eq_token]
      exact if_neg (Chunk.token_eq_empty.not.mpr speaks)

theorem exists_brings (item : Item) : ∃ brought, Brings item brought := by
  cases item with
  | broken => exact ⟨_, .broken⟩
  | data text =>
      cases solid : isBlankText text with
      | true => exact ⟨_, .blank solid⟩
      | false =>
          cases read : Chunk.reading.parse? (trimmed text) with
          | none => exact ⟨_, .unreadable solid read⟩
          | some chunk =>
              by_cases silent : chunk.Silent
              · exact ⟨_, .silent read silent⟩
              · exact ⟨_, .token read silent chunk.tells_token⟩

theorem heard_of_ends (ends : Ends item) : heard (item :: rest) = [] :=
  List.takeWhile_cons_of_neg (by simp [ends])

theorem heard_of_not_ends (goesOn : ¬ Ends item) : heard (item :: rest) = item :: heard rest :=
  List.takeWhile_cons_of_pos (by simp [goesOn])

theorem exists_brought (items : List Item) : ∃ brought, List.Forall₂ Brings items brought := by
  induction items with
  | nil => exact ⟨[], .nil⟩
  | cons item rest ih =>
      obtain ⟨first, brings⟩ := exists_brings item
      obtain ⟨others, all⟩ := ih
      exact ⟨first :: others, .cons brings all⟩

/-- The stream is what the items in front of the end mark bring, one after another. -/
theorem tokens_eq_flatten {brought : List (List (Except Fault Token))}
    (all : List.Forall₂ Brings (heard items) brought) : tokens items = brought.flatten := by
  induction items generalizing brought with
  | nil =>
      cases all
      rfl
  | cons item rest ih =>
      by_cases ends : Ends item
      case pos =>
        rw [heard_of_ends ends] at all
        cases all
        exact tokens_of_ends ends
      case neg =>
        rw [heard_of_not_ends ends] at all
        cases all with
        | cons brings others => rw [tokens_of_brings ends brings, ih others, List.flatten_cons]

/-- What comes behind an end mark is not heard. -/
theorem tokens_append_ends (ends : Ends item) (before after : List Item) :
    tokens (before ++ item :: after) = tokens before := by
  induction before with
  | nil => exact tokens_of_ends ends
  | cons first before ih =>
      by_cases early : Ends first
      case pos => rw [List.cons_append, tokens_of_ends early, tokens_of_ends early]
      case neg =>
        obtain ⟨brought, brings⟩ := exists_brings first
        rw [List.cons_append, tokens_of_brings early brings, tokens_of_brings early brings, ih]

/-- The contents of all tokens of a stream, joined. -/
def contents (stream : List (Except Fault Token)) : String :=
  String.join (stream.filterMap fun t => t.toOption.bind (·.content))

/-- What the first choice of a chunk adds to the reply; nothing where an item is no chunk. -/
def delta : Item → String
  | .broken => ""
  | .data text => ((Chunk.reading.parse? (trimmed text)).bind fun chunk =>
      chunk.choices.head?.bind (·.content)).getD ""

theorem contents_append (a b : List (Except Fault Token)) :
    contents (a ++ b) = contents a ++ contents b := by
  simp [contents]

theorem contents_ok (t : Token) : contents [.ok t] = t.content.getD "" := by
  cases said : t.content <;> simp [contents, Except.toOption, said]

/-- Leaving out empty contents leaves out no text. -/
theorem Chunk.getD_content_token (c : Chunk) :
    c.token.content.getD "" = (c.choices.head?.bind (·.content)).getD "" := by
  rw [token]
  cases c.choices.head?.bind (·.content) with
  | none => rfl
  | some text => by_cases empty : text = "" <;> simp [nonEmpty, Option.filter, empty]

theorem contents_of_brings (brings : Brings item brought) : contents brought = delta item := by
  cases brings with
  | broken => rfl
  | blank blank => simp [contents, delta, trimmed_eq_empty.mpr blank, parse?_blank]
  | unreadable _ unread => simp [contents, delta, unread, Except.toOption]
  | @silent _ chunk read silent =>
      rw [delta, read, Option.bind_some, ← chunk.getD_content_token,
        Chunk.token_eq_empty.mpr silent]
      rfl
  | token read _ tells =>
      rw [contents_ok, delta, read, tells.eq_token, Option.bind_some, Chunk.getD_content_token]

theorem contents_flatten {brought : List (List (Except Fault Token))}
    (all : List.Forall₂ Brings items brought) :
    contents brought.flatten = String.join (items.map delta) := by
  induction all with
  | nil => rfl
  | cons brings _ ih =>
      rw [List.flatten_cons, contents_append, contents_of_brings brings, ih, List.map_cons,
        String.join_cons]

theorem ne_empty_of_brings {t : Token} (brings : Brings item brought) (mem : .ok t ∈ brought) :
    t ≠ Token.empty := by
  cases brings with
  | broken | unreadable | blank | silent => simp at mem
  | token read speaks tells =>
      obtain rfl : t = _ := by simpa using mem
      rw [tells.eq_token]
      exact Chunk.token_eq_empty.not.mpr speaks

theorem ne_empty_of_mem {brought : List (List (Except Fault Token))}
    (all : List.Forall₂ Brings items brought) {t : Token} (mem : .ok t ∈ brought.flatten) :
    t ≠ Token.empty := by
  induction all with
  | nil => simp at mem
  | cons brings _ ih =>
      rw [List.flatten_cons, List.mem_append] at mem
      rcases mem with here | later
      · exact ne_empty_of_brings brings here
      · exact ih later

/-- The items in front of the end mark bring the stream, one after another and each what its rule
    says; the contents in it are those of their chunks, no token is empty, and what comes behind
    the end mark makes no difference. -/
theorem tokens_heard (items : List Item) :
    (∃ brought, List.Forall₂ Brings (heard items) brought)
      ∧ (∀ brought, List.Forall₂ Brings (heard items) brought → tokens items = brought.flatten)
      ∧ contents (tokens items) = String.join ((heard items).map delta)
      ∧ (∀ t, .ok t ∈ tokens items → t ≠ Token.empty)
      ∧ ∀ before text after, trimmed text = endMark → items = before ++ .data text :: after →
        tokens items = tokens before := by
  obtain ⟨brought, all⟩ := exists_brought (heard items)
  have stream := tokens_eq_flatten all
  refine ⟨⟨brought, all⟩, fun brought => tokens_eq_flatten, ?_, ?_, ?_⟩
  · rw [stream, contents_flatten all]
  · intro t mem
    rw [stream] at mem
    exact ne_empty_of_mem all mem
  · rintro before text after ends rfl
    have ends : Ends (.data text) := ends
    exact tokens_append_ends ends before after

/-- Items of every kind: a chunk with a second choice, one that says nothing, a report of usage
    without choices, an error alone, and a chunk that comes too late. -/
theorem tokens_heard_mixed :
    let choices (parts : String) := "\x7b\"choices\":[" ++ parts ++ "]\x7d"
    let change (part : String) := "\x7b\"delta\":\x7b" ++ part ++ "\x7d\x7d"
    let before : List Item :=
      [.data " ", .broken, .data "\x7bno chunk",
        .data (choices (change "\"content\":\"Hel\"" ++ "," ++ change "\"content\":\"x\"")),
        .data (choices (change "\"role\":\"assistant\"")),
        .data " \x7b\"model\":\"m\",\"usage\":\x7b\"total_tokens\":7\x7d\x7d",
        .data "\x7b\"error\":\x7b\"message\":\"over\"\x7d\x7d"]
    let items := before ++ .data " [DONE]\n" :: [.data (choices (change "\"content\":\"late\""))]
    let stream : List (Except Fault Token) :=
      [.error (.provider "SSE stream error:"),
        .error (.provider "failed to parse stream chunk:"), .ok (.ofContent "Hel"),
        .ok (.ofUsage "m" ⟨7, 0⟩), .ok { Token.empty with error := some "over" }]
    tokens items = stream
      ∧ (∃ brought, List.Forall₂ Brings (heard items) brought ∧ tokens items = brought.flatten)
      ∧ contents (tokens items) = "Hel"
      ∧ .ok (.ofContent "Hel") ∈ tokens items ∧ Token.ofContent "Hel" ≠ Token.empty
      ∧ trimmed " [DONE]\n" = endMark ∧ tokens items = tokens before := by
  intro choices change before items stream
  have told : tokens items = stream := by decide +kernel
  have joined : String.join ((heard items).map delta) = "Hel" := by decide +kernel
  have there : .ok (.ofContent "Hel") ∈ tokens items := by simp [told, stream]
  have ends : trimmed " [DONE]\n" = endMark := by decide +kernel
  obtain ⟨⟨brought, all⟩, whole, said, full, unheard⟩ := tokens_heard items
  exact ⟨told, ⟨brought, all, whole brought all⟩, said.trans joined, there,
    full _ there, ends, unheard before _ _ ends rfl⟩

end Wire

end NoteAssistant
