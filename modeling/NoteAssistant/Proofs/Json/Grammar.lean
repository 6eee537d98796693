import NoteAssistant.Proofs.Json.Numbers
import NoteAssistant.Proofs.Json.Strings

/-! # The grammar of JSON

What it means that a text is a JSON value, told without a reader. Reading follows the grammar both
ways (`parse?_iff_denotes`): a text has at most one value, and it is read if it has one.
-/

namespace NoteAssistant.Json

/-- What stands between the quotes of a string, and the text that it stands for, if there is
    one. -/
inductive Quoted : Option String → List Char → Prop where
  | text {body : List Char} {text : String} (spells : Spells body text.toList) :
      Quoted (some text) body
  | garbled {body : List Char} {ps : List Piece} (written : Written body ps)
      (noText : ∀ t, ¬ Spells body t) : Quoted none body

/-- A part of a JSON text. -/
inductive Part where
  | value (t : Tree)
  /-- A value with spaces around it. -/
  | spaced (t : Tree)
  /-- The items of an array, at least one. -/
  | items (ts : List Tree)
  | member (m : Option String × Tree)
  /-- The members of an object, at least one. -/
  | members (ms : List (Option String × Tree))

/-- A text begins with a part, and what is behind it. -/
inductive Begins : Part → List Char → List Char → Prop where
  | null {rest : List Char} : Begins (.value .null) ('n' :: 'u' :: 'l' :: 'l' :: rest) rest
  | yes {rest : List Char} :
      Begins (.value (.bool true)) ('t' :: 'r' :: 'u' :: 'e' :: rest) rest
  | no {rest : List Char} :
      Begins (.value (.bool false)) ('f' :: 'a' :: 'l' :: 's' :: 'e' :: rest) rest
  | number {n : Numeral} {body rest : List Char} (text : NumberText n body) :
      Begins (.value (.number n)) (body ++ rest) rest
  | string {text : Option String} {body rest : List Char} (quoted : Quoted text body) :
      Begins (.value (.string text)) ('"' :: (body ++ '"' :: rest)) rest
  | emptyArray {gap rest : List Char} (spaces : Spaces gap) :
      Begins (.value (.array [])) ('[' :: (gap ++ ']' :: rest)) rest
  | array {ts : List Tree} {s rest : List Char} (inner : Begins (.items ts) s (']' :: rest)) :
      Begins (.value (.array ts)) ('[' :: s) rest
  | emptyObject {gap rest : List Char} (spaces : Spaces gap) :
      Begins (.value (.object [])) ('{' :: (gap ++ '}' :: rest)) rest
  | object {ms : List (Option String × Tree)} {s rest : List Char}
      (inner : Begins (.members ms) s ('}' :: rest)) : Begins (.value (.object ms)) ('{' :: s) rest
  | spaced {t : Tree} {front s back rest : List Char} (before : Spaces front)
      (value : Begins (.value t) s (back ++ rest)) (after : Spaces back) :
      Begins (.spaced t) (front ++ s) rest
  | lastItem {t : Tree} {s rest : List Char} (only : Begins (.spaced t) s rest) :
      Begins (.items [t]) s rest
  | item {t : Tree} {ts : List Tree} {s more rest : List Char}
      (first : Begins (.spaced t) s (',' :: more)) (later : Begins (.items ts) more rest) :
      Begins (.items (t :: ts)) s rest
  | member {name : Option String} {t : Tree} {front body gap s rest : List Char}
      (before : Spaces front) (quoted : Quoted name body) (between : Spaces gap)
      (value : Begins (.spaced t) s rest) :
      Begins (.member (name, t)) (front ++ '"' :: (body ++ '"' :: (gap ++ ':' :: s))) rest
  | lastMember {m : Option String × Tree} {s rest : List Char}
      (only : Begins (.member m) s rest) : Begins (.members [m]) s rest
  | members {m : Option String × Tree} {ms : List (Option String × Tree)}
      {s more rest : List Char} (first : Begins (.member m) s (',' :: more))
      (later : Begins (.members ms) more rest) : Begins (.members (m :: ms)) s rest

/-- A text is a value with spaces around it. -/
def Denotes (s : List Char) (t : Tree) : Prop := Begins (.spaced t) s []

section Reading

variable {s rest : List Char}

theorem Written.unique {body : List Char} {ps qs : List Piece} (first : Written body ps)
    (second : Written body qs) : ps = qs := by
  have same : some (ps, []) = some (qs, []) :=
    (pieces?_of_written first).symm.trans (pieces?_of_written second)
  exact congrArg Prod.fst (Option.some.inj same)

theorem string?_iff_quoted {text : Option String} :
    string? s = some (text, rest) ↔ ∃ body, s = body ++ '"' :: rest ∧ Quoted text body := by
  cases text with
  | some text =>
      rw [string?_eq_some_iff]
      refine exists_congr fun body => and_congr_right fun _ => ⟨.text, ?_⟩
      rintro ⟨spells⟩
      exact spells
  | none =>
      constructor
      · intro read
        obtain ⟨⟨ps, last⟩, inner, same⟩ := Option.map_eq_some_iff.mp read
        obtain ⟨none, rfl⟩ := Prod.mk.inj same
        obtain ⟨body, rfl, written⟩ := written_of_pieces? inner
        refine ⟨body, rfl, .garbled written fun t spells => ?_⟩
        obtain ⟨qs, again, denoted⟩ := spells.written
        rw [written.unique again, denoted] at none
        cases none
      · rintro ⟨body, rfl, quoted⟩
        cases quoted with
        | @garbled body ps written noText =>
            rw [string?, pieces?_of_written written]
            cases denoted : characters? ps with
            | none => simp [denoted]
            | some t => exact absurd (spells_of_written written denoted) (noText t)

theorem Begins.longer {p : Part} (begins : Begins p s rest) : rest.length < s.length := by
  induction begins with
  | null | yes | no => simp; try omega
  | number text =>
      obtain ⟨c, t, rfl, -⟩ := text.begins
      rw [List.length_append, List.length_cons]
      omega
  | string | emptyArray | emptyObject => simp only [List.length_append, List.length_cons]; omega
  | array _ ih | object _ ih => simp at ih ⊢; omega
  | spaced _ _ _ ih => simp at ih ⊢; omega
  | lastItem _ ih | lastMember _ ih => exact ih
  | item _ _ first later | members _ _ first later => simp at first; omega
  | member _ _ _ _ ih => simp; omega

/-- No number begins with a space, or as another value does. -/
theorem numeric_first {c : Char} (first : c.isDigit = true ∨ c = '-') :
    c ∉ [' ', '\n', '\t', '\r', '"', '[', ']', '{', 'n', 't', 'f'] := by
  rcases first with digit | rfl
  · intro mem
    have none : [' ', '\n', '\t', '\r', '"', '[', ']', '{', 'n', 't', 'f'].all
        (!·.isDigit) = true := by
      decide
    have other := List.all_eq_true.mp none c mem
    simp [digit] at other
  · decide

/-- A value begins with a character that opens it. -/
theorem Begins.opens {t : Tree} (begins : Begins (.value t) s rest) :
    ∃ c r, s = c :: r ∧ isSpace c = false ∧ c ≠ ']' := by
  cases begins with
  | number text =>
      obtain ⟨c, r, rfl, first⟩ := text.begins
      have other := numeric_first first
      simp only [List.mem_cons, not_or] at other
      exact ⟨c, _, rfl, by simp [isSpace, other], other.2.2.2.2.2.2.1⟩
  | null | yes | no | string | emptyArray | array | emptyObject | object =>
      exact ⟨_, _, rfl, rfl, by decide⟩

theorem Begins.skipSpace_spaced {t : Tree} (begins : Begins (.spaced t) s rest) :
    ∃ c r, skipSpace s = c :: r ∧ c ≠ ']' := by
  cases begins with
  | spaced before value after =>
      obtain ⟨c, r, same, noSpace, other⟩ := value.opens
      refine ⟨c, r, ?_, other⟩
      rw [skipSpace_append before, same, skipSpace, List.dropWhile_cons_of_neg (by simp [noSpace])]

theorem Begins.skipSpace_items {ts : List Tree} (begins : Begins (.items ts) s rest) :
    ∃ c r, skipSpace s = c :: r ∧ c ≠ ']' := by
  cases begins with
  | lastItem only => exact only.skipSpace_spaced
  | item first later => exact first.skipSpace_spaced

theorem Begins.skipSpace_members {ms : List (Option String × Tree)}
    (begins : Begins (.members ms) s rest) : ∃ r, skipSpace s = '"' :: r := by
  have quote {m : Option String × Tree} {rest : List Char} (begins : Begins (.member m) s rest) :
      ∃ r, skipSpace s = '"' :: r := by
    cases begins with
    | member before quoted between value => exact ⟨_, skipSpace_append before _⟩
  cases begins with
  | lastMember only => exact quote only
  | members first later => exact quote first

theorem skipSpace_skipSpace (s : List Char) : skipSpace (skipSpace s) = skipSpace s :=
  List.dropWhile_idempotent isSpace s

theorem value?_skipSpace (fuel : Nat) (s : List Char) :
    value? fuel (skipSpace s) = value? fuel s := by
  cases fuel with
  | zero => rfl
  | succ fuel => rw [value?, value?, skipSpace_skipSpace]

theorem items?_skipSpace (fuel : Nat) (s : List Char) :
    items? fuel (skipSpace s) = items? fuel s := by
  cases fuel with
  | zero => rfl
  | succ fuel => rw [items?, items?, value?_skipSpace]

theorem members?_skipSpace (fuel : Nat) (s : List Char) :
    members? fuel (skipSpace s) = members? fuel s := by
  cases fuel with
  | zero => rfl
  | succ fuel => rw [members?, members?, skipSpace_skipSpace]

/-! ### Soundness -/

theorem word?_eq_some {word : List Char} (read : word? word s = some rest) : s = word ++ rest := by
  induction word generalizing s with
  | nil => exact Option.some.inj read
  | cons c word ih =>
      cases s with
      | nil => cases read
      | cons d s =>
          rw [word?] at read
          split at read
          case isTrue same => rw [same, List.cons_append, ih read]
          case isFalse => cases read

/-- What is read is there. -/
structure Sound (fuel : Nat) : Prop where
  value {s rest : List Char} {t : Tree} : value? fuel s = some (t, rest) →
    ∃ front body, s = front ++ body ∧ Spaces front ∧ Begins (.value t) body rest
  items {s rest : List Char} {ts : List Tree} : items? fuel s = some (ts, rest) →
    Begins (.items ts) s (']' :: rest)
  members {s rest : List Char} {ms : List (Option String × Tree)} :
    members? fuel s = some (ms, rest) → Begins (.members ms) s ('}' :: rest)

namespace Sound

variable {fuel : Nat} (sound : Sound fuel)
include sound

theorem spaced {t : Tree} {r : List Char} (read : value? fuel s = some (t, r))
    (behind : skipSpace r = rest) : Begins (.spaced t) s rest := by
  obtain ⟨front, body, rfl, before, begins⟩ := sound.value read
  obtain ⟨back, whole, after⟩ := exists_skipSpace r
  rw [whole, behind] at begins
  exact .spaced before begins after

theorem value_succ {t : Tree} (read : value? (fuel + 1) s = some (t, rest)) :
    Begins (.value t) (skipSpace s) rest := by
  rw [value?] at read
  split at read
  case h_1 r start =>
    obtain ⟨⟨text, last⟩, inner, same⟩ := Option.map_eq_some_iff.mp read
    cases same
    obtain ⟨body, rfl, quoted⟩ := string?_iff_quoted.mp inner
    rw [start]
    exact .string quoted
  case h_2 r start =>
    obtain ⟨gap, inside, spaces⟩ := exists_skipSpace r
    rw [start]
    split at read
    case h_1 last stop =>
      cases read
      rw [inside, stop]
      exact .emptyArray spaces
    case h_2 =>
      obtain ⟨⟨ts, last⟩, inner, same⟩ := Option.map_eq_some_iff.mp read
      cases same
      rw [items?_skipSpace] at inner
      exact .array (sound.items inner)
  case h_3 r start =>
    obtain ⟨gap, inside, spaces⟩ := exists_skipSpace r
    rw [start]
    split at read
    case h_1 last stop =>
      cases read
      rw [inside, stop]
      exact .emptyObject spaces
    case h_2 =>
      obtain ⟨⟨ms, last⟩, inner, same⟩ := Option.map_eq_some_iff.mp read
      cases same
      rw [members?_skipSpace] at inner
      exact .object (sound.members inner)
  case h_4 | h_5 | h_6 =>
    rename_i r start
    obtain ⟨last, inner, same⟩ := Option.map_eq_some_iff.mp read
    cases same
    rw [start, word?_eq_some inner]
    constructor
  case h_7 =>
    obtain ⟨⟨n, last⟩, inner, same⟩ := Option.map_eq_some_iff.mp read
    cases same
    obtain ⟨body, shape, text⟩ := read?_sound inner
    rw [shape]
    exact .number text

theorem items_succ {ts : List Tree} (read : items? (fuel + 1) s = some (ts, rest)) :
    Begins (.items ts) s (']' :: rest) := by
  rw [items?] at read
  obtain ⟨⟨t, r⟩, first, read⟩ := Option.bind_eq_some_iff.mp read
  dsimp only at read
  split at read
  case h_1 last stop =>
    cases read
    exact .lastItem (sound.spaced first stop)
  case h_2 more comma =>
    obtain ⟨⟨ts, last⟩, later, same⟩ := Option.bind_eq_some_iff.mp read
    cases same
    exact .item (sound.spaced first comma) (sound.items later)
  case h_3 => cases read

theorem members_succ {ms : List (Option String × Tree)}
    (read : members? (fuel + 1) s = some (ms, rest)) : Begins (.members ms) s ('}' :: rest) := by
  obtain ⟨front, whole, before⟩ := exists_skipSpace s
  rw [members?] at read
  split at read
  case h_2 => cases read
  case h_1 r start =>
    obtain ⟨⟨name, u⟩, named, next⟩ := Option.bind_eq_some_iff.mp read
    obtain ⟨body, rfl, quoted⟩ := string?_iff_quoted.mp named
    obtain ⟨gap, between, spaces⟩ := exists_skipSpace u
    dsimp only at next
    split at next
    case h_2 => cases next
    case h_1 v colon =>
      obtain ⟨⟨t, w⟩, first, next⟩ := Option.bind_eq_some_iff.mp next
      have member {rest : List Char} (behind : skipSpace w = rest) :
          Begins (.member (name, t)) s rest := by
        rw [whole, start, between, colon]
        exact .member before quoted spaces (sound.spaced first behind)
      dsimp only at next
      split at next
      case h_1 last stop =>
        cases next
        exact .lastMember (member stop)
      case h_2 more comma =>
        obtain ⟨⟨ms, last⟩, later, same⟩ := Option.bind_eq_some_iff.mp next
        cases same
        exact .members (member comma) (sound.members later)
      case h_3 => cases next

end Sound

theorem reading_sound (fuel : Nat) : Sound fuel := by
  induction fuel with
  | zero => exact ⟨nofun, nofun, nofun⟩
  | succ fuel ih =>
      refine ⟨fun {s _ _} read => ?_, ih.items_succ, ih.members_succ⟩
      obtain ⟨front, whole, before⟩ := exists_skipSpace s
      exact ⟨front, skipSpace s, whole, before, ih.value_succ read⟩

/-! ### Completeness -/

/-- What reading finds where a part stands. -/
def Part.Found (s rest : List Char) : Part → Prop
  | value t => Stops isNumeric rest → ∀ front fuel, Spaces front → 2 * s.length < fuel →
    value? fuel (front ++ s) = some (t, rest)
  | spaced t => Stops isNumeric rest → ∀ fuel, 2 * s.length < fuel →
    ∃ back, Spaces back ∧ value? fuel s = some (t, back ++ rest)
  | items ts => ∀ r fuel, rest = ']' :: r → 2 * s.length + 1 < fuel →
    items? fuel s = some (ts, r)
  | member (name, t) => Stops isNumeric rest → ∀ fuel, 2 * s.length < fuel →
    ∃ u v r back, skipSpace s = '"' :: u ∧ string? u = some (name, v) ∧ skipSpace v = ':' :: r
      ∧ Spaces back ∧ value? fuel r = some (t, back ++ rest)
  | members ms => ∀ r fuel, rest = '}' :: r → 2 * s.length + 1 < fuel →
    members? fuel s = some (ms, r)

theorem stops_of_spaces {back : List Char} (spaces : Spaces back) (stops : Stops isNumeric rest) :
    Stops isNumeric (back ++ rest) := by
  refine .append (fun c first => ?_) stops
  have space := spaces c (List.mem_of_mem_head? first)
  simp only [isSpace, Bool.or_eq_true, decide_eq_true_eq] at space
  rcases space with ((rfl | rfl) | rfl) | rfl <;> rfl

theorem stops_comma (s : List Char) : Stops isNumeric (',' :: s) := by
  rintro c ⟨⟩
  rfl

section Found

variable {front : List Char} {fuel : Nat} (before : Spaces front)
include before

theorem value?_number {n : Numeral} {body : List Char} (text : NumberText n body)
    (stops : Stops isNumeric rest) :
    value? (fuel + 1) (front ++ (body ++ rest)) = some (.number n, rest) := by
  have read := read?_complete text stops
  obtain ⟨c, t, rfl, first⟩ := text.begins
  have other := numeric_first first
  simp only [List.mem_cons, not_or] at other
  have start : skipSpace (c :: t ++ rest) = c :: t ++ rest :=
    List.dropWhile_cons_of_neg (by simp [isSpace, other])
  rw [value?, skipSpace_append before, start]
  split
  case h_7 =>
    rw [read]
    rfl
  all_goals
    rename_i same
    exact absurd (List.cons.inj same).1 (by simp [other])

theorem value?_items {ts : List Tree} (inner : Begins (.items ts) s (']' :: rest))
    (read : items? fuel s = some (ts, rest)) :
    value? (fuel + 1) (front ++ '[' :: s) = some (.array ts, rest) := by
  obtain ⟨c, r, opens, other⟩ := inner.skipSpace_items
  rw [← items?_skipSpace, opens] at read
  have start : skipSpace ('[' :: s) = '[' :: s := rfl
  rw [value?, skipSpace_append before, start]
  simp only [opens]
  split
  case h_1 same => exact absurd (List.cons.inj same).1 other
  case h_2 =>
    rw [read]
    rfl

theorem value?_members {ms : List (Option String × Tree)}
    (inner : Begins (.members ms) s ('}' :: rest)) (read : members? fuel s = some (ms, rest)) :
    value? (fuel + 1) (front ++ '{' :: s) = some (.object ms, rest) := by
  obtain ⟨r, opens⟩ := inner.skipSpace_members
  rw [← members?_skipSpace, opens] at read
  have start : skipSpace ('{' :: s) = '{' :: s := rfl
  rw [value?, skipSpace_append before, start]
  simp only [opens]
  change (members? fuel ('"' :: r)).map _ = _
  rw [read]
  rfl

end Found

/-- Reading finds what is there. -/
theorem Begins.found {p : Part} (begins : Begins p s rest) : p.Found s rest := by
  induction begins with
  | null | yes | no =>
      intro stops front fuel before enough
      obtain ⟨fuel, rfl⟩ := Nat.exists_eq_add_one.mpr (Nat.zero_lt_of_lt enough)
      rw [value?, skipSpace_append before]
      rfl
  | number text =>
      intro stops front fuel before enough
      obtain ⟨fuel, rfl⟩ := Nat.exists_eq_add_one.mpr (Nat.zero_lt_of_lt enough)
      exact value?_number before text stops
  | string quoted =>
      intro stops front fuel before enough
      obtain ⟨fuel, rfl⟩ := Nat.exists_eq_add_one.mpr (Nat.zero_lt_of_lt enough)
      have start (r : List Char) : skipSpace ('"' :: r) = '"' :: r := rfl
      rw [value?, skipSpace_append before, start]
      simp only [string?_iff_quoted.mpr ⟨_, rfl, quoted⟩]
      rfl
  | @emptyArray gap rest spaces =>
      intro stops front fuel before enough
      obtain ⟨fuel, rfl⟩ := Nat.exists_eq_add_one.mpr (Nat.zero_lt_of_lt enough)
      have start : skipSpace ('[' :: (gap ++ ']' :: rest)) = '[' :: (gap ++ ']' :: rest) := rfl
      rw [value?, skipSpace_append before, start]
      simp only [skipSpace_append spaces]
      rfl
  | array inner ih =>
      intro stops front fuel before enough
      obtain ⟨fuel, rfl⟩ := Nat.exists_eq_add_one.mpr (Nat.zero_lt_of_lt enough)
      rw [List.length_cons] at enough
      exact value?_items before inner (ih _ fuel rfl (by omega))
  | @emptyObject gap rest spaces =>
      intro stops front fuel before enough
      obtain ⟨fuel, rfl⟩ := Nat.exists_eq_add_one.mpr (Nat.zero_lt_of_lt enough)
      have start : skipSpace ('{' :: (gap ++ '}' :: rest)) = '{' :: (gap ++ '}' :: rest) := rfl
      rw [value?, skipSpace_append before, start]
      simp only [skipSpace_append spaces]
      rfl
  | object inner ih =>
      intro stops front fuel before enough
      obtain ⟨fuel, rfl⟩ := Nat.exists_eq_add_one.mpr (Nat.zero_lt_of_lt enough)
      rw [List.length_cons] at enough
      exact value?_members before inner (ih _ fuel rfl (by omega))
  | @spaced t front s back rest before value after ih =>
      intro stops fuel enough
      rw [List.length_append] at enough
      exact ⟨back, after, ih (stops_of_spaces after stops) front fuel before (by omega)⟩
  | lastItem only ih =>
      rintro r fuel rfl enough
      obtain ⟨fuel, rfl⟩ := Nat.exists_eq_add_one.mpr (Nat.zero_lt_of_lt enough)
      obtain ⟨back, after, first⟩ := ih (by rintro c ⟨⟩; rfl) fuel (by omega)
      rw [items?, first]
      simp only [Option.bind_eq_bind, Option.bind_some, skipSpace_append after]
      rfl
  | item first later ih ihs =>
      rintro r fuel rfl enough
      obtain ⟨fuel, rfl⟩ := Nat.exists_eq_add_one.mpr (Nat.zero_lt_of_lt enough)
      have shorter := first.longer
      rw [List.length_cons] at shorter
      obtain ⟨back, after, head⟩ := ih (stops_comma _) fuel (by omega)
      rw [items?, head]
      simp only [Option.bind_eq_bind, Option.bind_some, skipSpace_append after]
      change (items? fuel _).bind _ = _
      rw [ihs r fuel rfl (by omega)]
      rfl
  | @member name t front body gap s rest before quoted between value ih =>
      intro stops fuel enough
      simp only [List.length_append, List.length_cons] at enough
      obtain ⟨back, after, read⟩ := ih stops fuel (by omega)
      exact ⟨_, _, s, back, skipSpace_append before _, string?_iff_quoted.mpr ⟨body, rfl, quoted⟩,
        skipSpace_append between _, after, read⟩
  | lastMember only ih =>
      rintro r fuel rfl enough
      obtain ⟨fuel, rfl⟩ := Nat.exists_eq_add_one.mpr (Nat.zero_lt_of_lt enough)
      obtain ⟨u, v, r, back, start, name, colon, after, first⟩ :=
        ih (by rintro c ⟨⟩; rfl) fuel (by omega)
      rw [members?, start]
      simp only [name, Option.bind_eq_bind, Option.bind_some, colon, first, skipSpace_append after]
      rfl
  | members first later ih ihs =>
      rintro r fuel rfl enough
      obtain ⟨fuel, rfl⟩ := Nat.exists_eq_add_one.mpr (Nat.zero_lt_of_lt enough)
      have shorter := first.longer
      rw [List.length_cons] at shorter
      obtain ⟨u, v, w, back, start, name, colon, after, head⟩ :=
        ih (stops_comma _) fuel (by omega)
      rw [members?, start]
      simp only [name, Option.bind_eq_bind, Option.bind_some, colon, head, skipSpace_append after]
      change (members? fuel _).bind _ = _
      rw [ihs r fuel rfl (by omega)]
      rfl

/-- A text is read as a tree if and only if it denotes the tree. -/
theorem parse?_iff_denotes {text : String} {t : Tree} :
    parse? text = some t ↔ Denotes text.toList t := by
  rw [parse?_eq_some_iff]
  constructor
  · rintro ⟨back, read, after⟩
    exact (reading_sound _).spaced read (skipSpace_eq_nil_iff.mpr after)
  · intro denotes
    obtain ⟨back, after, read⟩ :=
      Begins.found denotes nofun (2 * text.toList.length + 2) (by omega)
    rw [List.append_nil] at read
    exact ⟨back, read, after⟩

theorem Denotes.unique {t u : Tree} (first : Denotes s t) (second : Denotes s u) : t = u := by
  have read {t : Tree} (denotes : Denotes s t) : parse? (String.ofList s) = some t :=
    parse?_iff_denotes.mpr (by rwa [String.toList_ofList])
  exact Option.some.inj ((read first).symm.trans (read second))

/-- No spaces are needed around a value. -/
theorem Begins.alone {t : Tree} (value : Begins (.value t) s rest) : Begins (.spaced t) s rest :=
  @Begins.spaced t [] s [] rest (List.forall_mem_nil _) value (List.forall_mem_nil _)

/-- A text without quotes, backslashes and control characters stands between the quotes as it
    is. -/
theorem quoted_of_plain {text : String} (plain : text.toList.flatMap escape = text.toList) :
    Quoted (some text) text.toList := by
  have spells := spells_escape text.toList
  rw [plain] at spells
  exact .text spells

theorem Spells.length_le {t : List Char} (spells : Spells s t) : t.length ≤ s.length := by
  induction spells <;> simp <;> omega

theorem Begins.text_shorter {text : String} (begins : Begins (.spaced (.ofString text)) s rest) :
    text.toList.length < s.length := by
  cases begins with
  | spaced before value after =>
      cases value with
      | string quoted =>
          cases quoted with
          | text spells =>
              have fits := spells.length_le
              simp
              omega

/-- A text is shorter than an array that it is the first item of. -/
theorem Denotes.text_shorter {text : String} {items : List Tree}
    (denotes : Denotes s (.array (.ofString text :: items))) : text.toList.length < s.length := by
  cases denotes with
  | spaced before value after =>
      cases value with
      | array inner =>
          cases inner with
          | lastItem first | item first =>
              have shorter := first.text_shorter
              simp
              omega

end Reading

end NoteAssistant.Json
