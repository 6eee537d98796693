import Mathlib.Data.List.TakeWhile
import NoteAssistant.Json.Reading

/-! # JSON strings

What a string and an array of strings stand for, told by their grammar. Reading follows the
grammar both ways (`string?_eq_some_iff`, `strings_parse?_eq_some_iff`), so what is printed is read
back (`strings_parse?_text`).
-/

namespace NoteAssistant.Json

/-- A 16-bit unit of four hexadecimal digits. -/
def unit? (a b c d : Char) : Option Nat := do
  some (4096 * (← hexValue? a) + 256 * (← hexValue? b) + 16 * (← hexValue? c) + (← hexValue? d))

/-- What stands between the quotes of a string, and the characters that it stands for. -/
inductive Spells : List Char → List Char → Prop where
  | nil : Spells [] []
  | plain {c : Char} {s t : List Char} (visible : 32 ≤ c.toNat) (noQuote : c ≠ '"')
      (noEscape : c ≠ '\\') (rest : Spells s t) : Spells (c :: s) (c :: t)
  | letter {l c : Char} {s t : List Char} (known : letter? l = some c) (rest : Spells s t) :
      Spells ('\\' :: l :: s) (c :: t)
  | unit {a b c d : Char} {n : Nat} {s t : List Char} (digits : unit? a b c d = some n)
      (single : n < 0xD800 ∨ 0xDFFF < n) (rest : Spells s t) :
      Spells ('\\' :: 'u' :: a :: b :: c :: d :: s) (Char.ofNat n :: t)
  | pair {a b c d a' b' c' d' : Char} {n m : Nat} {s t : List Char}
      (digits : unit? a b c d = some n) (high : 0xD800 ≤ n ∧ n < 0xDC00)
      (digits' : unit? a' b' c' d' = some m) (low : 0xDC00 ≤ m ∧ m ≤ 0xDFFF) (rest : Spells s t) :
      Spells ('\\' :: 'u' :: a :: b :: c :: d :: '\\' :: 'u' :: a' :: b' :: c' :: d' :: s)
        (Char.ofNat (0x10000 + (n - 0xD800) * 1024 + (m - 0xDC00)) :: t)

/-! ## Pieces -/

/-- What stands between the quotes, piece by piece. -/
inductive Written : List Char → List Piece → Prop where
  | nil : Written [] []
  | plain {c : Char} {s : List Char} {ps : List Piece} (visible : 32 ≤ c.toNat) (noQuote : c ≠ '"')
      (noEscape : c ≠ '\\') (rest : Written s ps) : Written (c :: s) (.char c :: ps)
  | letter {l c : Char} {s : List Char} {ps : List Piece} (known : letter? l = some c)
      (rest : Written s ps) : Written ('\\' :: l :: s) (.char c :: ps)
  | unit {a b c d : Char} {n : Nat} {s : List Char} {ps : List Piece}
      (digits : unit? a b c d = some n) (rest : Written s ps) :
      Written ('\\' :: 'u' :: a :: b :: c :: d :: s) (.unit n :: ps)

section Pieces

variable {s body rest t : List Char} {ps : List Piece}

theorem pieces?_unit (a b c d : Char) (r : List Char) :
    pieces? ('\\' :: 'u' :: a :: b :: c :: d :: r) =
      (unit? a b c d).bind fun n => (pieces? r).map fun (ps, rest) => (.unit n :: ps, rest) := by
  rw [pieces?, unit?]
  cases hexValue? a <;> cases hexValue? b <;> cases hexValue? c <;> cases hexValue? d <;>
    cases pieces? r <;> rfl

theorem pieces?_letter {l : Char} (noUnit : l ≠ 'u') (r : List Char) :
    pieces? ('\\' :: l :: r) =
      (letter? l).bind fun c => (pieces? r).map fun (ps, rest) => (.char c :: ps, rest) := by
  rw [pieces?.eq_3 l r fun _ _ _ _ _ unit => absurd unit noUnit]
  cases letter? l <;> cases pieces? r <;> rfl

theorem pieces?_plain {c : Char} (visible : 32 ≤ c.toNat) (noQuote : c ≠ '"')
    (noEscape : c ≠ '\\') (r : List Char) :
    pieces? (c :: r) = (pieces? r).map fun (ps, rest) => (.char c :: ps, rest) := by
  rw [pieces?.eq_4 c r (absurd · noQuote) (fun _ _ _ _ _ escape => absurd escape noEscape)
    fun _ _ escape => absurd escape noEscape, if_neg (by simp [visible, noEscape])]

theorem pieces?_of_written (written : Written body ps) :
    pieces? (body ++ '"' :: rest) = some (ps, rest) := by
  induction written with
  | nil => exact pieces?.eq_1 rest
  | plain visible noQuote noEscape _ ih =>
      rw [List.cons_append, pieces?_plain visible noQuote noEscape, ih]
      rfl
  | @letter l c s ps known _ ih =>
      have noUnit : l ≠ 'u' := by
        rintro rfl
        cases known
      rw [List.cons_append, List.cons_append, pieces?_letter noUnit, known, ih]
      rfl
  | unit digits _ ih =>
      simp only [List.cons_append]
      rw [pieces?_unit, digits, ih]
      rfl

theorem written_of_pieces? (read : pieces? s = some (ps, rest)) :
    ∃ body, s = body ++ '"' :: rest ∧ Written body ps := by
  induction s using pieces?.induct generalizing ps with
  | case1 r =>
      rw [pieces?] at read
      cases read
      exact ⟨[], rfl, .nil⟩
  | case2 a b c d r ih =>
      rw [pieces?_unit] at read
      obtain ⟨n, digits, read⟩ := Option.bind_eq_some_iff.mp read
      obtain ⟨⟨ps, last⟩, inner, same⟩ := Option.map_eq_some_iff.mp read
      cases same
      obtain ⟨body, rfl, written⟩ := ih inner
      exact ⟨_, rfl, .unit digits written⟩
  | case3 l r noUnit ih =>
      rw [pieces?.eq_3 l r noUnit] at read
      obtain ⟨c, known, read⟩ := Option.bind_eq_some_iff.mp read
      obtain ⟨⟨ps, last⟩, inner, same⟩ := Option.bind_eq_some_iff.mp read
      cases same
      obtain ⟨body, rfl, written⟩ := ih inner
      exact ⟨_, rfl, .letter known written⟩
  | case4 c r noQuote noUnit noLetter control =>
      rw [pieces?.eq_4 c r noQuote noUnit noLetter, if_pos control] at read
      cases read
  | case5 c r noQuote noUnit noLetter plain ih =>
      rw [pieces?.eq_4 c r noQuote noUnit noLetter, if_neg plain] at read
      obtain ⟨⟨ps, last⟩, inner, same⟩ := Option.map_eq_some_iff.mp read
      cases same
      obtain ⟨body, rfl, written⟩ := ih inner
      obtain ⟨visible, noEscape⟩ : 32 ≤ c.toNat ∧ c ≠ '\\' := by simpa using plain
      exact ⟨_, rfl, .plain visible noQuote noEscape written⟩
  | case6 => cases read

/-! ## Characters -/

theorem characters?_char (c : Char) (ps : List Piece) :
    characters? (.char c :: ps) = (characters? ps).map (c :: ·) := rfl

theorem characters?_unit {n : Nat} (single : n < 0xD800 ∨ 0xDFFF < n) (ps : List Piece) :
    characters? (.unit n :: ps) = (characters? ps).map (Char.ofNat n :: ·) := by
  rw [characters?.eq_def]
  exact if_pos (by simpa using single)

theorem characters?_pair {n m : Nat} (high : 0xD800 ≤ n ∧ n < 0xDC00)
    (low : 0xDC00 ≤ m ∧ m ≤ 0xDFFF) (ps : List Piece) :
    characters? (.unit n :: .unit m :: ps) =
      (characters? ps).map (Char.ofNat (0x10000 + (n - 0xD800) * 1024 + (m - 0xDC00)) :: ·) := by
  have paired : ¬ (n < 0xD800 ∨ 0xDFFF < n) := by omega
  have first : ¬ 0xDC00 ≤ n := by omega
  simp [characters?, paired, first, low]

/-- A unit of a pair without its partner denotes nothing. -/
theorem characters?_alone {n : Nat} {ps : List Piece} (paired : ¬ (n < 0xD800 ∨ 0xDFFF < n))
    (alone : ∀ m ps', 0xDC00 ≤ m ∧ m ≤ 0xDFFF → n < 0xDC00 → ps ≠ .unit m :: ps') :
    characters? (.unit n :: ps) = none := by
  rw [characters?.eq_def]
  simp only
  rw [if_neg (by simpa using paired)]
  split
  case isTrue => rfl
  case isFalse high =>
    split
    case h_1 m ps' =>
      split
      case isTrue low => exact absurd rfl (alone m ps' (by simpa using low) (by omega))
      case isFalse => rfl
    case h_2 => rfl

theorem spells_of_written (written : Written body ps) (denoted : characters? ps = some t) :
    Spells body t := by
  -- The pieces are taken as they are read: one by one, but for the two units of a pair.
  induction ps using characters?.induct generalizing body t with
  | case1 =>
      cases written
      cases denoted
      exact .nil
  | case2 c ps ih =>
      obtain ⟨t, inner, rfl⟩ := Option.map_eq_some_iff.mp denoted
      cases written with
      | plain visible noQuote noEscape rest => exact .plain visible noQuote noEscape (ih rest inner)
      | letter known rest => exact .letter known (ih rest inner)
  | case3 n ps single ih =>
      rw [characters?_unit (by simpa using single)] at denoted
      obtain ⟨t, inner, rfl⟩ := Option.map_eq_some_iff.mp denoted
      cases written with
      | unit digits rest => exact .unit digits (by simpa using single) (ih rest inner)
  | case4 n ps paired low =>
      rw [characters?_alone (by simpa using paired) (by omega)] at denoted
      cases denoted
  | case5 n paired high m ps low ih =>
      have first : 0xD800 ≤ n ∧ n < 0xDC00 := by
        simp only [Bool.or_eq_true, decide_eq_true_eq, not_or] at paired
        omega
      have second : 0xDC00 ≤ m ∧ m ≤ 0xDFFF := by simpa using low
      rw [characters?_pair first second] at denoted
      obtain ⟨t, inner, rfl⟩ := Option.map_eq_some_iff.mp denoted
      cases written with
      | unit digits rest =>
          cases rest with
          | unit digits' rest => exact .pair digits first digits' second (ih rest inner)
  | case6 n paired high m ps noLow =>
      rw [characters?_alone (by simpa using paired) (by grind)] at denoted
      cases denoted
  | case7 n ps paired high alone =>
      rw [characters?_alone (by simpa using paired) fun m ps' _ _ => alone m ps'] at denoted
      cases denoted

theorem Spells.written (spells : Spells body t) :
    ∃ ps, Written body ps ∧ characters? ps = some t := by
  induction spells with
  | nil => exact ⟨[], .nil, rfl⟩
  | plain visible noQuote noEscape _ ih =>
      obtain ⟨ps, written, denoted⟩ := ih
      exact ⟨_, .plain visible noQuote noEscape written, by rw [characters?_char, denoted]; rfl⟩
  | letter known _ ih =>
      obtain ⟨ps, written, denoted⟩ := ih
      exact ⟨_, .letter known written, by rw [characters?_char, denoted]; rfl⟩
  | unit digits single _ ih =>
      obtain ⟨ps, written, denoted⟩ := ih
      exact ⟨_, .unit digits written, by rw [characters?_unit single, denoted]; rfl⟩
  | pair digits high digits' low _ ih =>
      obtain ⟨ps, written, denoted⟩ := ih
      refine ⟨_, .unit digits (.unit digits' written), ?_⟩
      rw [characters?_pair high low, denoted]
      rfl

/-- Reading a string is finding its closing quote, with what the text in front stands for. -/
theorem string?_eq_some_iff {text : String} :
    string? s = some (some text, rest) ↔
      ∃ body, s = body ++ '"' :: rest ∧ Spells body text.toList := by
  constructor
  · intro read
    obtain ⟨⟨ps, last⟩, inner, same⟩ := Option.map_eq_some_iff.mp read
    obtain ⟨named, rfl⟩ := Prod.mk.inj same
    obtain ⟨t, denoted, rfl⟩ := Option.map_eq_some_iff.mp named
    obtain ⟨body, rfl, written⟩ := written_of_pieces? inner
    exact ⟨body, rfl, by simpa using spells_of_written written denoted⟩
  · rintro ⟨body, rfl, spells⟩
    obtain ⟨ps, written, denoted⟩ := spells.written
    rw [string?, pieces?_of_written written]
    simp [denoted]

/-! ## Printed strings -/

theorem hexValue?_digitChar : ∀ k < 16, hexValue? (Nat.digitChar k) = some k := by decide

theorem unit?_digitChar {n : Nat} (small : n < 256) :
    unit? '0' '0' (Nat.digitChar (n / 16)) (Nat.digitChar (n % 16)) = some n := by
  have high := hexValue?_digitChar (n / 16) (by omega)
  have low := hexValue?_digitChar (n % 16) (Nat.mod_lt _ (by decide))
  have zero : hexValue? '0' = some 0 := rfl
  rw [unit?, zero, high, low]
  exact congrArg some (by omega)

/-- A character is printed as it is, by a letter, or by its number. -/
theorem escape_cases (c : Char) :
    (escape c = [c] ∧ 32 ≤ c.toNat ∧ c ≠ '"' ∧ c ≠ '\\') ∨
    (∃ l, escape c = ['\\', l] ∧ letter? l = some c) ∨
    (c.toNat < 32 ∧ escape c =
      ['\\', 'u', '0', '0', Nat.digitChar (c.toNat / 16), Nat.digitChar (c.toNat % 16)]) := by
  unfold escape
  by_cases named : c ∈ ['"', '\\', '\x08', '\t', '\n', '\x0c', '\r']
  · refine .inr (.inl ?_)
    simp only [List.mem_cons, List.not_mem_nil, or_false] at named
    rcases named with rfl | rfl | rfl | rfl | rfl | rfl | rfl <;> exact ⟨_, rfl, rfl⟩
  · simp only [List.mem_cons, List.not_mem_nil, or_false, not_or] at named
    by_cases control : c.toNat < 32 <;> simp [named, control]
    omega

theorem Spells.escape {c : Char} (rest : Spells s t) : Spells (escape c ++ s) (c :: t) := by
  rcases escape_cases c with ⟨plain, visible, noQuote, noEscape⟩ | ⟨l, short, known⟩ |
    ⟨control, long⟩
  · rw [plain]
    exact .plain visible noQuote noEscape rest
  · rw [short]
    exact .letter known rest
  · rw [long]
    have digits := unit?_digitChar (show c.toNat < 256 by omega)
    have spelled := Spells.unit digits (.inl (by omega)) rest
    rwa [Char.ofNat_toNat] at spelled

theorem spells_escape (t : List Char) : Spells (t.flatMap escape) t := by
  induction t with
  | nil => exact .nil
  | cons c t ih => exact ih.escape

end Pieces

/-! ## Arrays of strings -/

def Spaces (s : List Char) : Prop := ∀ c ∈ s, isSpace c = true

/-- A string with spaces around it. -/
def Element (s : List Char) (text : String) : Prop :=
  ∃ front body back, s = front ++ '"' :: body ++ '"' :: back ∧ Spaces front ∧ Spaces back ∧
    Spells body text.toList

/-- Strings with commas between them. -/
inductive Elements : List Char → List String → Prop where
  | last {s : List Char} {text : String} (element : Element s text) : Elements s [text]
  | more {s rest : List Char} {text : String} {texts : List String} (element : Element s text)
      (later : Elements rest texts) : Elements (s ++ ',' :: rest) (text :: texts)

/-- What stands between the brackets of an array of strings. -/
def Content (s : List Char) (texts : List String) : Prop :=
  texts = [] ∧ Spaces s ∨ Elements s texts

/-- An array of strings with spaces around it. -/
def StringArray (s : List Char) (texts : List String) : Prop :=
  ∃ front inner back, s = front ++ '[' :: inner ++ ']' :: back ∧ Spaces front ∧ Spaces back ∧
    Content inner texts

section Arrays

variable {s inner rest : List Char} {text : String} {texts : List String} {fuel : Nat}

theorem skipSpace_append {front : List Char} (spaces : Spaces front) (s : List Char) :
    skipSpace (front ++ s) = skipSpace s :=
  List.dropWhile_append_of_pos spaces

theorem exists_skipSpace (s : List Char) : ∃ front, s = front ++ skipSpace s ∧ Spaces front :=
  ⟨s.takeWhile isSpace, List.takeWhile_append_dropWhile.symm,
    fun _ mem => List.mem_takeWhile_imp mem⟩

theorem value?_element (element : Element inner text) (fuel : Nat) (rest : List Char) :
    ∃ back, Spaces back ∧
      value? (fuel + 1) (inner ++ rest) = some (.ofString text, back ++ rest) := by
  obtain ⟨front, body, back, rfl, before, after, spells⟩ := element
  refine ⟨back, after, ?_⟩
  have read : string? (body ++ '"' :: (back ++ rest)) = some (some text, back ++ rest) :=
    string?_eq_some_iff.mpr ⟨body, rfl, spells⟩
  have start : skipSpace (front ++ '"' :: body ++ '"' :: back ++ rest) =
      '"' :: (body ++ '"' :: (back ++ rest)) := by
    simp only [List.append_assoc, List.cons_append]
    exact skipSpace_append before _
  rw [value?, start]
  simp only [read]
  rfl

theorem spells_of_value? (read : value? fuel s = some (.ofString text, rest)) :
    ∃ front body, s = front ++ '"' :: body ++ '"' :: rest ∧ Spaces front ∧
      Spells body text.toList := by
  cases fuel with
  | zero => cases read
  | succ fuel =>
      obtain ⟨front, whole, spaces⟩ := exists_skipSpace s
      rw [value?] at read
      split at read
      case h_1 r start =>
        obtain ⟨⟨t, last⟩, inner, same⟩ := Option.map_eq_some_iff.mp read
        cases same
        obtain ⟨body, rfl, spells⟩ := string?_eq_some_iff.mp inner
        exact ⟨front, body, by rw [whole, start]; simp, spaces, spells⟩
      case h_2 | h_3 => split at read <;> simp [Tree.ofString] at read
      case h_4 | h_5 | h_6 | h_7 => simp [Tree.ofString] at read

/-! Elements end where a comma or a bracket stands. -/

theorem items?_of_elements (elements : Elements inner texts) (enough : texts.length < fuel)
    (rest : List Char) :
    items? fuel (inner ++ ']' :: rest) = some (texts.map .ofString, rest) := by
  induction elements generalizing fuel with
  | last element =>
      obtain ⟨fuel, rfl⟩ : ∃ k, fuel = k + 2 := ⟨fuel - 2, by simp at enough; omega⟩
      obtain ⟨back, after, first⟩ := value?_element element fuel (']' :: rest)
      rw [items?, first]
      simp only [Option.bind_eq_bind, Option.bind_some, skipSpace_append after]
      rfl
  | @more s later _ _ element _ ih =>
      obtain ⟨fuel, rfl⟩ : ∃ k, fuel = k + 2 := ⟨fuel - 2, by simp at enough; omega⟩
      obtain ⟨back, after, first⟩ :=
        value?_element element fuel (',' :: (later ++ ']' :: rest))
      rw [List.append_assoc, List.cons_append, items?, first]
      simp only [Option.bind_eq_bind, Option.bind_some, skipSpace_append after]
      change (items? (fuel + 1) _).bind _ = _
      rw [ih (by simpa using enough)]
      rfl

theorem elements_of_items? (read : items? fuel s = some (texts.map .ofString, rest)) :
    ∃ inner, s = inner ++ ']' :: rest ∧ Elements inner texts := by
  induction fuel generalizing s texts with
  | zero => cases read
  | succ fuel ih =>
      rw [items?] at read
      obtain ⟨⟨t, r⟩, first, next⟩ := Option.bind_eq_some_iff.mp read
      obtain ⟨back, whole, spaces⟩ := exists_skipSpace r
      simp only at next
      split at next
      case h_1 last stop =>
        obtain ⟨single, rfl⟩ := Prod.mk.inj (Option.some.inj next)
        obtain ⟨text, none, rfl, rfl, empty⟩ := List.map_eq_cons_iff.mp single.symm
        obtain rfl : none = [] := List.map_eq_nil_iff.mp empty
        obtain ⟨front, body, rfl, before, spells⟩ := spells_of_value? first
        refine ⟨front ++ '"' :: body ++ '"' :: back, ?_, ?_⟩
        · rw [whole, stop]
          simp
        · exact .last ⟨front, body, back, rfl, before, spaces, spells⟩
      case h_2 later comma =>
        obtain ⟨⟨ts, last⟩, inner, same⟩ := Option.bind_eq_some_iff.mp next
        obtain ⟨all, rfl⟩ := Prod.mk.inj (Option.some.inj same)
        obtain ⟨text, texts, rfl, rfl, rfl⟩ := List.map_eq_cons_iff.mp all.symm
        obtain ⟨front, body, rfl, before, spells⟩ := spells_of_value? first
        obtain ⟨more, rfl, elements⟩ := ih inner
        refine ⟨front ++ '"' :: body ++ '"' :: back ++ ',' :: more, ?_, ?_⟩
        · rw [whole, comma]
          simp
        · exact .more ⟨front, body, back, rfl, before, spaces, spells⟩ elements
      case h_3 => cases next

/-- Elements begin with a quote, after spaces. -/
theorem Elements.skipSpace (elements : Elements inner texts) (rest : List Char) :
    ∃ r, Elements ('"' :: r) texts ∧ Json.skipSpace (inner ++ rest) = '"' :: r ++ rest := by
  have stripped {s : List Char} {text : String} (element : Element s text) :
      ∃ front r, s = front ++ '"' :: r ∧ Spaces front ∧ Element ('"' :: r) text := by
    obtain ⟨front, body, back, rfl, before, after, spells⟩ := element
    refine ⟨front, body ++ '"' :: back, by simp, before, [], body, back, rfl, ?_, after, spells⟩
    exact List.forall_mem_nil _
  cases elements with
  | last element =>
      obtain ⟨front, r, rfl, before, element⟩ := stripped element
      refine ⟨r, .last element, ?_⟩
      rw [List.append_assoc, skipSpace_append before]
      rfl
  | more element later =>
      obtain ⟨front, r, rfl, before, element⟩ := stripped element
      refine ⟨_, .more element later, ?_⟩
      rw [List.append_assoc, List.append_assoc, skipSpace_append before]
      simp [Json.skipSpace, isSpace]

theorem Elements.spaced {front : List Char} (spaces : Spaces front)
    (elements : Elements inner texts) : Elements (front ++ inner) texts := by
  have widened {s : List Char} {text : String} (element : Element s text) :
      Element (front ++ s) text := by
    obtain ⟨before, body, back, rfl, blank, after, spells⟩ := element
    refine ⟨front ++ before, body, back, by simp, ?_, after, spells⟩
    exact List.forall_mem_append.mpr ⟨spaces, blank⟩
  cases elements with
  | last element => exact .last (widened element)
  | more element later =>
      rw [← List.append_assoc]
      exact .more (widened element) later

theorem Elements.length_le (elements : Elements inner texts) : texts.length ≤ inner.length := by
  induction elements with
  | last element =>
      obtain ⟨front, body, back, rfl, -⟩ := element
      simp
      omega
  | more element _ ih =>
      obtain ⟨front, body, back, rfl, -⟩ := element
      simp
      omega

/-! The whole text. -/

theorem string_eq_some_iff {level : Nat} {t : Tree} :
    Reading.string level t = some text ↔ t = .ofString text := by
  constructor
  · intro read
    unfold Reading.string at read
    split at read
    case h_1 => rw [Option.some.inj read, Tree.ofString]
    case h_2 => cases read
  · rintro rfl
    rfl

theorem mapM_string_eq_some_iff {level : Nat} {items : List Tree} :
    items.mapM (Reading.string level) = some texts ↔ items = texts.map .ofString := by
  induction items generalizing texts with
  | nil =>
      simp [eq_comm]
  | cons t items ih =>
      rw [List.mapM_cons]
      simp only [Option.bind_eq_bind, Option.bind_eq_some_iff, string_eq_some_iff, ih]
      rw [eq_comm, List.map_eq_cons_iff]
      simp
      grind

theorem array_of_value? (read : value? fuel s = some (.array (texts.map .ofString), rest)) :
    ∃ front inner, s = front ++ '[' :: inner ++ ']' :: rest ∧ Spaces front ∧
      Content inner texts := by
  cases fuel with
  | zero => cases read
  | succ fuel =>
      obtain ⟨front, whole, before⟩ := exists_skipSpace s
      rw [value?] at read
      split at read
      case h_2 r start =>
        obtain ⟨between, inside, spaces⟩ := exists_skipSpace r
        split at read
        case h_1 last stop =>
          obtain ⟨none, rfl⟩ := Prod.mk.inj (Option.some.inj read)
          obtain rfl : texts = [] := by simpa using none
          refine ⟨front, between, ?_, before, .inl ⟨rfl, spaces⟩⟩
          rw [whole, start, inside, stop]
          simp
        case h_2 =>
          obtain ⟨⟨ts, last⟩, items, same⟩ := Option.map_eq_some_iff.mp read
          cases same
          obtain ⟨inner, shape, elements⟩ := elements_of_items? items
          refine ⟨front, between ++ inner, ?_, before, .inr (elements.spaced spaces)⟩
          rw [whole, start, inside, shape]
          simp
      case h_3 => split at read <;> simp at read
      case h_1 | h_4 | h_5 | h_6 | h_7 => simp at read

theorem value?_array {front : List Char} (before : Spaces front)
    (content : Content inner texts) (enough : texts.length < fuel) (rest : List Char) :
    value? (fuel + 1) (front ++ '[' :: inner ++ ']' :: rest) =
      some (.array (texts.map .ofString), rest) := by
  have start :
      skipSpace (front ++ '[' :: inner ++ ']' :: rest) = '[' :: (inner ++ ']' :: rest) := by
    rw [List.append_assoc, skipSpace_append before]
    rfl
  rw [value?, start]
  rcases content with ⟨rfl, between⟩ | elements
  · have stop : skipSpace (inner ++ ']' :: rest) = ']' :: rest := by
      rw [skipSpace_append between]
      rfl
    simp only [stop]
    rfl
  · obtain ⟨r, stripped, first⟩ := elements.skipSpace (']' :: rest)
    have items := items?_of_elements stripped enough rest
    simp only [first]
    change (items? fuel ('"' :: r ++ ']' :: rest)).map _ = _
    rw [items]
    rfl

theorem skipSpace_eq_nil_iff : skipSpace s = [] ↔ Spaces s := List.dropWhile_eq_nil_iff

theorem parse?_eq_some_iff {t : Tree} :
    parse? text = some t ↔
      ∃ back, value? (2 * text.toList.length + 2) text.toList = some (t, back) ∧ Spaces back := by
  rw [parse?]
  simp only [← skipSpace_eq_nil_iff]
  cases value? (2 * text.toList.length + 2) text.toList with
  | none => simp
  | some found =>
      simp only [Option.ite_none_right_eq_some, Option.some.injEq]
      grind

/-- A text is read as a list of strings if and only if it is an array of these strings. -/
theorem strings_parse?_eq_some_iff :
    (Reading.list .string).parse? text = some texts ↔ StringArray text.toList texts := by
  constructor
  · intro read
    obtain ⟨t, parsed, listed⟩ := Option.bind_eq_some_iff.mp read
    obtain ⟨back, value, after⟩ := parse?_eq_some_iff.mp parsed
    unfold Reading.list at listed
    split at listed
    case h_1 =>
      obtain rfl := mapM_string_eq_some_iff.mp listed
      obtain ⟨front, inner, whole, before, content⟩ := array_of_value? value
      exact ⟨front, inner, back, whole, before, after, content⟩
    case h_2 => cases listed
  · rintro ⟨front, inner, back, whole, before, after, content⟩
    have enough : texts.length < 2 * text.toList.length + 1 := by
      rcases content with ⟨rfl, -⟩ | elements
      · exact Nat.succ_pos _
      · have few := elements.length_le
        have long := congrArg List.length whole
        simp only [List.length_append, List.length_cons] at long
        omega
    have value := value?_array before content enough back
    rw [← whole] at value
    rw [Reading.parse?, parse?_eq_some_iff.mpr ⟨back, value, after⟩]
    exact mapM_string_eq_some_iff.mpr rfl

theorem elements_commas (text : String) (texts : List String) :
    Elements (commas ((text :: texts).map printString)) (text :: texts) := by
  have element (t : String) : Element (printString t) t :=
    ⟨[], t.toList.flatMap escape, [], rfl, nofun, nofun, spells_escape _⟩
  induction texts generalizing text with
  | nil => exact .last (element text)
  | cons next texts ih => exact .more (element text) (ih next)

theorem itemTexts_strings (texts : List String) :
    itemTexts (texts.map .ofString) = texts.map printString := by
  induction texts with
  | nil => rfl
  | cons text texts ih => rw [List.map_cons, itemTexts, ih]; rfl

theorem stringArray_text (texts : List String) :
    StringArray (Tree.ofStrings texts).text.toList texts := by
  have printed : (Tree.ofStrings texts).text.toList =
      '[' :: commas (texts.map printString) ++ [']'] := by
    rw [Tree.text, String.toList_ofList, Tree.ofStrings, Tree.chars, itemTexts_strings]
  refine ⟨[], commas (texts.map printString), [], printed, nofun, nofun, ?_⟩
  cases texts with
  | nil => exact .inl ⟨rfl, nofun⟩
  | cons text texts => exact .inr (elements_commas text texts)

/-- A printed list of strings is read as the same list. -/
theorem strings_parse?_text (texts : List String) :
    (Reading.list .string).parse? (Tree.ofStrings texts).text = some texts :=
  strings_parse?_eq_some_iff.mpr (stringArray_text texts)

end Arrays

end NoteAssistant.Json
