import Mathlib.Data.List.DropRight
import NoteAssistant.Json.Numeral

/-! # JSON numbers in text

What a number looks like, told by its parts. Reading takes as much of a text as belongs to a
number: what it takes is a number (`read?_sound`), and a number is taken whole if what is behind it
cannot go on with it (`read?_complete`).
-/

namespace NoteAssistant.Json

/-- Digits, at least one. -/
def Digits (s : List Char) : Prop := s ≠ [] ∧ ∀ c ∈ s, c.isDigit = true

/-- Digits without a zero in front of another one. -/
def WholeDigits (s : List Char) : Prop := s = ['0'] ∨ Digits s ∧ s.head? ≠ some '0'

inductive Fraction : Option (List Char) → List Char → Prop where
  | none : Fraction none []
  | point {ds : List Char} (digits : Digits ds) : Fraction (some ds) ('.' :: ds)

inductive Exponent : Option (Bool × List Char) → List Char → Prop where
  | none : Exponent none []
  | unsigned {e : Char} {ds : List Char} (letter : e = 'e' ∨ e = 'E') (digits : Digits ds) :
      Exponent (some (false, ds)) (e :: ds)
  | plus {e : Char} {ds : List Char} (letter : e = 'e' ∨ e = 'E') (digits : Digits ds) :
      Exponent (some (false, ds)) (e :: '+' :: ds)
  | minus {e : Char} {ds : List Char} (letter : e = 'e' ∨ e = 'E') (digits : Digits ds) :
      Exponent (some (true, ds)) (e :: '-' :: ds)

/-- The texts of a number without its sign. -/
inductive Magnitude (n : Numeral) : List Char → Prop where
  | written {fraction exponent : List Char} (whole : WholeDigits n.whole)
      (part : Fraction n.fraction fraction) (scale : Exponent n.exponent exponent) :
      Magnitude n (n.whole ++ (fraction ++ exponent))

/-- The texts of a number. -/
inductive NumberText (n : Numeral) : List Char → Prop where
  | plain {s : List Char} (sign : n.negative = false) (magnitude : Magnitude n s) : NumberText n s
  | minus {s : List Char} (sign : n.negative = true) (magnitude : Magnitude n s) :
      NumberText n ('-' :: s)

/-- A text does not begin with what a character test allows. -/
def Stops (allowed : Char → Bool) (rest : List Char) : Prop :=
  ∀ c ∈ rest.head?, allowed c = false

/-- Characters that may go on with a number. -/
def isNumeric (c : Char) : Bool := c.isDigit || c = '.' || c = 'e' || c = 'E'

section Numbers

variable {s rest ds : List Char}

theorem Stops.weaken {p q : Char → Bool} (stops : Stops p rest)
    (weaker : ∀ c, q c = true → p c = true) : Stops q rest := by
  intro c first
  have other := stops c first
  cases allowed : q c with
  | true => exact absurd (weaker c allowed) (by simp [other])
  | false => rfl

theorem Stops.append {p : Char → Bool} (first : Stops p s) (second : Stops p rest) :
    Stops p (s ++ rest) := by
  cases s with
  | nil => exact second
  | cons c s => exact first

theorem Stops.digits (stops : Stops isNumeric rest) : Stops Char.isDigit rest :=
  stops.weaken fun c digit => by simp [isNumeric, digit]

theorem no_sign {c : Char} (digit : c.isDigit = true) : c ≠ '-' ∧ c ≠ '+' := by
  constructor <;> (rintro rfl; cases digit)

theorem digits?_eq_some_iff :
    Numeral.digits? s = some (ds, rest) ↔ s = ds ++ rest ∧ Digits ds ∧ Stops Char.isDigit rest := by
  have taken : Numeral.digits? s =
      if s.takeWhile Char.isDigit = [] then none
      else some (s.takeWhile Char.isDigit, s.dropWhile Char.isDigit) := by
    unfold Numeral.digits?
    split
    case h_1 none => rw [if_pos none]
    case h_2 some => rw [if_neg some]
  rw [taken]
  constructor
  · intro read
    split at read
    case isTrue => cases read
    case isFalse filled =>
      cases read
      refine ⟨List.takeWhile_append_dropWhile.symm, ⟨filled, ?_⟩, ?_⟩
      · exact fun c mem => List.mem_takeWhile_imp mem
      · intro c first
        have := List.head?_dropWhile_not Char.isDigit s
        rw [Option.mem_def.mp first] at this
        simpa using this
  · rintro ⟨rfl, ⟨filled, digits⟩, stops⟩
    have after : rest.takeWhile Char.isDigit = [] ∧ rest.dropWhile Char.isDigit = rest := by
      cases rest with
      | nil => exact ⟨rfl, rfl⟩
      | cons c rest => simp [stops c rfl]
    rw [List.takeWhile_append_of_pos digits, List.dropWhile_append_of_pos digits, after.1,
      after.2, List.append_nil, if_neg filled]

theorem whole?_eq_some_iff :
    Numeral.whole? s = some (ds, rest) ↔
      s = ds ++ rest ∧ WholeDigits ds ∧ Stops Char.isDigit rest := by
  constructor
  · intro read
    unfold Numeral.whole? at read
    split at read
    case h_1 r =>
      split at read
      case h_1 c t =>
        split at read
        case isTrue => cases read
        case isFalse other =>
          cases read
          exact ⟨rfl, .inl rfl, fun d first => by cases first; simpa using other⟩
      case h_2 =>
        cases read
        exact ⟨rfl, .inl rfl, nofun⟩
    case h_2 noZero =>
      obtain ⟨rfl, digits, stops⟩ := digits?_eq_some_iff.mp read
      refine ⟨rfl, .inr ⟨digits, ?_⟩, stops⟩
      intro zero
      obtain ⟨more, rfl⟩ := List.head?_eq_some_iff.mp zero
      exact noZero _ rfl
  · rintro ⟨rfl, rfl | ⟨digits, noZero⟩, stops⟩
    · cases rest with
      | nil => rfl
      | cons c rest => simp [Numeral.whole?, stops c rfl]
    · unfold Numeral.whole?
      split
      case h_1 r zero =>
        obtain ⟨c, ds, rfl⟩ := List.exists_cons_of_ne_nil digits.1
        cases zero
        exact absurd rfl noZero
      case h_2 => exact digits?_eq_some_iff.mpr ⟨rfl, digits, stops⟩

theorem fraction?_sound {f : Option (List Char)} (read : Numeral.fraction? s = some (f, rest)) :
    ∃ body, s = body ++ rest ∧ Fraction f body := by
  unfold Numeral.fraction? at read
  split at read
  case h_1 =>
    obtain ⟨⟨ds, r⟩, digits, same⟩ := Option.map_eq_some_iff.mp read
    cases same
    obtain ⟨rfl, digits, -⟩ := digits?_eq_some_iff.mp digits
    exact ⟨'.' :: ds, rfl, .point digits⟩
  case h_2 =>
    cases read
    exact ⟨[], rfl, .none⟩

theorem fraction?_complete {f : Option (List Char)} {body : List Char} (part : Fraction f body)
    (stops : Stops (fun c => c.isDigit || c = '.') rest) :
    Numeral.fraction? (body ++ rest) = some (f, rest) := by
  cases part with
  | none =>
      rw [List.nil_append]
      unfold Numeral.fraction?
      split
      case h_1 => exact absurd (stops '.' rfl) (by decide)
      case h_2 => rfl
  | point digits =>
      have ends : Stops Char.isDigit rest := stops.weaken fun c digit => by simp [digit]
      rw [List.cons_append, Numeral.fraction?, digits?_eq_some_iff.mpr ⟨rfl, digits, ends⟩]
      rfl

theorem exponent?_sound {e : Option (Bool × List Char)}
    (read : Numeral.exponent? s = some (e, rest)) : ∃ body, s = body ++ rest ∧ Exponent e body := by
  unfold Numeral.exponent? at read
  split at read
  case h_2 =>
    cases read
    exact ⟨[], rfl, .none⟩
  case h_1 c t =>
    split at read
    case isFalse =>
      cases read
      exact ⟨[], rfl, .none⟩
    case isTrue letter =>
      have letter : c = 'e' ∨ c = 'E' := by simpa using letter
      split at read
      all_goals
        obtain ⟨⟨ds, r⟩, digits, same⟩ := Option.map_eq_some_iff.mp read
        cases same
        obtain ⟨rfl, digits, -⟩ := digits?_eq_some_iff.mp digits
      case h_1 => exact ⟨c :: '-' :: ds, rfl, .minus letter digits⟩
      case h_2 => exact ⟨c :: '+' :: ds, rfl, .plus letter digits⟩
      case h_3 => exact ⟨c :: ds, rfl, .unsigned letter digits⟩

theorem exponent?_of_letter {e : Char} (letter : e = 'e' ∨ e = 'E') (s : List Char) :
    Numeral.exponent? (e :: s) =
      match s with
      | '-' :: s => (Numeral.digits? s).map fun (ds, r) => (some (true, ds), r)
      | '+' :: s => (Numeral.digits? s).map fun (ds, r) => (some (false, ds), r)
      | s => (Numeral.digits? s).map fun (ds, r) => (some (false, ds), r) := by
  unfold Numeral.exponent?
  exact if_pos (by simpa using letter)

theorem exponent?_complete {e : Option (Bool × List Char)} {body : List Char}
    (scale : Exponent e body) (stops : Stops isNumeric rest) :
    Numeral.exponent? (body ++ rest) = some (e, rest) := by
  cases scale with
  | none =>
      cases rest with
      | nil => rfl
      | cons c rest =>
          have other := stops c rfl
          simp only [isNumeric, Bool.or_eq_false_iff] at other
          unfold Numeral.exponent?
          simp [other.2, other.1.2]
  | unsigned letter digits =>
      have read := digits?_eq_some_iff.mpr ⟨rfl, digits, stops.digits⟩
      obtain ⟨d, ds, rfl⟩ := List.exists_cons_of_ne_nil digits.1
      have first := digits.2 d List.mem_cons_self
      rw [List.cons_append, exponent?_of_letter letter]
      split
      case h_1 _ same => exact absurd (List.cons.inj same).1 (no_sign first).1
      case h_2 _ same => exact absurd (List.cons.inj same).1 (no_sign first).2
      case h_3 =>
        rw [read]
        rfl
  | plus letter digits =>
      rw [List.cons_append, exponent?_of_letter letter, List.cons_append]
      simp only [digits?_eq_some_iff.mpr ⟨rfl, digits, stops.digits⟩]
      rfl
  | minus letter digits =>
      rw [List.cons_append, exponent?_of_letter letter, List.cons_append]
      simp only [digits?_eq_some_iff.mpr ⟨rfl, digits, stops.digits⟩]
      rfl

/-- A number behind its sign. -/
def unsigned? (negative : Bool) (s : List Char) : Option (Numeral × List Char) := do
  let (whole, s) ← Numeral.whole? s
  let (fraction, s) ← Numeral.fraction? s
  let (exponent, s) ← Numeral.exponent? s
  some (⟨negative, whole, fraction, exponent⟩, s)

theorem read?_minus (s : List Char) : Numeral.read? ('-' :: s) = unsigned? true s := rfl

theorem read?_plain (noSign : s.head? ≠ some '-') : Numeral.read? s = unsigned? false s := by
  cases s with
  | nil => rfl
  | cons c s =>
      have other : c ≠ '-' := fun same => noSign (congrArg some same)
      unfold Numeral.read?
      split
      case h_1 negative r same =>
        split at same
        case h_1 => simp_all
        case h_2 =>
          cases same
          rfl

theorem unsigned?_sound {negative : Bool} {n : Numeral}
    (read : unsigned? negative s = some (n, rest)) :
    n.negative = negative ∧ ∃ body, s = body ++ rest ∧ Magnitude n body := by
  obtain ⟨⟨whole, u⟩, first, read⟩ := Option.bind_eq_some_iff.mp read
  obtain ⟨⟨fraction, v⟩, second, read⟩ := Option.bind_eq_some_iff.mp read
  obtain ⟨⟨exponent, w⟩, third, read⟩ := Option.bind_eq_some_iff.mp read
  cases read
  obtain ⟨rfl, whole, -⟩ := whole?_eq_some_iff.mp first
  obtain ⟨f, rfl, part⟩ := fraction?_sound second
  obtain ⟨e, rfl, scale⟩ := exponent?_sound third
  exact ⟨rfl, _, by simp, .written whole part scale⟩

theorem Magnitude.begins {n : Numeral} {body : List Char} (magnitude : Magnitude n body) :
    ∃ c t, body = c :: t ∧ c.isDigit = true := by
  cases magnitude with
  | written whole part scale =>
      rcases whole with zero | ⟨⟨filled, digits⟩, -⟩
      · exact ⟨'0', _, by rw [zero]; rfl, rfl⟩
      · obtain ⟨c, t, same⟩ := List.exists_cons_of_ne_nil filled
        exact ⟨c, _, by rw [same]; rfl, digits c (by simp [same])⟩

theorem Fraction.stops {f : Option (List Char)} {body : List Char} (part : Fraction f body) :
    Stops Char.isDigit body := by
  cases part with
  | none => exact nofun
  | point => exact fun c first => by cases first; rfl

theorem Exponent.stops {e : Option (Bool × List Char)} {body : List Char}
    (scale : Exponent e body) : Stops (fun c => c.isDigit || c = '.') body := by
  cases scale with
  | none => exact nofun
  | unsigned letter | plus letter | minus letter =>
      intro c first
      cases first
      rcases letter with rfl | rfl <;> rfl

theorem NumberText.begins {n : Numeral} {body : List Char} (text : NumberText n body) :
    ∃ c t, body = c :: t ∧ (c.isDigit = true ∨ c = '-') := by
  cases text with
  | plain _ magnitude =>
      obtain ⟨c, t, rfl, digit⟩ := magnitude.begins
      exact ⟨c, t, rfl, .inl digit⟩
  | minus => exact ⟨'-', _, rfl, .inr rfl⟩

theorem unsigned?_complete {n : Numeral} {body : List Char} (magnitude : Magnitude n body)
    (stops : Stops isNumeric rest) :
    unsigned? n.negative (body ++ rest) = some (n, rest) := by
  cases magnitude with
  | @written fraction exponent whole part scale =>
      have behindFraction : Stops (fun c => c.isDigit || c = '.') (exponent ++ rest) :=
        .append scale.stops (stops.weaken fun c numeric => by grind [isNumeric])
      have behindWhole : Stops Char.isDigit (fraction ++ (exponent ++ rest)) :=
        .append part.stops (behindFraction.weaken fun c digit => by simp [digit])
      have first := whole?_eq_some_iff.mpr ⟨rfl, whole, behindWhole⟩
      have second := fraction?_complete part behindFraction
      have third := exponent?_complete scale stops
      simp only [List.append_assoc, unsigned?, first, second, third, Option.bind_eq_bind,
        Option.bind_some]

theorem read?_sound {n : Numeral} (read : Numeral.read? s = some (n, rest)) :
    ∃ body, s = body ++ rest ∧ NumberText n body := by
  by_cases signed : s.head? = some '-'
  · obtain ⟨t, rfl⟩ := List.head?_eq_some_iff.mp signed
    rw [read?_minus] at read
    obtain ⟨sign, body, rfl, magnitude⟩ := unsigned?_sound read
    exact ⟨'-' :: body, rfl, .minus sign magnitude⟩
  · rw [read?_plain signed] at read
    obtain ⟨sign, body, rfl, magnitude⟩ := unsigned?_sound read
    exact ⟨body, rfl, .plain sign magnitude⟩

theorem read?_complete {n : Numeral} {body : List Char} (text : NumberText n body)
    (stops : Stops isNumeric rest) : Numeral.read? (body ++ rest) = some (n, rest) := by
  cases text with
  | plain sign magnitude =>
      have noSign : (body ++ rest).head? ≠ some '-' := by
        obtain ⟨c, t, rfl, digit⟩ := magnitude.begins
        rintro same
        exact (no_sign digit).1 (Option.some.inj same)
      rw [read?_plain noSign, ← sign]
      exact unsigned?_complete magnitude stops
  | minus sign magnitude =>
      rw [List.cons_append, read?_minus, ← sign]
      exact unsigned?_complete magnitude stops

end Numbers

end NoteAssistant.Json
