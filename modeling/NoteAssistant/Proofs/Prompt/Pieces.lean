import Mathlib.Data.List.Find
import Mathlib.Data.List.Pairwise
import NoteAssistant.Proofs.Text.Search
import NoteAssistant.Prompt.Substitution

/-! # Where a template is filled in

The template and the tokens alone decide which places are filled in: `pieces` cuts a template
into single characters and tokens, and filling in writes the pieces one after another
(`fill_eq`). The values have no say in this, and what they hold is not looked at. A line break
is a joint at which every template comes apart, since no token contains one (`pieces_joint`).
-/

namespace NoteAssistant

namespace Substitution

/-- A piece of a template. -/
inductive Piece where
  /-- A character that stays as it is. -/
  | letter (c : Char)
  /-- A token that a value is put in place of. -/
  | slot (token : List Char)
  deriving DecidableEq

namespace Piece

def text : Piece → List Char
  | letter c => [c]
  | slot token => token

def token? : Piece → Option (List Char)
  | letter _ => none
  | slot token => some token

/-- What is written for a piece. Of two values for one token the first one counts. -/
def filled (vars : Bindings) : Piece → List Char
  | letter c => [c]
  | slot token => (vars.lookup token).getD []

end Piece

/-- The text that pieces are cut from. -/
def joined (ps : List Piece) : List Char := ps.flatMap Piece.text

/-- The token that is filled in at the beginning of a text: the first listed one with which the
    text begins, if it begins with a dollar sign and a brace. -/
def tokenAt? (tokens : List (List Char)) (s : List Char) : Option (List Char) :=
  if ['$', '{'].isPrefixOf s then tokens.find? (·.isPrefixOf s) else none

/-- A template cut at its tokens. -/
def pieces (tokens : List (List Char)) (s : List Char) : List Piece :=
  match s with
  | [] => []
  | c :: t =>
    match tokenAt? tokens (c :: t) with
    | some (a :: token) => .slot (a :: token) :: pieces tokens (t.drop token.length)
    | _ => .letter c :: pieces tokens t
termination_by s.length
decreasing_by
  all_goals simp only [List.length_drop, List.length_cons]; omega

section Cutting

variable {tokens : List (List Char)} {s token : List Char}

theorem prefix_of_tokenAt? (h : tokenAt? tokens s = some token) : token <+: s := by
  unfold tokenAt? at h
  split at h
  case isTrue => simpa using List.find?_some h
  case isFalse => cases h

theorem mem_of_tokenAt? (h : tokenAt? tokens s = some token) : token ∈ tokens := by
  unfold tokenAt? at h
  split at h
  case isTrue => exact List.mem_of_find?_eq_some h
  case isFalse => cases h

theorem tokenAt?_eq_none {c : Char} {t : List Char} (other : ¬ ['$', '{'] <+: c :: t) :
    tokenAt? tokens (c :: t) = none :=
  if_neg (by simpa using other)

theorem pieces_nil (tokens : List (List Char)) : pieces tokens [] = [] := by simp [pieces]

theorem pieces_letter {c : Char} {t : List Char} (h : tokenAt? tokens (c :: t) = none) :
    pieces tokens (c :: t) = .letter c :: pieces tokens t := by
  rw [pieces, h]

theorem pieces_slot {rest : List Char} (filled : token ≠ [])
    (h : tokenAt? tokens (token ++ rest) = some token) :
    pieces tokens (token ++ rest) = .slot token :: pieces tokens rest := by
  cases token with
  | nil => exact absurd rfl filled
  | cons a token =>
      rw [List.cons_append] at h ⊢
      rw [pieces, h]
      simp

/-- A template is read from the left, one piece after another. -/
theorem piecewise (nonempty : ∀ token ∈ tokens, token ≠ []) {motive : List Char → Prop}
    (nil : motive [])
    (letter : ∀ c t, tokenAt? tokens (c :: t) = none → motive t → motive (c :: t))
    (slot : ∀ token rest, token ≠ [] → tokenAt? tokens (token ++ rest) = some token →
      motive rest → motive (token ++ rest))
    (s : List Char) : motive s := by
  induction h : s.length using Nat.strongRecOn generalizing s with
  | ind n ih =>
      subst h
      cases s with
      | nil => exact nil
      | cons c t =>
          cases here : tokenAt? tokens (c :: t) with
          | none => exact letter c t here (ih t.length (by simp) t rfl)
          | some token =>
              have filled := nonempty token (mem_of_tokenAt? here)
              obtain ⟨rest, whole⟩ := prefix_of_tokenAt? here
              have shorter : rest.length < (c :: t).length := by
                have := List.length_pos_iff.mpr filled
                rw [← whole, List.length_append]
                omega
              rw [← whole] at here ⊢
              exact slot token rest filled here (ih rest.length shorter rest rfl)

end Cutting

section Laws

variable {tokens : List (List Char)} (nonempty : ∀ token ∈ tokens, token ≠ [])
include nonempty

theorem joined_pieces (s : List Char) : joined (pieces tokens s) = s := by
  induction s using piecewise nonempty with
  | nil => simp [pieces_nil, joined]
  | letter c t plain ih =>
      rw [pieces_letter plain, joined, List.flatMap_cons]
      exact congrArg (c :: ·) ih
  | slot token rest filled here ih =>
      rw [pieces_slot filled here, joined, List.flatMap_cons]
      exact congrArg (token ++ ·) ih

/-- What follows a piece is cut as if nothing stood in front of it. -/
theorem pieces_append {s : List Char} {before after : List Piece}
    (h : pieces tokens s = before ++ after) : pieces tokens (joined after) = after := by
  induction s using piecewise nonempty generalizing before with
  | nil =>
      rw [pieces_nil] at h
      obtain ⟨rfl, rfl⟩ := List.append_eq_nil_iff.mp h.symm
      exact pieces_nil tokens
  | letter c t plain ih =>
      cases before with
      | nil => rw [← List.nil_append after, ← h, joined_pieces nonempty]
      | cons p before =>
          rw [pieces_letter plain, List.cons_append] at h
          exact ih (List.cons.inj h).2
  | slot token rest filled here ih =>
      cases before with
      | nil => rw [← List.nil_append after, ← h, joined_pieces nonempty]
      | cons p before =>
          rw [pieces_slot filled here, List.cons_append] at h
          exact ih (List.cons.inj h).2

/-- A piece is a token if and only if the token is the one to fill in there. -/
theorem token?_of_pieces {s : List Char} {before after : List Piece} {p : Piece}
    (h : pieces tokens s = before ++ p :: after) :
    p.token? = tokenAt? tokens (p.text ++ joined after) := by
  have cut : pieces tokens (p.text ++ joined after) = p :: after := pieces_append nonempty h
  generalize p.text ++ joined after = t at cut
  induction t using piecewise nonempty with
  | nil => simp [pieces_nil] at cut
  | letter c t plain =>
      rw [pieces_letter plain] at cut
      rw [← (List.cons.inj cut).1, plain]
      rfl
  | slot token rest filled here =>
      rw [pieces_slot filled here] at cut
      rw [← (List.cons.inj cut).1, here]
      rfl

end Laws

section Joints

variable {tokens : List (List Char)}

/-- A line break ends what can be found in front of it. -/
theorem isPrefixOf_joint {token : List Char} (unbroken : '\n' ∉ token) (a b : List Char) :
    token.isPrefixOf (a ++ '\n' :: b) = token.isPrefixOf a := by
  induction token generalizing a with
  | nil => simp
  | cons c token ih =>
      have other : c ≠ '\n' := fun same => unbroken (same ▸ List.mem_cons_self)
      have rest : '\n' ∉ token := fun mem => unbroken (List.mem_cons_of_mem c mem)
      cases a with
      | nil => simp [List.isPrefixOf, other]
      | cons d a => simp [List.isPrefixOf, ih rest]

theorem tokenAt?_joint (unbroken : ∀ token ∈ tokens, '\n' ∉ token) (a b : List Char) :
    tokenAt? tokens (a ++ '\n' :: b) = tokenAt? tokens a := by
  have listed : tokens.find? (·.isPrefixOf (a ++ '\n' :: b)) = tokens.find? (·.isPrefixOf a) :=
    List.find?_congr fun token mem => isPrefixOf_joint (unbroken token mem) a b
  rw [tokenAt?, tokenAt?, isPrefixOf_joint (by decide), listed]

/-- A template comes apart at a line break. No token is made, lost or split there. -/
theorem pieces_joint (nonempty : ∀ token ∈ tokens, token ≠ [])
    (unbroken : ∀ token ∈ tokens, '\n' ∉ token) (a b : List Char) :
    pieces tokens (a ++ '\n' :: b) = pieces tokens a ++ .letter '\n' :: pieces tokens b := by
  induction a using piecewise nonempty with
  | nil =>
      have none : tokenAt? tokens ('\n' :: b) = none := tokenAt?_eq_none (by simp)
      rw [List.nil_append, pieces_letter none, pieces_nil, List.nil_append]
  | letter c t plain ih =>
      have plain' : tokenAt? tokens (c :: (t ++ '\n' :: b)) = none :=
        (tokenAt?_joint unbroken (c :: t) b).trans plain
      rw [List.cons_append, pieces_letter plain', pieces_letter plain, ih, List.cons_append]
  | slot token rest filled here ih =>
      have here' : tokenAt? tokens (token ++ (rest ++ '\n' :: b)) = some token := by
        rw [← List.append_assoc, tokenAt?_joint unbroken, here]
      rw [List.append_assoc, pieces_slot filled here', pieces_slot filled here, ih,
        List.cons_append]

end Joints

section Filling

variable {vars : Bindings}

theorem match?_eq (nonempty : ∀ v ∈ vars, v.1 ≠ []) (s : List Char) :
    match? vars s =
      (vars.find? (·.1.isPrefixOf s)).map fun v => (v.2, s.drop v.1.length) := by
  induction vars with
  | nil => rfl
  | cons v vars ih =>
      obtain ⟨token, value⟩ := v
      have filled : token ≠ [] := nonempty _ List.mem_cons_self
      have rest := ih fun v mem => nonempty v (List.mem_cons_of_mem _ mem)
      cases token with
      | nil => exact absurd rfl filled
      | cons c token =>
          unfold match?
          rw [Text.after?_eq, List.find?_cons]
          cases here : (c :: token).isPrefixOf s with
          | true => rfl
          | false => exact rest

theorem lookup_of_find? {s token value : List Char}
    (h : vars.find? (·.1.isPrefixOf s) = some (token, value)) :
    vars.lookup token = some value := by
  have there := List.find?_some h
  induction vars with
  | nil => cases h
  | cons v vars ih =>
      rw [List.find?_cons] at h
      split at h
      case h_1 =>
        obtain rfl := Option.some.inj h
        simp
      case h_2 other =>
        have apart : (token == v.1) = false := by
          rw [beq_eq_false_iff_ne]
          rintro rfl
          simp [there] at other
        rw [List.lookup_cons, apart]
        exact ih h

theorem tokenAt?_map (s : List Char) (begins : ['$', '{'] <+: s) :
    tokenAt? (vars.map (·.1)) s = (vars.find? (·.1.isPrefixOf s)).map (·.1) := by
  rw [tokenAt?, if_pos (by simpa using begins), List.find?_map]
  rfl

theorem fill_letter (nonempty : ∀ v ∈ vars, v.1 ≠ []) {c : Char} {t : List Char}
    (plain : tokenAt? (vars.map (·.1)) (c :: t) = none) :
    fill vars (c :: t) = c :: fill vars t := by
  by_cases begins : ['$', '{'] <+: c :: t
  · obtain ⟨rest, whole⟩ := id begins
    obtain ⟨rfl, rfl⟩ : '$' = c ∧ '{' :: rest = t := by simpa using whole
    have unmatched : match? vars ('$' :: '{' :: rest) = none := by
      rw [tokenAt?_map _ begins, Option.map_eq_none_iff] at plain
      rw [match?_eq nonempty, plain]
      rfl
    have brace : fill vars ('{' :: rest) = '{' :: fill vars rest := by
      rw [fill]
      simp
    rw [fill, brace]
    split
    case h_1 value r matched => simp [unmatched] at matched
    case h_2 => rfl
  · rw [fill]
    rintro rest rfl rfl
    exact begins ⟨rest, rfl⟩

theorem fill_slot (nonempty : ∀ v ∈ vars, v.1 ≠ []) {token rest : List Char}
    (here : tokenAt? (vars.map (·.1)) (token ++ rest) = some token) :
    fill vars (token ++ rest) = (vars.lookup token).getD [] ++ fill vars rest := by
  have begins : ['$', '{'] <+: token ++ rest := by
    unfold tokenAt? at here
    split at here
    case isTrue begins => simpa using begins
    case isFalse => cases here
  rw [tokenAt?_map _ begins, Option.map_eq_some_iff] at here
  obtain ⟨⟨token, value⟩, found, rfl⟩ := here
  dsimp only at found begins ⊢
  have matched : match? vars (token ++ rest) = some (value, rest) := by
    rw [match?_eq nonempty, found]
    simp
  rw [lookup_of_find? found]
  obtain ⟨tail, whole⟩ := begins
  rw [← whole] at matched ⊢
  change match? vars ('$' :: '{' :: tail) = _ at matched
  change fill vars ('$' :: '{' :: tail) = _
  rw [fill]
  split
  case h_1 v r same =>
    obtain ⟨rfl, rfl⟩ : v = value ∧ r = rest := by simpa [matched] using same.symm
    rfl
  case h_2 none => simp [matched] at none

/-- Filling in writes the pieces one after another. -/
theorem fill_eq (nonempty : ∀ v ∈ vars, v.1 ≠ []) (s : List Char) :
    fill vars s = (pieces (vars.map (·.1)) s).flatMap (Piece.filled vars) := by
  have tokens : ∀ token ∈ vars.map (·.1), token ≠ [] := by simpa using nonempty
  induction s using piecewise tokens with
  | nil => simp [fill, pieces_nil]
  | letter c t plain ih =>
      rw [fill_letter nonempty plain, pieces_letter plain, List.flatMap_cons, ih]
      rfl
  | slot token rest filled here ih =>
      rw [fill_slot nonempty here, pieces_slot filled here, List.flatMap_cons, ih]
      rfl

end Filling

section Order

/-- Of two tokens neither begins with the other. -/
def Apart (token other : List Char) : Prop := ¬ token <+: other ∧ ¬ other <+: token

theorem match?_perm {vars vars' : Bindings} (nonempty : ∀ v ∈ vars, v.1 ≠ [])
    (perm : vars.Perm vars') (apart : vars.Pairwise fun a b => Apart a.1 b.1) (s : List Char) :
    match? vars s = match? vars' s := by
  have nonempty' : ∀ v ∈ vars', v.1 ≠ [] := fun v mem => nonempty v (perm.mem_iff.mpr mem)
  have : Std.Symm fun a b : List Char × List Char => Apart a.1 b.1 := ⟨fun _ _ h => h.symm⟩
  rw [match?_eq nonempty, match?_eq nonempty']
  congr 1
  refine List.find?_eq_find?_of_perm perm ?_
  rintro a ⟨ha, first⟩ b ⟨hb, second⟩
  by_contra other
  obtain ⟨left, right⟩ := apart.forall ha hb other
  rw [List.isPrefixOf_iff_prefix] at first second
  exact (List.prefix_or_prefix_of_prefix first second).elim left right

theorem fill_congr {vars vars' : Bindings} (same : ∀ s, match? vars s = match? vars' s)
    (s : List Char) : fill vars s = fill vars' s := by
  fun_induction fill vars s with
  | case1 t value r matched ih =>
      rw [fill]
      split
      case h_1 v q found =>
        obtain ⟨rfl, rfl⟩ : value = v ∧ r = q := by simpa [← same, matched] using found
        rw [ih]
      case h_2 none => simp [← same, matched] at none
  | case2 t unmatched ih =>
      rw [fill]
      split
      case h_1 v q found => simp [← same, unmatched] at found
      case h_2 => rw [ih]
  | case3 c t other ih =>
      rw [fill, ih]
      exact other
  | case4 => rw [fill]

end Order

section Places

/-- A place of a template that lies inside one of the tokens that are filled in. -/
def Inside (ps : List Piece) (place : Nat) : Prop :=
  ∃ before token after, ps = before ++ .slot token :: after
    ∧ (joined before).length < place ∧ place < (joined before).length + token.length

theorem Inside.cons {ps : List Piece} {place : Nat} (p : Piece) (h : Inside ps place) :
    Inside (p :: ps) (p.text.length + place) := by
  obtain ⟨before, token, after, rfl, low, high⟩ := h
  have front : (joined (p :: before)).length = p.text.length + (joined before).length := by
    rw [joined, List.flatMap_cons, List.length_append, joined]
  exact ⟨p :: before, token, after, rfl, by omega, by omega⟩

/-- Every place of a template lies between two pieces or inside a token. -/
theorem boundary_or_inside {ps : List Piece} {a b : List Char} (h : joined ps = a ++ b) :
    (∃ before after, ps = before ++ after ∧ joined before = a ∧ joined after = b)
      ∨ Inside ps a.length := by
  induction ps generalizing a with
  | nil =>
      obtain ⟨rfl, rfl⟩ := List.append_eq_nil_iff.mp h.symm
      exact .inl ⟨[], [], rfl, rfl, rfl⟩
  | cons p ps ih =>
      have split : p.text ++ joined ps = a ++ b := h
      rcases List.append_eq_append_iff.mp split with ⟨rest, rfl, back⟩ | ⟨rest, front, rfl⟩
      · rcases ih back with ⟨before, after, rfl, rfl, rfl⟩ | inside
        · exact .inl ⟨p :: before, after, rfl, rfl, rfl⟩
        · rw [List.length_append]
          exact .inr (inside.cons p)
      · cases p with
        | letter c =>
            -- a place in front of the character or behind it
            rcases List.cons_eq_append_iff.mp front with ⟨rfl, rfl⟩ | ⟨_, rfl, none⟩
            · exact .inl ⟨[], _, rfl, rfl, rfl⟩
            · obtain ⟨rfl, rfl⟩ := List.append_eq_nil_iff.mp none.symm
              exact .inl ⟨[.letter c], ps, rfl, rfl, rfl⟩
        | slot token =>
            change token = a ++ rest at front
            subst front
            by_cases first : a = []
            · subst first
              exact .inl ⟨[], _, rfl, rfl, rfl⟩
            · by_cases last : rest = []
              · subst last
                exact .inl ⟨[.slot (a ++ [])], ps, rfl, by simp [joined, Piece.text], rfl⟩
              · refine .inr ⟨[], a ++ rest, ps, rfl, List.length_pos_iff.mpr first, ?_⟩
                have := List.length_pos_iff.mpr last
                rw [List.length_append]
                omega

/-- How the pieces of a template lie in it. -/
structure Cuts (tokens : List (List Char)) (template : List Char) (ps : List Piece) : Prop where
  whole : joined ps = template
  /-- Every step of the pass goes forward. -/
  forward : ∀ p ∈ ps, p.text ≠ []
  /-- A slot holds the first listed token that begins there. -/
  slot : ∀ before token after, ps = before ++ .slot token :: after →
    tokenAt? tokens (token ++ joined after) = some token
  /-- Where a token begins it is filled in, unless that is inside a token filled in already. -/
  place : ∀ before after, template = before ++ after → ['$', '{'] <+: after →
    (∃ token ∈ tokens, token <+: after) →
    (∃ ps₁ token ps₂, ps = ps₁ ++ .slot token :: ps₂ ∧ joined ps₁ = before)
      ∨ Inside ps before.length

theorem pieces_cuts {tokens : List (List Char)} (nonempty : ∀ token ∈ tokens, token ≠ [])
    (template : List Char) : Cuts tokens template (pieces tokens template) := by
  have whole := joined_pieces nonempty template
  refine ⟨whole, ?_, ?_, ?_⟩
  · intro p mem
    cases p with
    | letter c => exact List.cons_ne_nil c []
    | slot token =>
        obtain ⟨before, after, cut⟩ := List.append_of_mem mem
        exact nonempty token (mem_of_tokenAt? (token?_of_pieces nonempty cut).symm)
  · intro before token after cut
    exact (token?_of_pieces nonempty cut).symm
  · intro before after split begins listed
    rcases boundary_or_inside (whole.trans split) with ⟨ps₁, rest, cut, front, back⟩ | inside
    · obtain ⟨token, found⟩ : ∃ token, tokenAt? tokens after = some token := by
        rw [tokenAt?, if_pos (by simpa using begins), ← Option.isSome_iff_exists,
          List.find?_isSome]
        simpa using listed
      cases rest with
      | nil =>
          rw [← back] at begins
          simp [joined] at begins
      | cons p ps₂ =>
          have here := token?_of_pieces nonempty cut
          change joined (p :: ps₂) = after at back
          rw [show p.text ++ joined ps₂ = after from back, found] at here
          cases p with
          | letter c => cases here
          | slot t => exact .inl ⟨ps₁, t, ps₂, cut, front⟩
    · exact .inr inside

end Places

/-- Tokens and values as lists of characters. -/
def bound (vars : List (String × String)) : Bindings := vars.map fun (t, v) => (t.toList, v.toList)

theorem tokens_bound (vars : List (String × String)) :
    (bound vars).map (·.1) = (vars.map (·.1)).map String.toList := by
  simp [bound]

theorem bound_ne_nil {vars : List (String × String)} (h : ∀ token ∈ vars.map (·.1), token ≠ "") :
    ∀ v ∈ bound vars, v.1 ≠ [] := by
  intro v mem
  obtain ⟨⟨token, value⟩, there, rfl⟩ := List.mem_map.mp mem
  simpa using h token (List.mem_map_of_mem there)

theorem toList_substitute (template : String) (vars : List (String × String)) :
    (substitute template vars).toList = fill (bound vars) template.toList :=
  String.toList_ofList

end Substitution

open Substitution

/-- A template is filled in where its tokens stand and nowhere else, whatever the values are,
    and in one pass: of a value nothing but the value is written. -/
theorem substitute_pieces {tokens : List String} (nonempty : ∀ token ∈ tokens, token ≠ "")
    (template : String) :
    ∃ ps, Cuts (tokens.map String.toList) template.toList ps
      ∧ ∀ vars : List (String × String), vars.map (·.1) = tokens →
        (substitute template vars).toList = ps.flatMap (Piece.filled (bound vars))
          ∧ (tokens.Pairwise (fun a b => Apart a.toList b.toList) →
              ∀ others, vars.Perm others → substitute template others = substitute template vars) := by
  have chars : ∀ token ∈ tokens.map String.toList, token ≠ [] := by
    simpa [String.toList_eq_nil_iff] using nonempty
  refine ⟨pieces (tokens.map String.toList) template.toList, pieces_cuts chars _, ?_⟩
  rintro vars rfl
  have filled := bound_ne_nil nonempty
  constructor
  · rw [toList_substitute, fill_eq filled, tokens_bound]
  · intro apart others perm
    have apart' : (bound vars).Pairwise fun a b => Apart a.1 b.1 := by
      rw [← List.pairwise_map, tokens_bound, List.pairwise_map]
      exact apart
    apply String.toList_injective
    rw [toList_substitute, toList_substitute]
    exact (fill_congr (match?_perm filled (perm.map _) apart') template.toList).symm

/-- Two tokens that overlap in the template, and values that hold tokens. -/
theorem substitute_pieces_nested :
    let vars := [("$\x7bx\x7d", "$\x7by\x7d"), ("$\x7by\x7d", "Y$\x7bx\x7d")]
    let tokens := vars.map (·.1)
    let template := "$\x7b$\x7bx\x7d\x7d $$\x7by\x7d"
    (∀ token ∈ tokens, token ≠ "") ∧ tokens.Pairwise (fun a b => Apart a.toList b.toList)
      ∧ substitute template vars = "$\x7b$\x7by\x7d\x7d $Y$\x7bx\x7d"
      ∧ substitute template vars.reverse = substitute template vars
      ∧ ∃ ps, Cuts (tokens.map String.toList) template.toList ps
        ∧ (substitute template vars).toList =
          ps.flatMap (Piece.filled (bound vars)) := by
  intro vars tokens template
  have nonempty : ∀ token ∈ tokens, token ≠ "" := by decide +kernel
  have apart : tokens.Pairwise (fun a b => Apart a.toList b.toList) := by
    unfold Apart
    decide +kernel
  obtain ⟨ps, cuts, written⟩ := substitute_pieces nonempty template
  obtain ⟨eq, order⟩ := written vars rfl
  refine ⟨nonempty, apart, ?_, order apart _ (List.reverse_perm vars).symm, ps, cuts, eq⟩
  decide +kernel

end NoteAssistant
