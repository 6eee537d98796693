import NoteAssistant.Proofs.Mask.Passing

/-! # Text that is looked at again

Told by rules of its own, a scanner keeps its phase, the text it holds and the number of its
characters apart, and of a beginning that it gives up it releases the first character and reads
the others again, which may open another placeholder. This comes to an end in every state
(`Scanner.exists_scans`), and on its way through a text the scanner is in step with
`MaskRules.scan` (`Scanner.Scans.scan_eq`).
-/

namespace NoteAssistant

inductive Phase where
  | idle
  | suspect
  | confirmed
  deriving DecidableEq

structure Scanner where
  phase : Phase
  held : List Char
  /-- Characters that are held, as counted one by one. -/
  count : Nat

namespace Scanner

def fresh : Scanner := ⟨.idle, [], 0⟩

/-- The scanner with one more character held, in some phase. -/
def hold (k : Scanner) (c : Char) (phase : Phase) : Scanner :=
  ⟨phase, k.held ++ [c], k.count + 1⟩

/-- The scanner that holds what a state holds. -/
def ofState : MaskState → Scanner
  | .idle => fresh
  | .suspect held => ⟨.suspect, held, held.length⟩
  | .confirmed held => ⟨.confirmed, held, held.length⟩

/-- A character after which the beginning that is held is given up. -/
structure GivesUp (r : MaskRules) (k : Scanner) (c : Char) : Prop where
  suspect : k.phase = .suspect
  incomplete : k.held ++ [c] ≠ maskPrefix
  stuck : ¬ k.held ++ [c] <+: maskPrefix ∨ r.lookahead ≤ k.count + 1

/-- A character that is taken without giving up a beginning: the scanner after it, and what is
    released. -/
inductive Takes (r : MaskRules) (k : Scanner) : Char → Scanner → List Char → Prop where
  | passed {c : Char} (idle : k.phase = .idle) (other : c ≠ '$') : Takes r k c k [c]
  | opened (idle : k.phase = .idle) : Takes r k '$' (k.hold '$' .suspect) []
  | completed {c : Char} (suspect : k.phase = .suspect) (whole : k.held ++ [c] = maskPrefix) :
      Takes r k c (k.hold c .confirmed) []
  | grown {c : Char} (suspect : k.phase = .suspect) (incomplete : k.held ++ [c] ≠ maskPrefix)
      (part : k.held ++ [c] <+: maskPrefix) (near : k.count + 1 < r.lookahead) :
      Takes r k c (k.hold c .suspect) []
  | closed (confirmed : k.phase = .confirmed) :
      Takes r k ']' fresh (r.value (k.held ++ [']']))
  | overrun {c : Char} (confirmed : k.phase = .confirmed) (other : c ≠ ']')
      (long : r.maxSpan < k.count + 1) : Takes r k c fresh (k.held ++ [c])
  | continued {c : Char} (confirmed : k.phase = .confirmed) (other : c ≠ ']')
      (short : k.count + 1 ≤ r.maxSpan) : Takes r k c (k.hold c .confirmed) []

/-- A text that is taken character by character. Of a beginning that is given up all but the first
    character is taken again, by a scanner that holds nothing. -/
inductive Scans (r : MaskRules) : Scanner → List Char → Scanner → List Char → Prop where
  | nil {k : Scanner} : Scans r k [] k []
  | takes {k j l : Scanner} {c : Char} {cs out more : List Char} (takes : Takes r k c j out)
      (later : Scans r j cs l more) : Scans r k (c :: cs) l (out ++ more)
  | givesUp {k j l : Scanner} {c first : Char} {rest cs out more : List Char}
      (givesUp : GivesUp r k c) (split : k.held ++ [c] = first :: rest)
      (again : Scans r fresh rest j out) (later : Scans r j cs l more) :
      Scans r k (c :: cs) l (first :: out ++ more)

/-- A piece of text that is taken. Without placeholders to look for it passes as it is. -/
inductive Pushes (r : MaskRules) (k : Scanner) (text : List Char) : Scanner → List Char → Prop where
  | bare (none : r.masks.isEmpty = true) : Pushes r k text k text
  | scans {j : Scanner} {out : List Char} (some : r.masks.isEmpty = false)
      (scans : Scans r k text j out) : Pushes r k text j out

variable {r : MaskRules} {k j : Scanner} {c : Char} {text cs out : List Char}

theorem takes_or_givesUp (r : MaskRules) (k : Scanner) (c : Char) :
    (∃ j out, Takes r k c j out) ∨ GivesUp r k c := by
  cases phase : k.phase with
  | idle =>
      by_cases dollar : c = '$'
      · subst dollar
        exact .inl ⟨_, _, .opened phase⟩
      · exact .inl ⟨_, _, .passed phase dollar⟩
  | suspect =>
      by_cases whole : k.held ++ [c] = maskPrefix
      · exact .inl ⟨_, _, .completed phase whole⟩
      · by_cases stuck : ¬ k.held ++ [c] <+: maskPrefix ∨ r.lookahead ≤ k.count + 1
        · exact .inr ⟨phase, whole, stuck⟩
        · rw [not_or, Classical.not_not, Nat.not_le] at stuck
          exact .inl ⟨_, _, .grown phase whole stuck.1 stuck.2⟩
  | confirmed =>
      by_cases closing : c = ']'
      · subst closing
        exact .inl ⟨_, _, .closed phase⟩
      · by_cases long : r.maxSpan < k.count + 1
        · exact .inl ⟨_, _, .overrun phase closing long⟩
        · exact .inl ⟨_, _, .continued phase closing (by omega)⟩

theorem Takes.length_le (takes : Takes r k c j out) : j.held.length ≤ k.held.length + 1 := by
  cases takes <;> simp [hold, fresh]

theorem Scans.length_le (scans : Scans r k text j out) :
    j.held.length ≤ k.held.length + text.length := by
  induction scans with
  | nil => exact Nat.le_refl _
  | takes takes _ ih =>
      have first := takes.length_le
      rw [List.length_cons]
      omega
  | givesUp _ split _ _ again later =>
      have parts := congrArg List.length split
      simp [fresh] at parts again ⊢
      omega

/-- Every text is taken to its end, whatever is held. A text that is taken again is shorter than
    what was held and what is to come together. -/
theorem exists_scans (r : MaskRules) (k : Scanner) (text : List Char) :
    ∃ j out, Scans r k text j out := by
  match text with
  | [] => exact ⟨k, [], .nil⟩
  | c :: cs =>
      rcases takes_or_givesUp r k c with ⟨j, out, takes⟩ | givesUp
      · have shorter := takes.length_le
        obtain ⟨l, more, later⟩ := exists_scans r j cs
        exact ⟨l, out ++ more, .takes takes later⟩
      · obtain ⟨first, rest, split⟩ := List.exists_cons_of_ne_nil
          (List.append_ne_nil_of_right_ne_nil k.held (List.cons_ne_nil c []))
        have parts : k.held.length = rest.length := by simpa using congrArg List.length split
        obtain ⟨j, out, again⟩ := exists_scans r fresh rest
        have shorter := again.length_le
        obtain ⟨l, more, later⟩ := exists_scans r j cs
        exact ⟨l, first :: out ++ more, .givesUp givesUp split again later⟩
termination_by (k.held.length + text.length, text.length)
decreasing_by
  · simp only [List.length_cons, Prod.lex_def]
    omega
  · simp only [fresh, List.length_nil, List.length_cons, Prod.lex_def]
    omega
  · simp only [fresh, List.length_nil, List.length_cons, Prod.lex_def] at shorter ⊢
    omega

/-! ## In step with the text -/

section InStep

variable {s : MaskState}

theorem Takes.step_eq (takes : Takes r (ofState s) c j out) :
    j = ofState (r.step s c).1 ∧ out = (r.step s c).2 := by
  cases s with
  | idle =>
      cases takes with
      | passed _ other => simp [MaskRules.step, MaskRules.start, other, ofState]
      | opened => exact ⟨rfl, rfl⟩
      | completed phase | grown phase | closed phase | overrun phase | continued phase =>
          cases phase
  | suspect held =>
      cases takes with
      | passed phase | opened phase | closed phase | overrun phase | continued phase => cases phase
      | completed _ whole =>
          have whole : held ++ [c] = maskPrefix := whole
          simp only [MaskRules.step, if_pos whole]
          simp [ofState, hold]
      | grown _ incomplete part near =>
          have incomplete : held ++ [c] ≠ maskPrefix := incomplete
          have near : (held ++ [c]).length < r.lookahead := by simpa [ofState] using near
          have growing : ((held ++ [c]).isPrefixOf maskPrefix &&
              decide ((held ++ [c]).length < r.lookahead)) = true := by
            rw [Bool.and_eq_true, List.isPrefixOf_iff_prefix, decide_eq_true_eq]
            exact ⟨part, near⟩
          simp only [MaskRules.step, if_neg incomplete, growing, if_true]
          simp [ofState, hold]
  | confirmed held =>
      cases takes with
      | passed phase | opened phase | completed phase | grown phase => cases phase
      | closed => exact ⟨rfl, rfl⟩
      | overrun _ other long =>
          have long : r.maxSpan < (held ++ [c]).length := by simpa [ofState] using long
          simp only [MaskRules.step, if_neg other, if_pos long]
          exact ⟨rfl, rfl⟩
      | continued _ other short =>
          have short : ¬ r.maxSpan < (held ++ [c]).length := by simpa [ofState] using short
          simp only [MaskRules.step, if_neg other, if_neg short]
          simp [ofState, hold]

theorem GivesUp.exists_suspect (givesUp : GivesUp r (ofState s) c) :
    ∃ held, s = .suspect held ∧
      r.step s c = ((MaskRules.start c).1, held ++ (MaskRules.start c).2) := by
  obtain ⟨phase, incomplete, stuck⟩ := givesUp
  cases s with
  | idle | confirmed => cases phase
  | suspect held =>
      have stuck : ¬ ((held ++ [c]).isPrefixOf maskPrefix &&
          decide ((held ++ [c]).length < r.lookahead)) = true := by
        rw [Bool.and_eq_true, List.isPrefixOf_iff_prefix, decide_eq_true_eq, not_and, Nat.not_lt]
        intro part
        simpa [ofState, part] using stuck
      have incomplete : held ++ [c] ≠ maskPrefix := incomplete
      refine ⟨held, rfl, ?_⟩
      simp only [MaskRules.step, if_neg incomplete, if_neg stuck]

theorem scan_idle_of_notMem {text : List Char} (plain : '$' ∉ text) :
    r.scan .idle text = (.idle, text) := by
  induction text with
  | nil => rfl
  | cons c cs ih =>
      rw [List.mem_cons, not_or] at plain
      simp [MaskRules.scan, MaskRules.step, MaskRules.start, Ne.symm plain.1, ih plain.2]

/-- What is taken again of a beginning that is given up opens a placeholder with its last
    character or not at all. -/
theorem scan_again {held rest : List Char} {first : Char} (part : held <+: maskPrefix)
    (filled : held ≠ []) (split : held ++ [c] = first :: rest) :
    ((r.scan .idle rest).1, first :: (r.scan .idle rest).2) =
      ((MaskRules.start c).1, held ++ (MaskRules.start c).2) := by
  obtain ⟨d, tail, rfl⟩ := List.exists_cons_of_ne_nil filled
  obtain ⟨-, plain⟩ := MaskRules.dollar_notMem_tail part
  obtain ⟨rfl, later⟩ := List.cons.inj split
  have later : tail ++ [c] = rest := later
  rw [← later, MaskRules.scan_append, scan_idle_of_notMem plain]
  simp [MaskRules.scan, MaskRules.step]

theorem Scans.scan_eq (scans : Scans r k text j out) (some : r.masks.isEmpty = false)
    (same : k = ofState s) (h : s.Holds r) :
    j = ofState (r.scan s text).1 ∧ out = (r.scan s text).2 := by
  induction scans generalizing s with
  | nil => exact ⟨same, rfl⟩
  | takes takes _ ih =>
      subst same
      obtain ⟨rfl, rfl⟩ := takes.step_eq
      obtain ⟨rfl, rfl⟩ := ih rfl (MaskRules.step_holds some h _)
      exact ⟨rfl, rfl⟩
  | @givesUp k j l c first rest cs out more givesUp split again later ihAgain ihLater =>
      subst same
      -- The state takes the same step in one go: what is read again is the tail of a beginning, in
      -- which the opening sign does not stand a second time.
      obtain ⟨held, rfl, step⟩ := givesUp.exists_suspect
      obtain ⟨-, filled, part, -⟩ := h
      have whole := scan_again (r := r) part filled split
      obtain ⟨rfl, rfl⟩ := ihAgain (s := .idle) rfl trivial
      obtain ⟨state, released⟩ := Prod.mk.inj whole
      obtain ⟨rfl, rfl⟩ := ihLater (by rw [state]) (MaskRules.start_holds some c)
      rw [MaskRules.scan, step, ← released]
      exact ⟨rfl, rfl⟩

theorem Pushes.push_eq (pushes : Pushes r (ofState s) text j out) (h : s.Holds r) :
    j = ofState (r.push s text).1 ∧ out = (r.push s text).2 := by
  unfold MaskRules.push
  cases pushes with
  | bare none =>
      rw [if_pos none]
      exact ⟨rfl, rfl⟩
  | scans some scans =>
      rw [if_neg (by simp [some])]
      exact scans.scan_eq some rfl h

end InStep

theorem exists_pushes (r : MaskRules) (k : Scanner) (text : List Char) :
    ∃ j out, Pushes r k text j out := by
  cases masks : r.masks.isEmpty with
  | true => exact ⟨k, text, .bare masks⟩
  | false =>
      obtain ⟨j, out, scans⟩ := exists_scans r k text
      exact ⟨j, out, .scans masks scans⟩

end Scanner

end NoteAssistant
