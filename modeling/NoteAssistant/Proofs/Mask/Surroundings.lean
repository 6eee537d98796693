import NoteAssistant.Proofs.Mask.Pieces

/-! # What stands before a placeholder

A known placeholder is replaced unless the text before it leaves another one open
(`MaskRules.known_amid`). Then the open one takes it in: both end at the same bracket, or the
span gets too long in the middle of the known one. Nothing that has been taken in is looked at
again, so the known placeholder is read out as it is.
-/

namespace NoteAssistant.MaskRules

/-- A placeholder of the map in its usual form, within reach. -/
structure Known (r : MaskRules) (key : List Char) (value : String) : Prop where
  form : ∃ token, key = maskPrefix ++ token ++ [']'] ∧ '$' ∉ token ∧ '[' ∉ token ∧ ']' ∉ token
  reach : key.length ≤ r.maxSpan
  bound : r.masks.get? (String.ofList key) = some value

/-- The placeholder that a text leaves open, as far as it goes. -/
def unclosed (r : MaskRules) (text : List Char) : Option (List Char) :=
  match (r.push .idle text).1 with
  | .confirmed opened => some opened
  | _ => none

variable {r : MaskRules}

theorem step_held (s : MaskState) (c : Char) : (r.step s c).1.held <:+ s.held ++ [c] := by
  have fresh : (start c).1.held <:+ [c] := by
    unfold start
    split
    case isTrue dollar =>
      rw [dollar]
      exact List.suffix_rfl
    case isFalse => exact List.nil_suffix
  cases s with
  | idle => exact fresh
  | suspect held =>
      simp only [step]
      split
      case isTrue => exact List.suffix_rfl
      case isFalse =>
        split
        case isTrue => exact List.suffix_rfl
        case isFalse => exact fresh.trans (List.suffix_append held [c])
  | confirmed held =>
      simp only [step]
      split
      case isTrue => exact List.nil_suffix
      case isFalse =>
        split
        case isTrue => exact List.nil_suffix
        case isFalse => exact List.suffix_rfl

/-- A scanner holds back the end of what it has been given. -/
theorem scan_held (s : MaskState) (text : List Char) :
    (r.scan s text).1.held <:+ s.held ++ text := by
  induction text generalizing s with
  | nil => simp [scan]
  | cons c rest ih =>
      obtain ⟨front, whole⟩ := step_held (r := r) s c
      have later := ih (r.step s c).1
      refine later.trans ⟨front, ?_⟩
      rw [← List.append_assoc, whole, List.append_assoc]
      rfl

/-- What a text leaves open begins like a placeholder and has no end yet. -/
theorem of_unclosed (roomy : r.Roomy) {text opened : List Char}
    (left : r.unclosed text = some opened) :
    opened <:+ text ∧ maskPrefix <+: opened ∧ ']' ∉ opened ∧ opened.length ≤ r.maxSpan := by
  have wide := roomy.wide
  have deep := roomy.deep
  have holds := push_holds (r := r) (s := .idle) trivial text
  have back : (r.push .idle text).1.held <:+ text := by
    unfold push
    split
    case isTrue => exact List.nil_suffix
    case isFalse => exact scan_held .idle text
  unfold unclosed at left
  split at left
  case h_2 => cases left
  case h_1 span state =>
    cases left
    rw [state] at holds back
    obtain ⟨_, begins, bracket, near⟩ := holds
    rw [length_maskPrefix, Nat.max_eq_right (by omega)] at near
    exact ⟨back, begins, bracket, near⟩

section Spans

variable {span : List Char}

theorem resolve_closed (begins : maskPrefix <+: span) (opened : ']' ∉ span)
    (reach : span.length ≤ r.maxSpan) (cs : List Char) :
    r.resolve (span ++ [']'] ++ cs) = r.value (span ++ [']']) ++ r.resolve cs := by
  have closed := congrArg List.flatten (units_closed (r := r) begins opened reach cs)
  simpa using closed

theorem resolve_overlong (begins : maskPrefix <+: span) (opened : ']' ∉ span)
    (long : span.length = r.maxSpan + 1) (cs : List Char) :
    r.resolve (span ++ cs) = span ++ r.resolve cs := by
  have left := congrArg List.flatten (units_overlong (r := r) begins opened long cs)
  simpa using left

theorem resolve_append_of_notMem (plain : '$' ∉ span) (cs : List Char) :
    r.resolve (span ++ cs) = span ++ r.resolve cs := by
  have left := congrArg List.flatten (units_append_of_notMem (r := r) plain cs)
  simpa using left

/-- A dollar sign goes on with no beginning of a placeholder. -/
theorem resolve_part (part : span <+: maskPrefix) (proper : span ≠ maskPrefix)
    (some : span ≠ []) (cs : List Char) :
    r.resolve (span ++ '$' :: cs) = span ++ r.resolve ('$' :: cs) := by
  have other : ¬ span ++ ['$'] <+: maskPrefix := by
    intro longer
    cases span with
    | nil => exact some rfl
    | cons c tail =>
        rw [List.cons_append] at longer
        exact (dollar_notMem_tail longer).2 (by simp)
  have left := congrArg List.flatten (units_given_up (r := r) part other proper cs)
  simpa using left

end Spans

namespace Known

variable {key : List Char} {value : String}

/-- A known placeholder without its closing bracket, which is the first one. -/
theorem parts (known : r.Known key value) :
    ∃ tail, key = '$' :: tail ++ [']'] ∧ maskPrefix <+: '$' :: tail
      ∧ ']' ∉ '$' :: tail ∧ '$' ∉ tail := by
  obtain ⟨token, rfl, dollar, _, bracket⟩ := known.form
  refine ⟨"hidden[".toList ++ token, ?_, ?_, ?_, ?_⟩
  · rw [maskPrefix_eq]
    rfl
  · rw [maskPrefix_eq]
    exact List.prefix_append ('$' :: "hidden[".toList) token
  · rw [← List.cons_append, ← maskPrefix_eq]
    intro mem
    rcases List.mem_append.mp mem with front | inside
    · exact bracket_notMem_maskPrefix front
    · exact bracket inside
  · intro mem
    rcases List.mem_append.mp mem with front | inside
    · exact absurd front (by decide +kernel)
    · exact dollar inside

theorem resolve (known : r.Known key value) (cs : List Char) :
    r.resolve (key ++ cs) = value.toList ++ r.resolve cs := by
  obtain ⟨tail, rfl, begins, opened, _⟩ := known.parts
  have reach := known.reach
  rw [List.length_append, List.length_singleton] at reach
  rw [resolve_closed begins opened (by omega), MaskRules.value, known.bound]
  rfl

/-- An open placeholder that ends with the bracket of a known one. -/
theorem resolve_taken (known : r.Known key value) {span : List Char} (begins : maskPrefix <+: span)
    (opened : ']' ∉ span) (reach : (span ++ key).length ≤ r.maxSpan + 1) (cs : List Char) :
    r.resolve (span ++ key ++ cs) = r.value (span ++ key) ++ r.resolve cs := by
  obtain ⟨tail, rfl, _, bracket, _⟩ := known.parts
  have still : ']' ∉ span ++ '$' :: tail := by
    intro mem
    exact (List.mem_append.mp mem).elim opened bracket
  have longer : maskPrefix <+: span ++ '$' :: tail := begins.trans (List.prefix_append _ _)
  have short : (span ++ '$' :: tail).length ≤ r.maxSpan := by
    simp only [List.length_append, List.length_singleton] at reach ⊢
    omega
  rw [← List.append_assoc span]
  exact resolve_closed longer still short cs

/-- An open placeholder that is given up within a known one: no dollar sign is left in what
    remains of that. -/
theorem resolve_cut (known : r.Known key value) {span : List Char} (begins : maskPrefix <+: span)
    (opened : ']' ∉ span) (near : span.length ≤ r.maxSpan)
    (long : r.maxSpan + 1 < (span ++ key).length) (cs : List Char) :
    r.resolve (span ++ key ++ cs) = span ++ key ++ r.resolve cs := by
  obtain ⟨tail, rfl, _, bracket, dollar⟩ := known.parts
  obtain ⟨n, room⟩ : ∃ n, r.maxSpan + 1 = span.length + (n + 1) :=
    ⟨r.maxSpan - span.length, by omega⟩
  have reach : n ≤ tail.length := by
    simp only [List.length_append, List.length_cons, List.length_nil] at long
    omega
  have cut : span ++ ('$' :: tail ++ [']']) =
      (span ++ '$' :: tail.take n) ++ (tail.drop n ++ [']']) := by
    simp only [List.append_assoc, List.cons_append]
    rw [← List.append_assoc (tail.take n), List.take_append_drop]
  have still : ']' ∉ span ++ '$' :: tail.take n := by
    intro mem
    rcases List.mem_append.mp mem with early | late
    · exact opened early
    · exact bracket (List.cons_subset_cons '$' (List.take_subset n tail) late)
  have full : (span ++ '$' :: tail.take n).length = r.maxSpan + 1 := by
    rw [List.length_append, List.length_cons, List.length_take_of_le reach, room]
  have plain : '$' ∉ tail.drop n ++ [']'] := by
    intro mem
    rcases List.mem_append.mp mem with inside | last
    · exact dollar (List.mem_of_mem_drop inside)
    · exact absurd last (by decide)
  have longer : maskPrefix <+: span ++ '$' :: tail.take n :=
    begins.trans (List.prefix_append _ _)
  rw [cut, List.append_assoc, resolve_overlong longer still full,
    resolve_append_of_notMem plain, ← List.append_assoc]

end Known

/-- A known placeholder behind a text that leaves none open. -/
theorem known_replaced (roomy : r.Roomy) {key : List Char} {value : String}
    (known : r.Known key value) {before : List Char} (closed : r.unclosed before = none)
    (behind : List Char) :
    r.resolve (before ++ key ++ behind) =
      r.resolve before ++ value.toList ++ r.resolve behind := by
  have given : (r.push .idle before).2 ++ (r.push .idle before).1.held = r.resolve before :=
    pass_idle roomy before
  have holds := push_holds (r := r) (s := .idle) trivial before
  have step := push_resolves roomy (s := .idle) trivial before (key ++ behind)
  change _ = r.resolve (before ++ (key ++ behind)) at step
  rw [List.append_assoc, ← step, ← given]
  cases state : (r.push .idle before).1 with
  | idle =>
      simp only [MaskState.held, List.nil_append, List.append_nil, List.append_assoc]
      rw [known.resolve]
  | suspect held =>
      rw [state] at holds
      obtain ⟨_, some, part, proper⟩ := holds
      obtain ⟨tail, rfl, _⟩ := known.parts
      have passed := resolve_part (r := r) part proper some (tail ++ [']'] ++ behind)
      have last := known.resolve behind
      simp only [MaskState.held, List.cons_append, List.append_assoc] at passed last ⊢
      rw [passed, last]
  | confirmed span => simp [unclosed, state] at closed

/-- A known placeholder behind one that is still open. -/
theorem known_taken (roomy : r.Roomy) {key : List Char} {value : String}
    (known : r.Known key value) {before opened : List Char}
    (left : r.unclosed before = some opened) (behind : List Char) :
    ∃ front, r.resolve before = front ++ opened ∧
      r.resolve (before ++ key ++ behind) =
        if (opened ++ key).length ≤ r.maxSpan + 1 then
          front ++ r.value (opened ++ key) ++ r.resolve behind
        else front ++ opened ++ key ++ r.resolve behind := by
  have given : (r.push .idle before).2 ++ (r.push .idle before).1.held = r.resolve before :=
    pass_idle roomy before
  have step := push_resolves roomy (s := .idle) trivial before (key ++ behind)
  change _ = r.resolve (before ++ (key ++ behind)) at step
  obtain ⟨_, begins, bracket, near⟩ := of_unclosed roomy left
  have held : (r.push .idle before).1.held = opened := by
    unfold unclosed at left
    split at left
    case h_1 span state =>
      cases left
      rw [state]
      rfl
    case h_2 => cases left
  rw [held] at given step
  refine ⟨(r.push .idle before).2, given.symm, ?_⟩
  rw [List.append_assoc, ← step, ← List.append_assoc opened]
  split
  case isTrue reach => rw [known.resolve_taken begins bracket reach, ← List.append_assoc]
  case isFalse long =>
    rw [known.resolve_cut begins bracket near (Nat.lt_of_not_le long)]
    simp only [List.append_assoc]

/-- What becomes of a known placeholder between two texts, however the whole is cut. It is
    replaced if the text before it leaves no placeholder open. Otherwise it is read out as it
    is, except where what is open and the known one are together a placeholder of the map. -/
theorem known_amid (roomy : r.Roomy) {key : List Char} {value : String}
    (known : r.Known key value) (before behind : List Char) (pieces : List (List Char))
    (whole : pieces.flatten = before ++ key ++ behind) :
    (r.unclosed before = none →
        r.through pieces = r.resolve before ++ value.toList ++ r.resolve behind)
      ∧ ∀ opened, r.unclosed before = some opened →
        opened <:+ before ∧ maskPrefix <+: opened ∧ ']' ∉ opened
          ∧ ∃ front, r.resolve before = front ++ opened ∧
            r.through pieces =
              if (opened ++ key).length ≤ r.maxSpan + 1 then
                front ++ r.value (opened ++ key) ++ r.resolve behind
              else front ++ opened ++ key ++ r.resolve behind := by
  rw [through_eq_resolve roomy, whole]
  constructor
  · intro closed
    exact known_replaced roomy known closed behind
  · intro opened left
    obtain ⟨back, begins, bracket, _⟩ := of_unclosed roomy left
    exact ⟨back, begins, bracket, known_taken roomy known left behind⟩

section Alice

def alice : MaskRules := ⟨.ofEntries [("u1", "Alice")], 10, 16⟩

theorem alice_roomy : alice.Roomy := ⟨by decide, by decide⟩

theorem alice_known : alice.Known "$hidden[u1]".toList "Alice" :=
  ⟨⟨['u', '1'], by decide +kernel, by decide, by decide, by decide⟩, by decide +kernel,
    by decide +kernel⟩

/-- A doubled dollar sign and a beginning that is broken off leave nothing open; a span that
    gets too long within the known placeholder takes in that one. -/
theorem known_amid_broken :
    let key := "$hidden[u1]".toList
    let broken := "$$hid".toList
    let long := "$hidden[abc".toList
    alice.Roomy ∧ alice.Known key "Alice"
      ∧ alice.unclosed broken = none ∧ alice.unclosed long = some long
      ∧ alice.through [broken ++ key ++ ['!']] = "$$hidAlice!".toList
      ∧ alice.through [broken ++ key ++ ['!']] =
        alice.resolve broken ++ "Alice".toList ++ alice.resolve ['!']
      ∧ ∃ front, alice.resolve long = front ++ long ∧
        alice.through [long ++ key, ['!']] = front ++ long ++ key ++ alice.resolve ['!'] := by
  intro key broken long
  have closed : alice.unclosed broken = none := by decide +kernel
  have opened : alice.unclosed long = some long := by decide +kernel
  have read : alice.through [broken ++ key ++ ['!']] = "$$hidAlice!".toList := by decide +kernel
  have cut : [long ++ key, ['!']].flatten = long ++ key ++ ['!'] := rfl
  have far : ¬ (long ++ key).length ≤ alice.maxSpan + 1 := by decide +kernel
  obtain ⟨_, _, _, front, resolved, given⟩ :=
    (known_amid alice_roomy alice_known long ['!'] _ cut).2 long opened
  rw [if_neg far] at given
  refine ⟨alice_roomy, alice_known, closed, opened, read, ?_, front, resolved, given⟩
  exact (known_amid alice_roomy alice_known broken ['!'] _ (List.append_nil _)).1 closed

/-- Behind a beginning that is not closed a known placeholder is read out as it is. -/
theorem known_read_out :
    ¬ ∀ (r : MaskRules) (key : List Char) (value : String) (before behind : List Char)
        (pieces : List (List Char)), r.Roomy → r.Known key value →
      pieces.flatten = before ++ key ++ behind →
      ∃ front, r.through pieces = front ++ value.toList ++ r.resolve behind := by
  intro always
  obtain ⟨front, replaced⟩ := always alice "$hidden[u1]".toList "Alice" maskPrefix []
    [maskPrefix ++ "$hidden[u1]".toList] alice_roomy alice_known (by simp)
  have given : alice.through [maskPrefix ++ "$hidden[u1]".toList] =
      "$hidden[$hidden[u1]".toList := by decide +kernel
  have last := congrArg List.getLast? (given.symm.trans replaced)
  have bracket : "$hidden[$hidden[u1]".toList.getLast? = some ']' := by decide +kernel
  have letter : "Alice".toList.getLast? = some 'e' := by decide +kernel
  rw [resolve_nil, List.append_nil, List.getLast?_append, bracket, letter] at last
  simp at last

end Alice

end NoteAssistant.MaskRules
