import NoteAssistant.Proofs.Retrieval.Distinct
import NoteAssistant.Retrieval.Candidates

/-! # Which matches become candidates

The matches of a search are ranked, accepted one after another, and freed of notes found twice.
Which ones are accepted depends on how many have been accepted before, so acceptance is described
by places in the ranking (`ThresholdPolicy.Accepts`). `ThresholdPolicy.candidates_selected` puts
together what holds of the candidates of any matches whose scores are numbers.
-/

namespace NoteAssistant

namespace Single

variable {x y z : Single}

/-- The order of all patterns agrees with the numeric one on numbers. -/
theorem le_of_rank_le (left : x.isNan = false) (right : y.isNan = false)
    (below : x.rank ≤ y.rank) : x.le y = true := by
  have places : Number.Format.single.place x.pattern ≤ Number.Format.single.place y.pattern := by
    simp only [rank, Number.Format.place] at below ⊢
    split_ifs at below ⊢ <;> omega
  rw [isNan] at left right
  simp [le, Number.Format.le, left, right, places]

theorem le_trans (first : x.le y = true) (second : y.le z = true) : x.le z = true := by
  simp only [le, Number.Format.le, Bool.and_eq_true, Bool.not_eq_true', decide_eq_true_eq]
    at first second ⊢
  exact ⟨⟨first.1.1, second.1.2⟩, Int.le_trans first.2 second.2⟩

theorem rank_injective : Function.Injective rank := by
  intro x y same
  have low : x.pattern < 4294967296 := x.bits.toNat_lt
  have low' : y.pattern < 4294967296 := y.bits.toNat_lt
  have signBit : Number.Format.single.signBit = 2147483648 := by decide
  have patterns : x.pattern = y.pattern := by
    simp only [rank, Number.Format.isNegative, Number.Format.magnitude, signBit,
      decide_eq_true_eq] at same
    split_ifs at same <;> omega
  cases x
  cases y
  exact congrArg Single.mk (UInt32.toNat_inj.mp patterns)

end Single

/-- The matches of a search in descending order of their scores; matches of one score are in
    the order in which they were found. -/
structure Ranked (ms ranked : List VectorMatch) : Prop where
  perm : ranked.Perm ms
  descending : ranked.Pairwise fun a b => b.score.rank ≤ a.score.rank
  stable : ∀ score, ranked.filter (·.score = score) = ms.filter (·.score = score)

theorem ranking_ranked (ms : List VectorMatch) : Ranked ms (ranking ms) := by
  let before (a b : VectorMatch) : Bool := decide (b.score.rank ≤ a.score.rank)
  have trans (a b c : VectorMatch) (ab : before a b = true) (bc : before b c = true) :
      before a c = true :=
    decide_eq_true (Int.le_trans (of_decide_eq_true bc) (of_decide_eq_true ab))
  have total (a b : VectorMatch) : (before a b || before b a) = true := by
    simpa [before] using Int.le_total b.score.rank a.score.rank
  have perm : (ranking ms).Perm ms := List.mergeSort_perm ms before
  refine ⟨perm, ?_, ?_⟩
  · exact (List.pairwise_mergeSort trans total ms).imp of_decide_eq_true
  · intro score
    have ties : (ms.filter (·.score = score)).Pairwise fun a b => before a b = true := by
      refine List.pairwise_of_forall_mem_list fun a ha b hb => ?_
      have left : a.score = score := by simpa using (List.mem_filter.mp ha).2
      have right : b.score = score := by simpa using (List.mem_filter.mp hb).2
      simp [before, left, right]
    have there : (ms.filter (·.score = score)).Sublist (ranking ms) :=
      List.sublist_mergeSort trans total ties List.filter_sublist
    have within := there.filter fun m => decide (m.score = score)
    rw [List.filter_filter] at within
    simp only [Bool.and_self] at within
    exact (within.eq_of_length (perm.filter _).length_eq.symm).symm

theorem Ranked.numeric {ms ranked : List VectorMatch} (order : Ranked ms ranked)
    (numbers : ∀ m ∈ ms, m.score.isNan = false) :
    ranked.Pairwise fun a b => b.score.le a.score = true := by
  refine order.descending.imp_of_mem ?_
  intro a b left right below
  exact Single.le_of_rank_le (numbers b (order.perm.mem_iff.mp right))
    (numbers a (order.perm.mem_iff.mp left)) below

namespace ThresholdPolicy

variable {p : ThresholdPolicy} {cutoff : Single} {ms : List VectorMatch}

/-- A match below the cutoff that may be accepted all the same, at its place in the ranking:
    it is one of the best ones or its note is short. -/
def Tolerates (p : ThresholdPolicy) (m : VectorMatch) (place : Nat) : Prop :=
  place < p.highScoreKeep ∨ m.fullLength ≤ p.shortContentChars

/-- Why a match is accepted when `taken` have been accepted before it. -/
def Passes (p : ThresholdPolicy) (cutoff : Single) (taken : Nat) (m : VectorMatch)
    (place : Nat) : Prop :=
  cutoff.le m.score = true ∨ p.Tolerates m place ∧ taken < p.lowScoreAcceptLimit

/-- Which ones of ranked matches with their places are accepted, if `taken` have been accepted
    before them. -/
structure Accepts (p : ThresholdPolicy) (cutoff : Single) (taken : Nat)
    (ranked accepted : List (VectorMatch × Nat)) : Prop where
  inOrder : accepted.Sublist ranked
  iff : ∀ m place, (m, place) ∈ ranked →
    ((m, place) ∈ accepted ↔ p.Passes cutoff (taken + accepted.countP (·.2 < place)) m place)

theorem accept_of_passes {m : VectorMatch} {rank taken : Nat}
    (passes : p.Passes cutoff taken m rank) :
    p.accept cutoff rank taken (m :: ms) = m :: p.accept cutoff (rank + 1) (taken + 1) ms := by
  refine if_pos ?_
  rcases passes with good | ⟨tolerates, room⟩
  · simp [good]
  · have tolerated : rank < p.highScoreKeep ∨ m.fullLength ≤ p.shortContentChars := tolerates
    simp [tolerated, room]

theorem accept_of_not_passes {m : VectorMatch} {rank taken : Nat}
    (fails : ¬ p.Passes cutoff taken m rank) :
    p.accept cutoff rank taken (m :: ms) = p.accept cutoff (rank + 1) taken ms := by
  refine if_neg fun test => fails ?_
  simp only [Bool.or_eq_true, Bool.and_eq_true, decide_eq_true_eq] at test
  exact test.imp_right And.symm

namespace Accepts

variable {m : VectorMatch} {rank taken : Nat} {accepted : List (VectorMatch × Nat)}

theorem countP_eq_zero (rest : p.Accepts cutoff taken (ms.zipIdx (rank + 1)) accepted) :
    accepted.countP (·.2 < rank) = 0 := by
  rw [List.countP_eq_zero]
  intro x mem
  have behind := List.le_snd_of_mem_zipIdx (rest.inOrder.subset mem)
  simpa using Nat.le_of_lt behind

theorem ascending (h : p.Accepts cutoff taken (ms.zipIdx rank) accepted) :
    accepted.Pairwise fun x y => x.2 < y.2 := by
  have places : ((ms.zipIdx rank).map (·.2)).Pairwise (· < ·) := by
    rw [List.zipIdx_map_snd]
    exact List.pairwise_lt_range'
  exact (List.pairwise_map.mp places).sublist h.inOrder

/-- The first of ranked matches is accepted. -/
theorem take (rest : p.Accepts cutoff (taken + 1) (ms.zipIdx (rank + 1)) accepted)
    (passes : p.Passes cutoff taken m rank) :
    p.Accepts cutoff taken ((m :: ms).zipIdx rank) ((m, rank) :: accepted) := by
  refine ⟨rest.inOrder.cons_cons _, ?_⟩
  intro m' place mem
  rcases List.mem_cons.mp mem with first | later
  · obtain ⟨rfl, rfl⟩ := Prod.mk.inj first
    have none : ((m', place) :: accepted).countP (·.2 < place) = 0 := by
      rw [List.countP_cons_of_neg (by simp), rest.countP_eq_zero]
    rw [none]
    exact iff_of_true List.mem_cons_self passes
  · have behind : rank < place := List.le_snd_of_mem_zipIdx later
    have apart : (m', place) ≠ (m, rank) := fun same => Nat.ne_of_gt behind (Prod.mk.inj same).2
    have one : ((m, rank) :: accepted).countP (·.2 < place) =
        1 + accepted.countP (·.2 < place) := by
      rw [List.countP_cons_of_pos (by simpa using behind), Nat.add_comm]
    rw [List.mem_cons, or_iff_right apart, rest.iff m' place later, one, Nat.add_assoc]

/-- The first of ranked matches is refused. -/
theorem skip (rest : p.Accepts cutoff taken (ms.zipIdx (rank + 1)) accepted)
    (fails : ¬ p.Passes cutoff taken m rank) :
    p.Accepts cutoff taken ((m :: ms).zipIdx rank) accepted := by
  refine ⟨rest.inOrder.cons _, ?_⟩
  intro m' place mem
  rcases List.mem_cons.mp mem with first | later
  · obtain ⟨rfl, rfl⟩ := Prod.mk.inj first
    have absent : (m', place) ∉ accepted := fun there =>
      Nat.lt_irrefl place (List.le_snd_of_mem_zipIdx (rest.inOrder.subset there))
    rw [rest.countP_eq_zero]
    exact iff_of_false absent fails
  · exact rest.iff m' place later

end Accepts

theorem exists_accepts (p : ThresholdPolicy) (cutoff : Single) (rank taken : Nat)
    (ms : List VectorMatch) :
    ∃ accepted, accepted.map (·.1) = p.accept cutoff rank taken ms
      ∧ p.Accepts cutoff taken (ms.zipIdx rank) accepted := by
  induction ms generalizing rank taken with
  | nil => exact ⟨[], rfl, .refl _, fun _ _ mem => nomatch mem⟩
  | cons m ms ih =>
      by_cases passes : p.Passes cutoff taken m rank
      · obtain ⟨accepted, same, rest⟩ := ih (rank + 1) (taken + 1)
        refine ⟨(m, rank) :: accepted, ?_, rest.take passes⟩
        rw [accept_of_passes passes, List.map_cons, same]
      · obtain ⟨accepted, same, rest⟩ := ih (rank + 1) taken
        refine ⟨accepted, ?_, rest.skip passes⟩
        rw [accept_of_not_passes passes, same]

/-- Matches at or above the cutoff come first in a ranking, and after them the limit counts. -/
theorem length_accept_le (rank taken : Nat)
    (sorted : ms.Pairwise fun a b => cutoff.le b.score = true → cutoff.le a.score = true) :
    taken + (p.accept cutoff rank taken ms).length ≤
      max p.lowScoreAcceptLimit (taken + ms.countP (cutoff.le ·.score)) := by
  induction ms generalizing rank taken with
  | nil => exact Nat.le_max_right _ _
  | cons m ms ih =>
      obtain ⟨first, rest⟩ := List.pairwise_cons.mp sorted
      by_cases passes : p.Passes cutoff taken m rank
      case neg =>
        have low : ¬ cutoff.le m.score = true := fun good => passes (.inl good)
        rw [accept_of_not_passes passes, List.countP_cons, if_neg low]
        exact ih (rank + 1) taken rest
      case pos =>
        have more := ih (rank + 1) (taken + 1) rest
        rw [accept_of_passes passes, List.length_cons]
        by_cases good : cutoff.le m.score = true
        · rw [List.countP_cons, if_pos good]
          omega
        · have none : ms.countP (cutoff.le ·.score) = 0 :=
            List.countP_eq_zero.mpr fun b mem above => good (first b mem above)
          have room := (passes.resolve_left good).2
          rw [List.countP_cons, if_neg good]
          omega

/-- What holds of candidates that are chosen among matches: of the ranking some are accepted,
    and of these the first one of each note is kept. -/
structure Selection (p : ThresholdPolicy) (ms : List VectorMatch) (c : CandidateSet)
    (accepted kept : List (VectorMatch × Nat)) : Prop where
  ranked : Ranked ms (ranking ms)
  base : ms = [] → c.cutoff = p.base
  cutoff : ∀ top ∈ ms, (∀ m ∈ ms, m.score.rank ≤ top.score.rank) →
    c.cutoff = if p.adaptiveMinMatches < ms.length ∧ top.score.lt p.base = true then
        top.score - p.adaptiveMargin
      else p.base
  accepts : p.Accepts c.cutoff 0 (ranking ms).zipIdx accepted
  keeps : kept.Sublist accepted
  matched : c.matched = kept.map (·.1)
  inOrder : c.matched.Sublist (ranking ms)
  distinct : c.ids.Nodup
  /-- What is accepted and yet left out is a note found before. -/
  first : ∀ x ∈ accepted, ∃ y ∈ kept, y.1.knowledge = x.1.knowledge ∧ y.2 ≤ x.2
  descending : c.matched.Pairwise fun a b => b.score.le a.score = true
  good : ∀ m ∈ ms, c.cutoff.le m.score = true → m.knowledge ∈ c.ids
  weak : ∀ m place, (m, place) ∈ kept → c.cutoff.le m.score = false → p.Tolerates m place
  /-- Only the limit keeps out a weak match that is tolerated. -/
  refused : ∀ m place, (m, place) ∈ (ranking ms).zipIdx → c.cutoff.le m.score = false →
    p.Tolerates m place → m.knowledge ∉ c.ids →
    p.lowScoreAcceptLimit ≤ accepted.countP (·.2 < place)
  bounded : c.matched.length ≤ max p.lowScoreAcceptLimit (ms.countP (c.cutoff.le ·.score))
  highScore : c.highScore = c.matched.take p.highScoreKeep

/-- The best score decides about the cutoff. -/
theorem cutoff_eq {ranked : List VectorMatch} (order : Ranked ms ranked) {top : VectorMatch}
    (there : top ∈ ms) (best : ∀ m ∈ ms, m.score.rank ≤ top.score.rank) :
    p.cutoff ranked =
      if p.adaptiveMinMatches < ms.length ∧ top.score.lt p.base = true then
        top.score - p.adaptiveMargin
      else p.base := by
  cases ranked with
  | nil => exact absurd (order.perm.mem_iff.mpr there) List.not_mem_nil
  | cons first rest =>
      have above : top.score.rank ≤ first.score.rank := by
        rcases List.mem_cons.mp (order.perm.mem_iff.mpr there) with rfl | later
        · exact Int.le_refl _
        · exact (List.pairwise_cons.mp order.descending).1 top later
      have below := best first (order.perm.mem_iff.mp List.mem_cons_self)
      have same : first.score = top.score := Single.rank_injective (Int.le_antisymm below above)
      simp only [cutoff, order.perm.length_eq, same, Bool.and_eq_true, decide_eq_true_eq]

theorem candidates_selected (numbers : ∀ m ∈ ms, m.score.isNan = false) :
    ∃ accepted kept, p.Selection ms (p.candidates ms) accepted kept := by
  let note (x : VectorMatch × Nat) : String := x.1.knowledge
  let cutoff := p.cutoff (ranking ms)
  have order := ranking_ranked ms
  have numeric := order.numeric numbers
  obtain ⟨accepted, same, accepts⟩ := p.exists_accepts cutoff 0 0 (ranking ms)
  have keeps : (distinctBy note accepted).Sublist accepted := distinctBy_sublist note accepted
  have matched : (p.candidates ms).matched = (distinctBy note accepted).map (·.1) := by
    rw [candidates, ← distinctBy_map (·.knowledge) (·.1) accepted, same]
  have inOrder : (p.candidates ms).matched.Sublist (ranking ms) := by
    rw [matched, ← List.zipIdx_map_fst 0 (ranking ms)]
    exact (keeps.trans accepts.inOrder).map _
  have first (x : VectorMatch × Nat) (mem : x ∈ accepted) :
      ∃ y ∈ distinctBy note accepted, note y = note x ∧ y.2 ≤ x.2 := by
    obtain ⟨y, kept, again, place⟩ := exists_mem_distinctBy note accepts.ascending mem
    exact ⟨y, kept, again, place.elim (fun same => Nat.le_of_eq (congrArg _ same)) Nat.le_of_lt⟩
  have known {x : VectorMatch × Nat} (mem : x ∈ accepted) :
      note x ∈ (p.candidates ms).ids := by
    obtain ⟨y, kept, again, _⟩ := first x mem
    rw [CandidateSet.ids, matched, List.map_map]
    exact List.mem_map.mpr ⟨y, kept, again⟩
  refine ⟨accepted, distinctBy note accepted, {
    ranked := order
    base := ?base
    cutoff := fun top => cutoff_eq order
    accepts, keeps, matched, inOrder
    distinct := nodup_map_distinctBy _ _
    first
    descending := numeric.sublist inOrder
    good := ?good
    weak := ?weak
    refused := ?refused
    bounded := ?bounded
    highScore := rfl }⟩
  case base =>
    rintro rfl
    simp [candidates, ranking, ThresholdPolicy.cutoff]
  case good =>
    intro m mem good
    obtain ⟨place, there⟩ := List.mem_iff_getElem?.mp (order.perm.mem_iff.mpr mem)
    have placed : (m, place) ∈ (ranking ms).zipIdx := List.mem_zipIdx_iff_getElem?.mpr there
    exact known ((accepts.iff m place placed).mpr (.inl good))
  case weak =>
    intro m place mem low
    have taken := keeps.subset mem
    have passes := (accepts.iff m place (accepts.inOrder.subset taken)).mp taken
    exact (passes.resolve_left (Bool.eq_false_iff.mp low)).1
  case refused =>
    intro m place there low tolerated absent
    have fails : ¬ p.Passes cutoff (0 + accepted.countP (·.2 < place)) m place :=
      fun passes => absent (known ((accepts.iff m place there).mpr passes))
    rw [Nat.zero_add] at fails
    exact Nat.le_of_not_lt fun room => fails (.inr ⟨tolerated, room⟩)
  case bounded =>
    have taken := length_accept_le (p := p) 0 0 <|
      numeric.imp fun below (good : cutoff.le _ = true) => Single.le_trans good below
    rw [← same, List.length_map, order.perm.countP_eq, Nat.zero_add, Nat.zero_add] at taken
    rw [matched, List.length_map]
    exact Nat.le_trans keeps.length_le taken

/-- Weak matches of which two tie and one note is found twice. The cutoff is lowered, and the
    limit refuses the short note behind three accepted matches. -/
theorem candidates_selected_crowded :
    let near (id : String) (score : UInt32) (full : Nat) : VectorMatch :=
      ⟨id, ⟨score⟩, "s", "u", full⟩
    let p : ThresholdPolicy := ⟨⟨0x3F000000⟩, 4, ⟨0x3DCCCCCD⟩, 2, 200, 3⟩
    let ms := [near "a" 0x3ECCCCCD 900, near "b" 0x3ECCCCCD 900, near "a" 0x3EB33333 900,
      near "c" 0x3E4CCCCD 10, near "d" 0x3E4CCCCD 900]
    (∀ m ∈ ms, m.score.isNan = false) ∧ (p.candidates ms).ids = ["a", "b"]
      ∧ ∃ accepted kept, p.Selection ms (p.candidates ms) accepted kept := by
  intro near p ms
  have numbers : ∀ m ∈ ms, m.score.isNan = false := by decide
  have ranked : ranking ms = ms := List.mergeSort_of_pairwise (by decide)
  refine ⟨numbers, ?_, candidates_selected numbers⟩
  rw [candidates, ranked]
  decide

end ThresholdPolicy

end NoteAssistant
