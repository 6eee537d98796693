import NoteAssistant.Proofs.Reply.Ledger

/-! # Text behind a finish or usage

A finish or usage stands behind all text of the parts up to the one that brings it about
(`Reference.Brings`), and what is written behind it is text of later parts
(`Processor.text_behind`). A stream that goes on after a finish is still written out, so text
can follow a finish (`Processor.text_behind_finish`).
-/

namespace NoteAssistant

open Reference

/-- A finish or usage. -/
def Increment.isRecord : Increment → Bool
  | finish _ | usage _ _ => true
  | _ => false

theorem Increment.text_of_isRecord {i : Increment} (h : i.isRecord = true) : i.text? = none := by
  cases i with
  | finish | usage => rfl
  | text | error | cancelled | done => cases h

theorem Ending.isRecord_terminal {e : Ending} {i : Increment} (last : e.terminal? = some i) :
    i.isRecord = false := by
  cases e <;> simp [terminal?] at last <;> subst last <;> rfl

theorem marks_split {sent before after : List Increment} {i : Increment}
    (split : sent = before ++ i :: after) (h : i.text? = none) :
    marks [] sent = marks [] before ++ (written before, i) :: marks (written before) after := by
  rw [split, marks_append, List.nil_append]
  simp only [marks, h]

namespace Reference

/-- An increment that stands behind some others is brought about by the last of the parts up
    to `early`, or it is the usage that is still awaited when all parts have been told. -/
inductive Brings (r : MaskRules) (before : List Increment) (i : Increment) :
    List Token.Part → List Token.Part → Prop where
  | announced (early : List Token.Part) (part : Token.Part) (late : List Token.Part)
      (us vs : List Increment) (cause : announced early part = us ++ i :: vs)
      (place : marks [] before =
        ledger r [] early ++ us.map (reading r (early ++ [part]), ·)) :
      Brings r before i (early ++ [part]) late
  | awaited (parts : List Token.Part) (cause : awaited parts = [i])
      (place : marks [] before = ledger r [] parts) : Brings r before i parts []

theorem append_eq_append_cons {α : Type} {as bs front back : List α} {x : α}
    (h : as ++ bs = front ++ x :: back) :
    (∃ rest, front = as ++ rest ∧ bs = rest ++ x :: back) ∨ ∃ rest, as = front ++ x :: rest := by
  rcases List.append_eq_append_iff.mp h with ⟨rest, front, later⟩ | ⟨rest, here, later⟩
  · exact .inl ⟨rest, front, later⟩
  · cases rest with
    | nil => exact .inl ⟨[], by simpa using here.symm, later.symm⟩
    | cons y rest =>
        obtain ⟨rfl, _⟩ := List.cons.inj later
        exact .inr ⟨rest, here⟩

/-- A place in a ledger belongs to one part and to one of the increments it announces. -/
theorem ledger_eq_append_cons {r : MaskRules} {before parts : List Token.Part}
    {text : List Char} {i : Increment} {front back : List (List Char × Increment)}
    (h : ledger r before parts = front ++ (text, i) :: back) :
    ∃ early part late us vs, parts = early ++ part :: late ∧
      announced (before ++ early) part = us ++ i :: vs ∧
      text = reading r (before ++ early ++ [part]) ∧
      front = ledger r before early ++ us.map (text, ·) := by
  induction parts generalizing before front with
  | nil => simp [ledger] at h
  | cons part parts ih =>
      rcases append_eq_append_cons h with ⟨rest, rfl, later⟩ | ⟨rest, here⟩
      · obtain ⟨early, next, late, us, vs, rfl, cause, place, rfl⟩ := ih later
        refine ⟨part :: early, next, late, us, vs, rfl, ?_, ?_, ?_⟩
        · simpa using cause
        · simpa using place
        · simp [ledger]
      · obtain ⟨us, tail, cause, rfl, spread⟩ := List.map_eq_append_iff.mp here
        obtain ⟨j, vs, rfl, same, _⟩ := List.map_eq_cons_iff.mp spread
        obtain ⟨rfl, rfl⟩ := Prod.mk.inj same
        exact ⟨[], part, parts, us, vs, rfl, by simpa using cause, by simp, by simp [ledger]⟩

end Reference

namespace Processor

/-- What holds of the text on both sides of an increment, when these parts are applied. -/
structure Behind (r : MaskRules) (parts : List Token.Part) (front : List Increment)
    (i : Increment) (back : List Increment) (early late : List Token.Part) : Prop where
  parts : parts = early ++ late
  brings : Brings r front i early late
  /-- All text of the parts up to the one that brings it about is in front. -/
  inFront : written front = reading r early
  behind : written front ++ written back <+: reading r (early ++ late)
  /-- Without text in the later parts there is none behind. -/
  silent : (∀ part ∈ late, part.isText = false) → texts back = []

section Balanced

variable {p : Processor} {r : MaskRules} {parts more : List Token.Part} {sent : List Increment}

/-- What is written so far is the beginning of what is to be read for more parts. -/
theorem Balanced.written_prefix (h : p.Balanced r parts sent)
    (settled : (∃ e, p.stage = .ended e) → more = []) :
    written sent <+: reading r (parts ++ more) := by
  cases stage : p.stage with
  | ended e =>
      rw [Balanced, stage] at h
      have none := settled ⟨e, stage⟩
      exact ⟨[], by rw [none, h.reads, List.append_nil, List.append_nil]⟩
  | watching | taking | closing =>
      rw [Balanced, stage] at h
      exact ⟨p.writer.toCome more, h.reads more⟩

/-- The usage that is still awaited is at most one. -/
theorem awaited_of_split {terminal i : Increment} {us vs : List Increment}
    (h : awaited parts ++ [terminal] = us ++ i :: vs) (other : i ≠ terminal) :
    us = [] ∧ awaited parts = [i] := by
  obtain ⟨last, single⟩ : ∃ last : Option Increment, awaited parts = last.toList := by
    unfold awaited
    split
    case isTrue => exact ⟨none, rfl⟩
    case isFalse => exact ⟨_, rfl⟩
  rw [single] at h ⊢
  cases last with
  | none =>
      cases us with
      | nil => exact absurd (List.cons.inj h).1.symm other
      | cons u us => simp at h
  | some u =>
      cases us with
      | nil => exact ⟨rfl, congrArg (fun j => [j]) (List.cons.inj h).1⟩
      | cons v us =>
          cases us with
          | nil => exact absurd (List.cons.inj (List.cons.inj h).2).1.symm other
          | cons => simp at h

theorem Balanced.brings (h : p.Balanced r parts sent)
    (settled : (∃ e, p.stage = .ended e) → more = []) {front back : List Increment}
    {i : Increment} (split : sent = front ++ i :: back) (record : i.isRecord = true) :
    ∃ early late, parts ++ more = early ++ late ∧ Brings r front i early late
      ∧ written front = reading r early := by
  have place := marks_split split (Increment.text_of_isRecord record)
  have inside {behind : List (List Char × Increment)}
      (marked : ledger r [] parts = marks [] front ++ (written front, i) :: behind) :
      ∃ early late, parts ++ more = early ++ late ∧ Brings r front i early late
        ∧ written front = reading r early := by
    obtain ⟨early, part, late, us, vs, rfl, cause, text, earlier⟩ := ledger_eq_append_cons marked
    rw [text] at earlier
    exact ⟨early ++ [part], late ++ more, by simp,
      .announced early part (late ++ more) us vs cause earlier, text⟩
  cases stage : p.stage with
  | watching | taking | closing =>
      rw [Balanced, stage] at h
      exact inside (h.marked.symm.trans place)
  | ended e =>
      rw [Balanced, stage] at h
      obtain ⟨terminal, last, marked⟩ := h.marked
      have other : i ≠ terminal := by
        rintro rfl
        rw [Ending.isRecord_terminal last] at record
        cases record
      -- Behind the ledger stand the usage that was awaited and the last increment.
      rcases append_eq_append_cons (marked.symm.trans place) with ⟨rest, all, closing⟩ | ⟨_, here⟩
      · obtain ⟨us, tail, cause, rfl, spread⟩ := List.map_eq_append_iff.mp closing
        obtain ⟨j, vs, rfl, same, _⟩ := List.map_eq_cons_iff.mp spread
        obtain ⟨text, rfl⟩ := Prod.mk.inj same
        obtain ⟨rfl, single⟩ := awaited_of_split cause other
        rw [List.map_nil, List.append_nil] at all
        exact ⟨parts, [], by rw [settled ⟨e, stage⟩], .awaited parts single all, text.symm⟩
      · exact inside here

end Balanced

theorem texts_eq_nil {is : List Increment} (speaks : .text "" ∉ is) (empty : written is = []) :
    texts is = [] := by
  rw [texts, List.filterMap_eq_nil_iff]
  intro i mem
  cases shape : i.text? with
  | none => rfl
  | some text =>
      have blank : i.shown = [] := List.flatMap_eq_nil_iff.mp empty i mem
      cases i with
      | text s =>
          have same : s = "" := String.toList_eq_nil_iff.mp blank
          exact absurd (same ▸ mem) speaks
      | finish | usage | error | cancelled | done => simp [Increment.text?] at shape

/-- Whatever happens while a reply is made and in whatever order, also when no one receives it
    any more, a finish or usage stands behind all text of what was applied up to it, and text
    is behind it only if a later part brings text. -/
theorem text_behind (message : String) (r : MaskRules) (limit : Duration)
    (signals : List Signal) {front back : List Increment} {i : Increment}
    (split : increments ((start message r limit).run signals).2 = front ++ i :: back)
    (record : i.isRecord = true) :
    ∃ early late,
      Behind r ((start message r limit).applied signals) front i back early late := by
  let p := start message r limit
  obtain ⟨taken, rest, is, rfl, runs, sent⟩ := exists_received (p := p) rfl signals
  have fresh : p.Balanced r [] [] := .start message r
  have balanced := runs.balanced (.start message r limit) fresh
  have settled : (∃ e, (p.run taken).1.stage = .ended e) → (p.run taken).1.applied rest = [] :=
    fun ⟨_, ended⟩ => applied_of_over ended rest
  have split : is = front ++ i :: back := sent.symm.trans split
  obtain ⟨early, late, parts, brings, place⟩ := balanced.brings settled split record
  have parts : p.applied (taken ++ rest) = early ++ late := (applied_append ..).trans parts
  have reach := balanced.written_prefix settled
  have shown : i.shown = [] := Increment.shown_of_mark (Increment.text_of_isRecord record)
  rw [List.nil_append, List.nil_append, ← applied_append, parts, split, written_append,
    written_cons, shown, List.nil_append] at reach
  refine ⟨early, late, parts, brings, place, reach, fun silent => ?_⟩
  rw [reading_append_silent r early silent, ← place] at reach
  have none : written back = [] := by
    have short := reach.length_le
    rw [List.length_append] at short
    exact List.length_eq_zero_iff.mp (by omega)
  refine texts_eq_nil (fun blank => runs.speaks ?_) none
  rw [split]
  exact List.mem_append_right front (List.mem_cons_of_mem i blank)

/-- A stream that goes on after its finish. -/
def resumed : List Signal :=
  [.arrive (.token (.ofContent "a")), .work, .work, .work,
    .arrive (.token (.ofFinish "stop")), .work, .work, .work,
    .arrive (.token (.ofContent "b")), .work, .work, .work, .arrive .ended, .work, .work]

theorem text_behind_resumed :
    let r : MaskRules := ⟨.ofEntries [], 10, 128⟩
    let p := start "m" r (.ofMillis 5)
    let front : List Increment := [.text "a"]
    let back : List Increment := [.text "b", .done]
    increments (p.run resumed).2 = front ++ .finish "stop" :: back
      ∧ (Increment.finish "stop").isRecord = true
      ∧ ∃ early late, Behind r (p.applied resumed) front (.finish "stop") back early late := by
  intro r p front back
  have split : increments (p.run resumed).2 = front ++ .finish "stop" :: back := by
    decide +kernel
  exact ⟨split, rfl, text_behind "m" r (.ofMillis 5) resumed split rfl⟩

/-- Text can follow a finish. -/
theorem text_behind_finish :
    ¬ ∀ (message : String) (r : MaskRules) (limit : Duration) (signals : List Signal)
      (front back : List Increment) (i : Increment),
      increments ((start message r limit).run signals).2 = front ++ i :: back →
      i.isRecord = true → texts back = [] := by
  intro always
  have sent :
      increments ((start "m" ⟨.ofEntries [], 10, 128⟩ (.ofMillis 5)).run resumed).2 =
        [.text "a"] ++ .finish "stop" :: [.text "b", .done] := by decide +kernel
  have none := always _ _ _ resumed _ _ _ sent rfl
  cases none

end Processor

end NoteAssistant
