import NoteAssistant.Proofs.Retrieval.Degradation
import NoteAssistant.Proofs.Retrieval.Wordings
import NoteAssistant.Proofs.Text.Fence

/-! # Replies in a code fence

A model that puts its reply into a code fence is understood as if it had not. This holds for any
text in the fence, and hence for the other wordings of a query and for the pieces of a text, which
are both read out of a reply (`fence_transparent`).
-/

namespace NoteAssistant

open Text (Fenced)

/-- The world in which the driver at a place gives a reply to its next chat. -/
def World.replying (w : World) (place : Nat) (text : String) : World :=
  { w with drivers := w.drivers.modify place fun d => { d with chat := .ok text :: d.chat } }

/-- A fault without the reply that it quotes. -/
def Fault.unquoted : Fault → Fault
  | .enhanceParse _ => .enhanceParse ""
  | e => e

/-- The same answer, or two replies that differ in their texts only. -/
inductive Reworded (bare wrapped : String) :
    Except Fault ChatResponse → Except Fault ChatResponse → Prop where
  | same (answer : Except Fault ChatResponse) : Reworded bare wrapped answer answer
  | texts (reply : ChatResponse) :
      Reworded bare wrapped (.ok { reply with content := bare })
        (.ok { reply with content := wrapped })

variable {α β : Type} {bare wrapped : String}

theorem World.drivers_replying (w : World) (place : Nat) (text : String) (i : Nat) :
    (w.replying place text).drivers[i]? = w.drivers[i]?.map fun d =>
      if place = i then { d with chat := .ok text :: d.chat } else d := by
  rw [replying, List.getElem?_modify]
  split <;> rfl

theorem Run.complete_answer (driver : DriverEntry) (limit : Option Nat) (request : ChatRequest)
    (w : World) :
    (complete driver limit request w).1 =
      match w.drivers[driver.place]? with
      | none => .error (.driverNotFound driver.name)
      | some d =>
        if limit.all (d.chatDelay ≤ ·) then (d.complete request).1
        else .error (.timeout (.ofMillis (limit.getD 0))) := by
  unfold complete call
  cases w.drivers[driver.place]? with
  | none => rfl
  | some d =>
      dsimp only
      split <;> rfl

theorem Run.bind_lift_answer {step : Run α} (read : α → Except Fault β) (w : World) :
    ((step >>= fun a => Router.lift (read a)) w).1 = (step w).1.bind read := by
  rw [bind_eq]
  rcases step w with ⟨answer, v⟩
  cases answer with
  | ok a => exact lift_answer (read a) v
  | error e => rfl

/-- Only the driver that replies makes a difference, and only by the text of its reply. -/
theorem complete_replying (driver : DriverEntry) (limit : Option Nat) (request : ChatRequest)
    (w : World) (place : Nat) (bare wrapped : String) :
    Reworded bare wrapped (Run.complete driver limit request (w.replying place bare)).1
      (Run.complete driver limit request (w.replying place wrapped)).1 := by
  simp only [Run.complete_answer, World.drivers_replying]
  cases w.drivers[driver.place]? with
  | none => exact .same _
  | some d =>
      dsimp only [Option.map_some]
      by_cases here : place = driver.place
      case neg =>
        simp only [if_neg here]
        exact .same _
      case pos =>
        simp only [if_pos here]
        split
        case isFalse => exact .same _
        case isTrue => exact .texts ((d.record request).response bare)

/-- What an observer sees of work on a reply does not depend on the reply's text if what is read
    out of the reply does not. The driver may be missing, slow or out of order. -/
theorem observed_replying {read : ChatResponse → Except Fault α} {see : Except Fault α → β}
    (blind : ∀ reply : ChatResponse,
      see (read { reply with content := bare }) = see (read { reply with content := wrapped }))
    (server : Except Fault DriverEntry) (limit : Option Nat) (request : ChatRequest) (w : World)
    (place : Nat) :
    let work : Run α := do
      let driver ← Router.lift server
      let reply ← Run.complete driver limit request
      Router.lift (read reply)
    see (work (w.replying place bare)).1 = see (work (w.replying place wrapped)).1 := by
  intro work
  cases server with
  | error e => rfl
  | ok driver =>
      have answer (text : String) : (work (w.replying place text)).1 =
          (Run.complete driver limit request (w.replying place text)).1.bind read :=
        Run.bind_lift_answer read _
      have reworded := complete_replying driver limit request w place bare wrapped
      rw [answer, answer]
      generalize (Run.complete driver limit request (w.replying place bare)).1 = plain at *
      generalize (Run.complete driver limit request (w.replying place wrapped)).1 = enclosed at *
      cases reworded with
      | same => rfl
      | texts reply => exact blind reply

/-- The pieces that a reply holds. -/
def Chunks.ofReply (reply : ChatResponse) : Except Fault Chunks :=
  match textsOfReply? reply.content with
  | some chunks => .ok ⟨chunks, reply.model, reply.usage⟩
  | none => .error (.provider "chunk output is not a JSON array of strings")

theorem Chunks.ofReply_eq (reply : ChatResponse) {texts : List String}
    (read : textsOfReply? reply.content = some texts) :
    ofReply reply = .ok ⟨texts, reply.model, reply.usage⟩ := by
  rw [ofReply, read]

theorem Router.chunk_eq (r : Router) (text lang : String) (now : Local) :
    r.chunk text lang now = (do
      let driver ← lift (r.chat UsageKey.chunk)
      let reply ← Run.complete driver none
        (.plain (some (r.instruction .chunk lang now)) [.ofUser text])
      lift (Chunks.ofReply reply)) := by
  unfold chunk workOn
  rw [bind_assoc]
  refine congrArg _ (funext fun driver => congrArg _ (funext fun reply => ?_))
  unfold Chunks.ofReply
  cases textsOfReply? reply.content <;> rfl

theorem mapError_map (f : α → β) (forget : Fault → Fault) (answer : Except Fault α) :
    (answer.map f).mapError forget = (answer.mapError forget).map f := by
  cases answer <;> rfl

section Fence

variable (fenced : Fenced bare.toList wrapped.toList)
  (unquoted : Text.startsWith Text.backquotes (Text.trim bare.toList) = false)

include fenced unquoted

theorem fencedJson_fenced : fencedJson wrapped = fencedJson bare := by
  rw [fencedJson, Text.unfenced_fenced fenced unquoted, ← fencedJson]

theorem alternatives_fenced (asked : String) :
    (Enhancement.alternatives bare asked).mapError Fault.unquoted =
      (Enhancement.alternatives wrapped asked).mapError Fault.unquoted := by
  unfold Enhancement.alternatives textsOfReply?
  rw [fencedJson_fenced fenced unquoted]
  split <;> rfl

theorem enhance_fenced (r : Router) (rag : RagConfig) (limit : Option Nat) (query : String)
    (history : List HistoryMessage) (lang : String) (now : Local) (w : World) (place : Nat) :
    (Enhancement.enhance r rag limit query history lang now (w.replying place bare)).1.mapError
        Fault.unquoted =
      (Enhancement.enhance r rag limit query history lang now
        (w.replying place wrapped)).1.mapError Fault.unquoted := by
  unfold Enhancement.enhance
  split
  case isTrue => rfl
  case isFalse =>
    simp only [bind_pure_comp, ← Run.lift_map]
    refine observed_replying (fun reply => ?_) r.enhancer limit _ w place
    simp only [mapError_map, alternatives_fenced fenced unquoted]

theorem chunk_fenced (r : Router) (text lang : String) (now : Local) (w : World) (place : Nat) :
    (r.chunk text lang now (w.replying place bare)).1 =
      (r.chunk text lang now (w.replying place wrapped)).1 := by
  rw [Router.chunk_eq]
  refine @observed_replying _ _ _ _ _ id (fun reply => ?_) (r.chat UsageKey.chunk) none _ w place
  simp only [Chunks.ofReply, textsOfReply?, fencedJson_fenced fenced unquoted]

end Fence

theorem fence_transparent :
    (∀ body s : List Char, Fenced body s → Text.unfenced s = Text.trim body) ∧
      ∀ bare wrapped : String, Fenced bare.toList wrapped.toList →
        Text.startsWith Text.backquotes (Text.trim bare.toList) = false →
        (∀ (r : Router) (rag : RagConfig) (limit : Option Nat) (query : String)
          (history : List HistoryMessage) (lang : String) (now : Local) (w : World) (place : Nat),
          (Enhancement.enhance r rag limit query history lang now
              (w.replying place bare)).1.mapError Fault.unquoted =
            (Enhancement.enhance r rag limit query history lang now
              (w.replying place wrapped)).1.mapError Fault.unquoted) ∧
        ∀ (r : Router) (text lang : String) (now : Local) (w : World) (place : Nat),
          (r.chunk text lang now (w.replying place bare)).1 =
            (r.chunk text lang now (w.replying place wrapped)).1 :=
  ⟨fun _ _ => Text.unfenced_of_fenced, fun _ _ fenced unquoted =>
    ⟨enhance_fenced fenced unquoted, chunk_fenced fenced unquoted⟩⟩

/-- An array of texts, one of which ends in a code fence itself. -/
def bareReply : String := " [\"spring\", \"\x60\x60\x60\"]\n"

/-- The same array in a code fence with white space around it. -/
def wrappedReply : String := "\n\x60\x60\x60json\x60\n" ++ bareReply ++ "\n\x60\x60\x60 \n"

theorem chunk_transparent :
    Fenced bareReply.toList wrappedReply.toList ∧
      Text.startsWith Text.backquotes (Text.trim bareReply.toList) = false ∧
      ∃ (now : Local) (w : World) (chunks : Chunks), chunks.chunks = ["spring", "\x60\x60\x60"] ∧
        (Enhancement.soleRouter.chunk "text" "en" now (w.replying 0 bareReply)).1 = .ok chunks ∧
        (Enhancement.soleRouter.chunk "text" "en" now (w.replying 0 wrappedReply)).1 =
          .ok chunks := by
  let now : Local := ⟨⟨2024, 5, 1⟩, 0, 0⟩
  let driver : ScriptedDriver := { Enhancement.replyingDriver with chat := [] }
  let w : World := .ofDrivers [driver]
  have fenced : Fenced bareReply.toList wrappedReply.toList :=
    @Fenced.fence bareReply.toList ['\n'] "json\x60".toList " \n".toList
      (by decide) (by decide) (by decide)
  have unquoted : Text.startsWith Text.backquotes (Text.trim bareReply.toList) = false := by
    decide +kernel
  have read : textsOfReply? bareReply = some ["spring", "\x60\x60\x60"] := by decide +kernel
  have served : Enhancement.soleRouter.chat UsageKey.chunk = .ok Enhancement.soleEntry := by
    decide +kernel
  have answered (request : ChatRequest) :
      (Run.complete Enhancement.soleEntry none request (w.replying 0 bareReply)).1 =
        .ok ((driver.record request).response bareReply) := rfl
  have cut : (Enhancement.soleRouter.chunk "text" "en" now (w.replying 0 bareReply)).1 =
      .ok ⟨["spring", "\x60\x60\x60"], driver.model, ScriptedDriver.usage⟩ := by
    rw [Router.chunk_eq, served, Run.bind_of_ok (Run.lift_eq_ok.mpr ⟨rfl, rfl⟩),
      Run.bind_lift_answer, answered, Except.bind]
    exact Chunks.ofReply_eq ((driver.record _).response bareReply) read
  have same := (fence_transparent.2 bareReply wrappedReply fenced unquoted).2
    Enhancement.soleRouter "text" "en" now w 0
  exact ⟨fenced, unquoted, now, w, _, rfl, cut, same.symm.trans cut⟩

end NoteAssistant
