import FramedTasks.Proofs.Frame.Delivery
import FramedTasks.Proofs.Worker.Cycle

/-! # The course of an exchange

`Course.of` says what comes of the bytes of a stream if nobody asks for a shutdown. It takes the
frames of the bytes one after another and knows nothing of time, of the pieces in which the bytes
arrive, or of a listener. What a worker does is compared with it: the worker follows the course to
its end, or stops after some of its requests (`Course.Follows`). The lemmas on `Course.Continues`
are the steps of that comparison and hold of any worker.
-/

namespace FramedTasks

open FramedTasks.Frame (wire take split ending)
open FramedTasks.BlockingWorker (replyFrames replyFrames_append)

/-- A function of the tasks so far: the answer to a task, and the state for the next one. -/
abbrev Answering (σ : Type) := σ → InputTask → Answer × σ

def Call.outcome {σ : Type} (call : Call σ) : Answer × σ := (call.answer, call.state)

/-- What comes of one request: whether it was answered, the state after it, the task with its
reply, and the bytes written. -/
structure Turn (σ : Type) where
  result : Except WorkerError Unit
  state : σ
  exchanges : List (InputTask × OutputTask) := []
  written : Bytes := []

/-- What comes of several requests: how they end, the tasks with their replies, and the bytes
written. -/
structure Course where
  result : Except WorkerError Termination
  exchanges : List (InputTask × OutputTask) := []
  written : Bytes := []

section Definitions

variable {σ : Type} (codec : Codec) (limit : Nat) (answering : Answering σ)

/-- Decode a request, have it answered and write the frame of the reply, unless it is too large. -/
def Turn.of (state : σ) (payload : Bytes) : Turn σ :=
  match (codec.decode payload : Except CodecError InputTask) with
  | .error error => { result := .error (.decode error), state }
  | .ok task =>
    let (answer, state) := answering state task
    let reply := answer.toReply
    let bytes := codec.encode reply
    if limit < bytes.length then
      { result := .error (.send (.payloadTooLarge bytes.length limit)), state,
        exchanges := [(task, reply)] }
    else { result := .ok (), state, exchanges := [(task, reply)], written := wire bytes }

namespace Course

/-- How a worker ends that finds no further request. -/
def finish : FrameError → Except WorkerError Termination
  | .endOfStream => .ok .peerClosed
  | error => .error (.receive error)

theorem finish_of_ne {error : FrameError} (failed : error ≠ .endOfStream) :
    finish error = .error (.receive error) := by
  cases error <;> trivial

def after (course : Course) (exchanges : List (InputTask × OutputTask)) (written : Bytes) : Course :=
  { course with
    exchanges := exchanges ++ course.exchanges
    written := written ++ course.written }

/-- What comes of some payloads, given why there is no further one. -/
def along (last : FrameError) : σ → List Bytes → Course
  | _, [] => { result := finish last }
  | state, payload :: rest =>
    let turn := Turn.of codec limit answering state payload
    match turn.result with
    | .error error => { result := .error error, exchanges := turn.exchanges, written := turn.written }
    | .ok () => (along last turn.state rest).after turn.exchanges turn.written

def of (state : σ) (bytes : Bytes) : Course :=
  let (payloads, rest) := split limit bytes
  along codec limit answering (ending limit rest) state payloads

/-- The bytes written are the complete frames of the replies; one that was too large to be sent is
not among them. -/
def Complete (course : Course) : Prop :=
  match course.result with
  | .error (.send (.payloadTooLarge ..)) =>
    course.exchanges ≠ [] ∧ course.written = (replyFrames codec course.exchanges.dropLast).flatten
  | _ => course.written = (replyFrames codec course.exchanges).flatten

/-- A course stops somewhere on the way of another one, with the reply to every request complete. -/
structure Follows (front course : Course) : Prop where
  exchanges : front.exchanges <+: course.exchanges
  written : front.written <+: course.written
  complete : Complete codec front

/-- What a worker adds to what was done before is a front of the course, and all of it unless the
worker is disturbed. -/
def Continues (course : Course) (calm : Prop) (exchanges : List (InputTask × OutputTask))
    (written : Bytes) (report : Course) : Prop :=
  ∃ front, Follows codec front course ∧ (calm → front = course) ∧
    report = front.after exchanges written

end Course

end Definitions

section Turn

variable {σ : Type} {codec : Codec} {limit : Nat} {answering : Answering σ} {state : σ}
  {payload : Bytes}

theorem Turn.of_error {error : CodecError}
    (unread : (codec.decode payload : Except CodecError InputTask) = .error error) :
    Turn.of codec limit answering state payload = { result := .error (.decode error), state } := by
  rw [Turn.of, unread]

theorem Turn.of_excess {task : InputTask}
    (read : (codec.decode payload : Except CodecError InputTask) = .ok task)
    (excess : limit < (codec.encode (answering state task).1.toReply).length) :
    Turn.of codec limit answering state payload =
      { result := .error (.send (.payloadTooLarge
          (codec.encode (answering state task).1.toReply).length limit)),
        state := (answering state task).2,
        exchanges := [(task, (answering state task).1.toReply)] } := by
  rw [Turn.of, read]
  exact if_pos excess

theorem Turn.of_fits {task : InputTask}
    (read : (codec.decode payload : Except CodecError InputTask) = .ok task)
    (fits : ¬ limit < (codec.encode (answering state task).1.toReply).length) :
    Turn.of codec limit answering state payload =
      { result := .ok (), state := (answering state task).2,
        exchanges := [(task, (answering state task).1.toReply)],
        written := wire (codec.encode (answering state task).1.toReply) } := by
  rw [Turn.of, read]
  exact if_neg fits

/-- A request that was answered leaves the complete frame of its reply. -/
theorem Turn.written_of_ok (answered : (Turn.of codec limit answering state payload).result = .ok ()) :
    (Turn.of codec limit answering state payload).written =
      (replyFrames codec (Turn.of codec limit answering state payload).exchanges).flatten := by
  simp only [Turn.of] at answered ⊢
  split
  · simp_all
  · split
    · simp_all
    · simp [replyFrames]

end Turn

namespace Course

variable {σ : Type} {codec : Codec} {limit : Nat} {answering : Answering σ} {state : σ}
  {bytes payload rest : Bytes} {front course report : Course} {calm : Prop}
  {exchanges : List (InputTask × OutputTask)} {written : Bytes}

@[simp] theorem after_after (course : Course) (first second : List (InputTask × OutputTask))
    (out more : Bytes) :
    (course.after second more).after first out = course.after (first ++ second) (out ++ more) := by
  simp [after]

theorem Complete.after (complete : Complete codec course)
    (whole : written = (replyFrames codec exchanges).flatten) :
    Complete codec (course.after exchanges written) := by
  unfold Complete at complete ⊢
  simp only [Course.after]
  split at complete
  · obtain ⟨nonempty, out⟩ := complete
    constructor
    · simp [nonempty]
    · rw [List.dropLast_append_of_ne_nil nonempty, replyFrames_append, List.flatten_append, whole, out]
  · rw [replyFrames_append, List.flatten_append, whole, complete]

/-- A turn that ends the course leaves nothing incomplete. -/
theorem complete_of_failed {error : WorkerError}
    (failed : (Turn.of codec limit answering state payload).result = .error error) :
    Complete codec
      { result := .error error
        exchanges := (Turn.of codec limit answering state payload).exchanges
        written := (Turn.of codec limit answering state payload).written } := by
  simp only [Turn.of] at failed ⊢
  split at failed
  · obtain rfl := Except.error.inj failed
    rfl
  · split at failed
    · next excess =>
      obtain rfl := Except.error.inj failed
      simp only [if_pos excess]
      exact ⟨by simp, rfl⟩
    · simp at failed

theorem complete_along (last : FrameError) (state : σ) (payloads : List Bytes) :
    Complete codec (along codec limit answering last state payloads) := by
  induction payloads generalizing state with
  | nil => cases last <;> rfl
  | cons payload rest ih =>
    simp only [along]
    split
    · next error failed => exact complete_of_failed failed
    · next answered => exact (ih _).after (Turn.written_of_ok answered)

namespace Follows

theorem whole (complete : Complete codec course) : Follows codec course course :=
  ⟨List.prefix_rfl, List.prefix_rfl, complete⟩

theorem stopped (course : Course) : Follows codec { result := .ok .shutdown } course :=
  ⟨List.nil_prefix, List.nil_prefix, rfl⟩

theorem after (follows : Follows codec front course)
    (whole : written = (replyFrames codec exchanges).flatten) :
    Follows codec (front.after exchanges written) (course.after exchanges written) :=
  ⟨(List.prefix_append_right_inj _).mpr follows.exchanges,
    (List.prefix_append_right_inj _).mpr follows.written, follows.complete.after whole⟩

end Follows

theorem of_of_take (found : take limit bytes = .ok (some (payload, rest))) :
    of codec limit answering state bytes =
      let turn := Turn.of codec limit answering state payload
      match turn.result with
      | .error error =>
        { result := .error error, exchanges := turn.exchanges, written := turn.written }
      | .ok () => (of codec limit answering turn.state rest).after turn.exchanges turn.written := by
  simp only [of, Frame.split_of_take found, along]

theorem of_of_take_ne (other : ∀ payload rest, take limit bytes ≠ .ok (some (payload, rest))) :
    of codec limit answering state bytes = { result := finish (ending limit bytes) } := by
  simp only [of, Frame.split_of_take_ne other, along]

namespace Continues

/-- A worker that was disturbed may stop between two requests. -/
theorem stopped (disturbed : ¬ calm) (course : Course) :
    Continues codec course calm exchanges written ⟨.ok .shutdown, exchanges, written⟩ :=
  ⟨_, .stopped course, fun undisturbed => absurd undisturbed disturbed, by simp [after]⟩

/-- A worker that had done nothing before. -/
theorem fresh (continues : Continues codec course calm [] [] report) :
    Follows codec report course ∧ (calm → report = course) := by
  obtain ⟨front, follows, same, rfl⟩ := continues
  exact ⟨follows, same⟩

/-- Something was done that left the worker as calm as it was. -/
theorem weaken {later : Prop} (continues : Continues codec course later exchanges written report)
    (stays : calm → later) : Continues codec course calm exchanges written report := by
  obtain ⟨front, follows, same, total⟩ := continues
  exact ⟨front, follows, fun undisturbed => same (stays undisturbed), total⟩

/-- There is no further request. -/
theorem drained {result : Except WorkerError Termination}
    (other : ∀ payload rest, take limit bytes ≠ .ok (some (payload, rest)))
    (ends : result = finish (ending limit bytes)) :
    Continues codec (of codec limit answering state bytes) calm exchanges written
      ⟨result, exchanges, written⟩ := by
  have whole : Complete codec (of codec limit answering state bytes) := complete_along ..
  refine ⟨_, .whole whole, fun _ => rfl, ?_⟩
  rw [of_of_take_ne other, ends]
  simp [after]

/-- The request could not be answered. -/
theorem failed {error : WorkerError} (found : take limit bytes = .ok (some (payload, rest)))
    (failed : (Turn.of codec limit answering state payload).result = .error error) :
    Continues codec (of codec limit answering state bytes) calm exchanges written
      ⟨.error error, exchanges ++ (Turn.of codec limit answering state payload).exchanges,
        written ++ (Turn.of codec limit answering state payload).written⟩ := by
  have whole : Complete codec (of codec limit answering state bytes) := complete_along ..
  refine ⟨_, .whole whole, fun _ => rfl, ?_⟩
  simp only [of_of_take found, failed]
  rfl

/-- The request was answered, and the rest of the course follows. -/
theorem answered {later : Prop} (found : take limit bytes = .ok (some (payload, rest)))
    (answered : (Turn.of codec limit answering state payload).result = .ok ())
    (stays : calm → later)
    (continues : Continues codec
      (of codec limit answering (Turn.of codec limit answering state payload).state rest) later
      (exchanges ++ (Turn.of codec limit answering state payload).exchanges)
      (written ++ (Turn.of codec limit answering state payload).written) report) :
    Continues codec (of codec limit answering state bytes) calm exchanges written report := by
  obtain ⟨front, follows, same, rfl⟩ := continues
  refine ⟨_, ?_, ?_, (after_after front exchanges _ written _).symm⟩
  · simp only [of_of_take found, answered]
    exact follows.after (Turn.written_of_ok answered)
  · intro undisturbed
    simp only [of_of_take found, answered, same (stays undisturbed)]

end Continues

end Course

end FramedTasks
