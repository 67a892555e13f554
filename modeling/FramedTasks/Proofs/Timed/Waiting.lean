import FramedTasks.Proofs.Frame.Buffered
import FramedTasks.Worker.Timed

/-! # Waiting in time

`Timeline.Brings` says which bytes a timeline brings before its end, at whatever times. A wait over
it takes the first frame off these bytes, or leaves them for the next wait when its deadline has
passed (`Awaited.waited_waitFrom`). A deadline passes only while an event is still to come, so that
waits come to an end.
-/

namespace FramedTasks

open FramedTasks.Frame (take ending effectiveLimit)

/-- The events bring some bytes, and then the end of the stream. -/
inductive Timeline.Brings (hangs : Bool) : List (Nat × TimedEvent) → Bytes → Prop
  | ended : hangs = false → Brings hangs [] []
  | closed (time : Nat) (rest : List (Nat × TimedEvent)) : Brings hangs ((time, .closed) :: rest) []
  | data (time : Nat) {piece bytes : Bytes} {rest : List (Nat × TimedEvent)} :
      Brings hangs rest bytes → Brings hangs ((time, .data piece) :: rest) (piece ++ bytes)

/-- No event lies after the last time. -/
theorem Timeline.le_lastTime (timeline : Timeline) :
    ∀ event ∈ timeline.events, event.1 ≤ timeline.lastTime := by
  have bounded (times : List Nat) (start : Nat) :
      start ≤ times.foldl max start ∧ ∀ time ∈ times, time ≤ times.foldl max start := by
    induction times generalizing start with
    | nil => simp
    | cons first rest ih =>
      obtain ⟨least, others⟩ := ih (max start first)
      simp only [List.foldl_cons, List.mem_cons, forall_eq_or_imp]
      exact ⟨by omega, by omega, others⟩
  intro event member
  exact (bounded _ 0).2 _ (List.mem_map_of_mem member)

namespace Awaited

/-- What a wait comes to, by the bytes that were held or had still to come before it. -/
inductive Waited (limit : Nat) (hangs : Bool) (bytes : Bytes) : Awaited → Prop
  | found {payload buffer left : Bytes} {time : Nat} {events : List (Nat × TimedEvent)} :
      take (effectiveLimit limit) bytes = .ok (some (payload, buffer ++ left)) →
      Timeline.Brings hangs events left → Waited limit hangs bytes ⟨.payload payload, time, buffer, events⟩
  /-- The next event lies after the deadline. -/
  | elapsed {buffer left : Bytes} {time : Nat} {events : List (Nat × TimedEvent)} :
      bytes = buffer ++ left → Timeline.Brings hangs events left → (∃ event ∈ events, time < event.1) →
      Waited limit hangs bytes ⟨.elapsed, time, buffer, events⟩
  | closed {buffer : Bytes} {time : Nat} {events : List (Nat × TimedEvent)} :
      (∀ payload rest, take (effectiveLimit limit) bytes ≠ .ok (some (payload, rest))) →
      ending (effectiveLimit limit) bytes = .endOfStream →
      Waited limit hangs bytes ⟨.closed, time, buffer, events⟩
  | failed {error : FrameError} {buffer : Bytes} {time : Nat} {events : List (Nat × TimedEvent)} :
      (∀ payload rest, take (effectiveLimit limit) bytes ≠ .ok (some (payload, rest))) →
      ending (effectiveLimit limit) bytes = error → error ≠ .endOfStream →
      Waited limit hangs bytes ⟨.failed error, time, buffer, events⟩

variable {limit : Nat} {hangs : Bool} {deadline : Option Nat}

/-- The end of the stream, no frame being complete. -/
theorem waited_atEnd {buffer : Bytes} (incomplete : take (effectiveLimit limit) buffer = .ok none)
    (time : Nat) (events : List (Nat × TimedEvent)) :
    Waited limit hangs buffer (atEnd limit time buffer events) := by
  have other (payload rest : Bytes) :
      take (effectiveLimit limit) buffer ≠ .ok (some (payload, rest)) := by simp [incomplete]
  have ended := Frame.ending_of_none incomplete
  simp only [atEnd, Frame.Buffered.last_of_next, incomplete]
  cases empty : buffer.isEmpty with
  | true => exact .closed other (by simp [ended, Frame.Reader.closedError, empty])
  | false => exact .failed other ended (by simp [Frame.Reader.closedError, empty])

theorem waited_waitFrom {now : Nat} {buffer left : Bytes} {events : List (Nat × TimedEvent)}
    (brings : Timeline.Brings hangs events left) (early : isPast deadline now = false) :
    Waited limit hangs (buffer ++ left) (waitFrom limit hangs deadline now buffer events) := by
  fun_induction waitFrom limit hangs deadline now buffer events generalizing left with
  | case1 now buffer events payload rest found =>
    exact .found (Frame.take_append (Nat.min_le_right ..) (Frame.Buffered.take_of_next_some found)) brings
  | case2 now buffer events error rest found =>
    have refused := @Frame.take_append_of_error _ _ left _ (Frame.Buffered.take_of_next_error found)
    obtain ⟨size, rfl⟩ := Frame.error_of_take refused
    exact .failed (by simp [refused]) (Frame.ending_of_error refused) (by simp)
  | case3 now buffer rest found silent =>
    cases brings with
    | ended closes => simp [silent] at closes
  | case4 now buffer rest found silent =>
    cases brings with
    | ended =>
      rw [List.append_nil]
      exact waited_atEnd (Frame.Buffered.take_of_next_none found).1 ..
  | case5 now buffer rest found time event later past =>
    cases deadline with
    | none => simp [isPast] at past
    | some moment =>
      simp only [isPast, Option.any_some, decide_eq_true_eq, decide_eq_false_iff_not] at past early
      exact .elapsed rfl brings ⟨_, List.mem_cons_self .., by omega⟩
  | case6 now buffer rest found time later past piece ih =>
    cases brings with
    | data _ brings =>
      rw [← List.append_assoc]
      exact ih brings (by simpa using past)
  | case7 => cases brings
  | case8 now buffer rest found time later past =>
    cases brings with
    | closed =>
      rw [List.append_nil]
      exact waited_atEnd (Frame.Buffered.take_of_next_none found).1 ..

/-- A wait leaves events at the end of the timeline. -/
theorem events_atEnd (limit time : Nat) (buffer : Bytes) (events : List (Nat × TimedEvent)) :
    (atEnd limit time buffer events).events = events := by
  simp only [atEnd]
  split <;> rfl

theorem events_waitFrom (limit : Nat) (hangs : Bool) (deadline : Option Nat) (now : Nat)
    (buffer : Bytes) (events : List (Nat × TimedEvent)) :
    (waitFrom limit hangs deadline now buffer events).events <:+ events := by
  have cutEvents (now : Nat) (buffer : Bytes) (events : List (Nat × TimedEvent)) :
      (cut deadline now buffer events).events = events := by cases deadline <;> rfl
  fun_induction waitFrom limit hangs deadline now buffer events with
  | case1 => exact List.suffix_rfl
  | case2 => exact List.suffix_rfl
  | case3 => exact (cutEvents ..) ▸ List.suffix_rfl
  | case4 => exact (events_atEnd ..) ▸ List.suffix_rfl
  | case5 => exact (cutEvents ..) ▸ List.suffix_rfl
  | case6 _ _ _ _ _ _ _ _ ih => exact ih.trans (List.suffix_cons ..)
  | case7 => exact List.suffix_cons ..
  | case8 =>
    rw [events_atEnd]
    exact List.suffix_cons ..

end Awaited

end FramedTasks
