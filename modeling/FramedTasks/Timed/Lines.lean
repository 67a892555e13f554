import FramedTasks.Control.LineSource
import FramedTasks.Timed.Timeline

/-! # Control lines in time

A poll of a timeline waits for the next line for a bounded time. A line whose beginning arrives in
one poll and whose end arrives in a later one is kept whole.
-/

namespace FramedTasks

/-- A timeline with the bytes of an unfinished line. -/
structure TimedLines where
  timeline : Timeline
  buffer : Bytes := []
deriving DecidableEq, Repr

namespace TimedLines

def work (lines : TimedLines) : Nat := Timeline.work lines.timeline.events + lines.buffer.length

/-- The outcome that a line makes. Of its end, no more than one line break is left out. -/
def pollOf (line : Bytes) : Poll :=
  match Utf8.decode line with
  | .ok text => .token (Lines.dropBreak text)
  | .error _ => .fault LineSource.notUtf8

/-- The poll at the end of the stream: a line without a line feed, or nothing. -/
def atEnd (time : Nat) (lines : TimedLines) : Nat × Poll × TimedLines :=
  if lines.buffer.isEmpty then (time, .closed, lines)
  else (time, pollOf lines.buffer, { lines with buffer := [] })

/-- Wait for a line from a time on until a deadline. -/
def waitFrom (hangs : Bool) (deadline now : Nat) (buffer : Bytes)
    (events : List (Nat × TimedEvent)) : Nat × Poll × TimedLines :=
  match Lines.firstComplete? buffer with
  | some (line, rest) => (now, pollOf line, ⟨⟨events, hangs⟩, rest⟩)
  | none =>
    match events with
    | [] =>
      if hangs then (deadline, .idle, ⟨⟨[], hangs⟩, buffer⟩) else atEnd now ⟨⟨[], hangs⟩, buffer⟩
    | (time, event) :: rest =>
      if deadline < max now time then (deadline, .idle, ⟨⟨(time, event) :: rest, hangs⟩, buffer⟩)
      else
        match event with
        | .data bytes => waitFrom hangs deadline (max now time) (buffer ++ bytes) rest
        | .fault fault => (max now time, .fault fault, ⟨⟨rest, hangs⟩, buffer⟩)
        | .closed => atEnd (max now time) ⟨⟨rest, hangs⟩, buffer⟩

/-- Poll from a time on for at most an interval: the time at which the poll ends, its outcome and
the source after it. -/
def poll (lines : TimedLines) (now interval : Nat) : Nat × Poll × TimedLines :=
  waitFrom lines.timeline.hangs (now + interval) now lines.buffer lines.timeline.events

/-- What a poll does: it costs work unless it is idle, in which case it lasts until the deadline,
or finds the source closed. -/
structure Progress (deadline now before : Nat) (outcome : Nat × Poll × TimedLines) : Prop where
  work : outcome.2.2.work ≤ before
  late : outcome.2.1 = .idle → outcome.1 = deadline
  time : outcome.2.1 ≠ .idle → now ≤ outcome.1
  token : ∀ text, outcome.2.1 = .token text → outcome.2.2.work < before

theorem pollOf_ne (line : Bytes) : pollOf line ≠ .idle := by
  simp only [pollOf]
  split <;> simp

theorem progress_atEnd {deadline now time : Nat} {lines : TimedLines} (later : now ≤ time) :
    Progress deadline now lines.work (atEnd time lines) := by
  simp only [atEnd]
  split
  · exact ⟨Nat.le_refl _, by simp, fun _ => later, by simp⟩
  · next nonempty =>
    have shorter : 0 < lines.buffer.length := by
      cases shape : lines.buffer with
      | nil => simp [shape] at nonempty
      | cons => simp
    exact ⟨by simp [work], fun idle => absurd idle (pollOf_ne _), fun _ => later,
      fun _ _ => by simpa [work] using shorter⟩

theorem progress_waitFrom (hangs : Bool) (deadline now : Nat) (buffer : Bytes)
    (events : List (Nat × TimedEvent)) :
    Progress deadline now (Timeline.work events + buffer.length)
      (waitFrom hangs deadline now buffer events) := by
  fun_induction waitFrom hangs deadline now buffer events with
  | case1 now buffer events line rest found =>
    obtain ⟨rfl, nonempty⟩ := Lines.append_of_firstComplete? found
    have := List.length_pos_iff.mpr nonempty
    exact ⟨by simp [work], fun idle => absurd idle (pollOf_ne _), fun _ => Nat.le_refl _,
      fun _ _ => by simp [work]; omega⟩
  | case2 => exact ⟨by simp [work], by simp, by simp, by simp⟩
  | case3 now buffer => exact @progress_atEnd deadline now now ⟨⟨[], hangs⟩, buffer⟩ (Nat.le_refl _)
  | case4 => exact ⟨by simp [work], by simp, by simp, by simp⟩
  | case5 now buffer _ time rest _ bytes ih =>
    obtain ⟨weak, late, later, strict⟩ := ih
    simp only [List.length_append] at weak strict
    exact ⟨by simp only [Timeline.work_cons, Timeline.eventWork]; omega, late,
      fun busy => Nat.le_trans (Nat.le_max_left ..) (later busy),
      fun text token => by
        have := strict text token
        simp only [Timeline.work_cons, Timeline.eventWork]
        omega⟩
  | case6 => exact ⟨by simp [work], by simp, fun _ => Nat.le_max_left .., by simp⟩
  | case7 now buffer _ time rest =>
    obtain ⟨weak, late, later, strict⟩ := @progress_atEnd deadline now (max now time)
      ⟨⟨rest, hangs⟩, buffer⟩ (Nat.le_max_left ..)
    simp only [work] at weak strict
    exact ⟨by simp only [Timeline.work_cons, Timeline.eventWork, work]; omega, late, later,
      fun text token => by
        have := strict text token
        simp only [Timeline.work_cons, Timeline.eventWork, work]
        omega⟩

theorem progress_poll (lines : TimedLines) (now interval : Nat) :
    Progress (now + interval) now lines.work (lines.poll now interval) :=
  progress_waitFrom ..

end TimedLines

end FramedTasks
