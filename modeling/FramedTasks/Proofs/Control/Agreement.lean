import FramedTasks.Proofs.Control.Sources
import FramedTasks.Proofs.Timed.Listener
import FramedTasks.Proofs.Timed.Waiting

/-! # All listeners recognise the same control text

A listener in time takes the lines off its timeline one by one, like the listeners that poll a text
in memory or a descriptor, and does so before its timeline ends (`Brings.poll`). The same text makes
all of them end in the same way, whatever the pieces and the pauses in which it arrives.
-/

namespace FramedTasks

open Lines (lineFeed separated firstComplete?)

/-- The events bring some bytes, and then the end of the stream for good. -/
inductive Timeline.Delivers : List (Nat × TimedEvent) → Bytes → Prop
  | ended : Delivers [] []
  | closed (time : Nat) {rest : List (Nat × TimedEvent)} :
      Delivers rest [] → Delivers ((time, .closed) :: rest) []
  | data (time : Nat) {piece bytes : Bytes} {rest : List (Nat × TimedEvent)} :
      Delivers rest bytes → Delivers ((time, .data piece) :: rest) (piece ++ bytes)

namespace TimedLines

/-- The source holds or brings the bytes of some lines by a given time, and then its end. -/
structure Brings (horizon : Nat) (lines : List (List Char)) (source : TimedLines) : Prop where
  ends : source.timeline.hangs = false
  arrives : ∃ left, Timeline.Delivers source.timeline.events left ∧
    separated lineFeed (source.buffer ++ left) = lines.map Utf8.encodeChars
  punctual : ∀ event ∈ source.timeline.events, event.1 ≤ horizon

theorem tells_pollOf {line : List Char} {text : String}
    (same : trimChars text.toList = trimChars line) : (pollOf (Utf8.encode text)).Tells line := by
  refine ⟨Lines.dropBreak text, ?_, (Lines.trimChars_dropBreak text).trans same⟩
  simp only [pollOf, Utf8.decode_encode]

section Poll

variable {horizon deadline now : Nat} {lines : List (List Char)} {buffer left : Bytes}
  {events : List (Nat × TimedEvent)}

/-- What is left at the end of the stream is handed out. -/
theorem polled_atEnd (missing : firstComplete? buffer = none) (delivers : Timeline.Delivers events [])
    (whole : separated lineFeed buffer = lines.map Utf8.encodeChars)
    (punctual : ∀ event ∈ events, event.1 ≤ horizon) :
    (atEnd now ⟨⟨events, false⟩, buffer⟩).1 = now ∧
      Polled (Brings horizon) lines (atEnd now ⟨⟨events, false⟩, buffer⟩).2.1
        (atEnd now ⟨⟨events, false⟩, buffer⟩).2.2 := by
  simp only [atEnd]
  split
  · next empty =>
    rw [List.isEmpty_iff.mp empty] at whole
    obtain rfl : lines = [] := List.map_eq_nil_iff.mp whole.symm
    exact ⟨rfl, .closed⟩
  · next nonempty =>
    obtain ⟨chars, text, rfl, rfl, same⟩ :=
      Lines.lines_of_incomplete missing (by simpa using nonempty) whole
    exact ⟨rfl, .token (tells_pollOf same) ⟨rfl, ⟨[], delivers, rfl⟩, punctual⟩⟩

/-- A wait that begins before the end of the timeline ends before it, too. -/
theorem polled_waitFrom (delivers : Timeline.Delivers events left)
    (whole : separated lineFeed (buffer ++ left) = lines.map Utf8.encodeChars)
    (punctual : ∀ event ∈ events, event.1 ≤ horizon) (early : now ≤ horizon) :
    (waitFrom false deadline now buffer events).1 ≤ horizon ∧
      Polled (Brings horizon) lines (waitFrom false deadline now buffer events).2.1
        (waitFrom false deadline now buffer events).2.2 := by
  fun_induction waitFrom false deadline now buffer events generalizing left with
  | case1 now buffer events line rest found =>
    obtain ⟨chars, others, text, rfl, rfl, same, remains⟩ := Lines.lines_of_complete found whole
    exact ⟨early, .token (tells_pollOf same) ⟨rfl, ⟨left, delivers, remains⟩, punctual⟩⟩
  | case2 now buffer missing silent => contradiction
  | case3 now buffer missing ends =>
    cases delivers with
    | ended =>
      rw [List.append_nil] at whole
      obtain ⟨time, polled⟩ := @polled_atEnd horizon now _ _ _ missing .ended whole punctual
      exact ⟨time.trans_le early, polled⟩
  | case4 now buffer missing time event rest late =>
    have arrival := punctual _ (List.mem_cons_self ..)
    simp only at arrival ⊢
    exact ⟨by omega, .idle ⟨rfl, ⟨left, delivers, whole⟩, punctual⟩⟩
  | case5 now buffer missing time rest inTime piece ih =>
    have arrival := punctual _ (List.mem_cons_self ..)
    cases delivers with
    | data _ delivers =>
      apply ih delivers
      · rwa [List.append_assoc]
      · exact fun event member => punctual event (List.mem_cons_of_mem _ member)
      · exact Nat.max_le.mpr ⟨early, arrival⟩
  | case6 => cases delivers
  | case7 now buffer missing time rest inTime =>
    have arrival := punctual _ (List.mem_cons_self ..)
    cases delivers with
    | closed _ delivers =>
      rw [List.append_nil] at whole
      obtain ⟨ends, polled⟩ := @polled_atEnd horizon (max now time) _ _ _ missing delivers whole
        fun event member => punctual event (List.mem_cons_of_mem _ member)
      exact ⟨ends.trans_le (Nat.max_le.mpr ⟨early, arrival⟩), polled⟩

end Poll

theorem Brings.poll {horizon now : Nat} {lines : List (List Char)} {source : TimedLines}
    (brings : Brings horizon lines source) (interval : Nat) (early : now ≤ horizon) :
    (source.poll now interval).1 ≤ horizon ∧
      Polled (Brings horizon) lines (source.poll now interval).2.1
        (source.poll now interval).2.2 := by
  obtain ⟨left, delivers, whole⟩ := brings.arrives
  rw [TimedLines.poll, brings.ends]
  exact polled_waitFrom delivers whole brings.punctual early

end TimedLines

namespace TimedListener

variable {sentinel : String} {interval : Period} {horizon : Nat} {lines : List (List Char)}
  {state : TimedListener}

/-- A listener in the middle of a poll of a source that brings some lines by a given time. -/
structure Hearing (horizon : Nat) (lines : List (List Char)) (state : TimedListener) : Prop where
  polling : state.listener = .polling
  inTime : state.time ≤ horizon
  polled : Polled (TimedLines.Brings horizon) lines state.poll state.lines

theorem hearing_start {now : Nat} {source : TimedLines}
    (brings : TimedLines.Brings horizon lines source) (interval : Period) (early : now ≤ horizon) :
    Hearing horizon lines (start interval now {} source) := by
  obtain ⟨inTime, polled⟩ := brings.poll interval.millis early
  exact ⟨rfl, inTime, polled⟩

/-- A listener that lives until its timeline has ended comes to the verdict on its lines. -/
theorem Hearing.advance (hearing : Hearing horizon lines state) :
    (TimedListener.advance sentinel interval horizon {} state).1.listener =
        .ended (Listener.verdict sentinel lines).1 ∧
      (TimedListener.advance sentinel interval horizon {} state).2 =
        (Listener.verdict sentinel lines).2 := by
  generalize clear : ({} : Flag) = flag
  fun_induction TimedListener.advance sentinel interval horizon flag state generalizing lines with
  | case1 flag state polling late => exact absurd late (Nat.not_lt.mpr hearing.inTime)
  | case2 flag state polling due flag' heard ih =>
    subst clear
    obtain ⟨-, inTime, polled⟩ := hearing
    rw [polling] at heard
    generalize state.poll = poll at *
    generalize state.lines = source at *
    revert heard
    cases polled with
    | @token line lines poll source tells brings =>
      rw [Listener.hear_of_tells tells, Listener.verdict_cons]
      split
      · simp
      · rintro ⟨⟩
        exact ih (hearing_start brings interval inTime) rfl
    | idle brings =>
      rintro ⟨⟩
      exact ih (hearing_start brings interval inTime) rfl
    | closed => simp [Listener.hear]
  | case3 flag state polling due listener flag' other heard =>
    subst clear
    obtain ⟨-, inTime, polled⟩ := hearing
    rw [polling] at heard
    generalize state.poll = poll at *
    generalize state.lines = source at *
    revert heard
    cases polled with
    | @token line lines poll source tells brings =>
      rw [Listener.hear_of_tells tells, Listener.verdict_cons]
      split
      · rintro ⟨⟩
        exact ⟨rfl, rfl⟩
      · rintro ⟨⟩
        exact (other rfl).elim
    | idle brings =>
      rintro ⟨⟩
      exact (other rfl).elim
    | closed =>
      rintro ⟨⟩
      exact ⟨rfl, rfl⟩
  | case4 flag state other => exact absurd hearing.polling other

end TimedListener

/-- The same text makes every listener end in the same way and leaves the same flag, nobody else
setting it: with the sentinel if a line is the sentinel, white space around both left out, and else
with the end of the source. Neither the pieces of the text matter nor the pauses between them. -/
theorem listeners_agree (sentinel text : String) (interval : Period)
    {arrivals : List Arrival} (whole : Arrival.bytesOf arrivals = Utf8.encode text)
    {events : List (Nat × TimedEvent)} (delivers : Timeline.Delivers events (Utf8.encode text)) :
    let verdict := Listener.verdict sentinel (separated '\n' text.toList)
    Listener.alone sentinel (LineSource.polls ⟨Utf8.encode text⟩) = verdict ∧
      Listener.alone sentinel (Descriptor.polls { arrivals, ending := .closed }) = verdict ∧
      TimedListener.listen sentinel interval { events } {} none = (some verdict.1, verdict.2) := by
  have lines := Lines.separated_encodeChars text.toList
  refine ⟨?_, ?_, ?_⟩
  · apply Listener.listen_of_told
    exact LineSource.told_polls lines
  · apply Listener.listen_of_told
    apply Descriptor.told_polls
    refine ⟨rfl, ?_, fun ended => Bool.noConfusion ended⟩
    rw [List.nil_append, whole]
    exact lines
  · have brings : TimedLines.Brings (Timeline.lastTime { events })
        (separated '\n' text.toList) { timeline := { events } } :=
      ⟨rfl, ⟨_, delivers, lines⟩, Timeline.le_lastTime { events }⟩
    obtain ⟨ended, flag⟩ := @TimedListener.Hearing.advance sentinel interval _ _ _
      (TimedListener.hearing_start brings interval (Nat.zero_le _))
    simp only [TimedListener.listen, Option.getD_none, ended, flag]

/-- The sentinel is a last line without a line feed, and the pieces cut a character and a line break. -/
theorem listeners_agree_cut :
    let text := "é\r\n bye"
    let arrivals : List Arrival := [.bytes [0xC3], .idle, .bytes [0xA9, 13], .bytes [10, 32, 98, 121, 101]]
    let events : List (Nat × TimedEvent) :=
      [(3, .data [0xC3, 0xA9]), (700, .data [13]), (800, .data [10, 32, 98]), (801, .data [121, 101]),
        (2000, .closed)]
    Arrival.bytesOf arrivals = Utf8.encode text ∧ Timeline.Delivers events (Utf8.encode text) ∧
      Listener.alone "bye\t" (LineSource.polls ⟨Utf8.encode text⟩) = (.sentinel, ⟨true⟩) ∧
      Listener.alone "bye\t" (Descriptor.polls { arrivals, ending := .closed }) = (.sentinel, ⟨true⟩) ∧
      TimedListener.listen "bye\t" (.ofNat 20) { events } {} none = (some .sentinel, ⟨true⟩) := by
  intro text arrivals events
  have whole : Arrival.bytesOf arrivals = Utf8.encode text := by decide
  have spelled : Utf8.encode text = [0xC3, 0xA9] ++ ([13] ++ ([10, 32, 98] ++ ([121, 101] ++ []))) := by
    decide
  have delivers : Timeline.Delivers events (Utf8.encode text) :=
    spelled ▸ .data 3 (.data 700 (.data 800 (.data 801 (.closed 2000 .ended))))
  have found : Listener.verdict "bye\t" (separated '\n' text.toList) = (.sentinel, ⟨true⟩) := by decide
  obtain ⟨memory, pieces, waits⟩ := listeners_agree "bye\t" text (.ofNat 20) whole delivers
  rw [found] at memory pieces waits
  exact ⟨whole, delivers, memory, pieces, waits⟩

end FramedTasks
