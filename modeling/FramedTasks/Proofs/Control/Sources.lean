import FramedTasks.Control.Descriptor
import FramedTasks.Control.LineSource
import FramedTasks.Control.Listener
import FramedTasks.Proofs.Text.Lines

/-! # Sources of the same lines

What a listener makes of its source depends on the lines that the tokens tell, and not on the polls
that come in between (`listen_of_told`). A text in memory and a descriptor that delivers its bytes in
pieces tell the same lines: each poll takes the first line off those to come, or leaves them
(`Polled`).
-/

namespace FramedTasks

open Lines (lineFeed separated firstComplete?)

/-- A poll tells a line, white space at its ends left out. -/
def Poll.Tells (line : List Char) (poll : Poll) : Prop :=
  ∃ text, poll = .token text ∧ trimChars text.toList = trimChars line

/-- The polls tell some lines one after the other, whatever idle ones stand in between. -/
inductive Told : List (List Char) → List Poll → Prop
  | done : Told [] []
  | idle {lines : List (List Char)} {polls : List Poll} : Told lines polls → Told lines (.idle :: polls)
  | token {line : List Char} {lines : List (List Char)} {poll : Poll} {polls : List Poll} :
      poll.Tells line → Told lines polls → Told (line :: lines) (poll :: polls)

/-- A poll of a source that brings some lines tells the first of them, or is idle and leaves them; it
finds the source closed only if there are none. -/
inductive Polled {Source : Type} (brings : List (List Char) → Source → Prop) :
    List (List Char) → Poll → Source → Prop
  | token {line : List Char} {lines : List (List Char)} {poll : Poll} {source : Source} :
      poll.Tells line → brings lines source → Polled brings (line :: lines) poll source
  | idle {lines : List (List Char)} {source : Source} :
      brings lines source → Polled brings lines .idle source
  | closed {source : Source} : Polled brings [] .closed source

namespace Listener

/-- What a listener comes to that hears some lines and then the end of its source, nobody else
setting the flag. -/
def verdict (sentinel : String) (lines : List (List Char)) : ListenerExit × Flag :=
  if lines.any (trimChars · == trimChars sentinel.toList) then (.sentinel, ⟨true⟩)
  else (.sourceClosed, {})

theorem verdict_cons (sentinel : String) (line : List Char) (lines : List (List Char)) :
    verdict sentinel (line :: lines) =
      if trimChars line == trimChars sentinel.toList then (.sentinel, ⟨true⟩)
      else verdict sentinel lines := by
  by_cases matching : trimChars line = trimChars sentinel.toList <;> simp [verdict, matching]

/-- The outcome of a poll that tells a line. -/
theorem hear_of_tells {line : List Char} {poll : Poll} (tells : poll.Tells line) (sentinel : String) :
    hear sentinel poll {} .polling =
      if trimChars line == trimChars sentinel.toList then (.ended .sentinel, ⟨true⟩)
      else (.checking, {}) := by
  obtain ⟨text, rfl, same⟩ := tells
  simp only [hear, isSentinel, same]
  rfl

/-- What a listener comes to by the outcomes of its polls, nobody else setting the flag. -/
def alone (sentinel : String) (polls : List Poll) : ListenerExit × Flag :=
  let (exit, flag, _) := listen sentinel {} (polls.map fun poll => { poll })
  (exit, flag)

/-- A listener looks at nothing but the lines. -/
theorem listen_of_told {lines : List (List Char)} {polls : List Poll} (told : Told lines polls)
    (sentinel : String) : alone sentinel polls = verdict sentinel lines := by
  have goesOn {poll : Poll} {polls : List Poll}
      (heard : hear sentinel poll {} .polling = (.checking, {})) :
      alone sentinel (poll :: polls) = alone sentinel polls := by
    simp [alone, listen, run, check, heard]
  induction told with
  | done => rfl
  | idle told ih =>
    rw [goesOn rfl]
    exact ih
  | @token line lines poll polls tells told ih =>
    have heard := hear_of_tells tells sentinel
    rw [verdict_cons]
    split
    · next matching =>
      rw [if_pos matching] at heard
      simp [alone, listen, run, check, heard]
    · next different =>
      rw [if_neg different] at heard
      rw [goesOn heard]
      exact ih

end Listener

namespace LineSource

theorem pollOf_encode (text : String) :
    pollOf (Utf8.encode text) = .token (Lines.dropEnding text) := by
  simp only [pollOf, Lines.text?, Utf8.decode_encode]
  rfl

theorem told_polls {source : LineSource} {lines : List (List Char)}
    (whole : separated lineFeed source.rest = lines.map Utf8.encodeChars) :
    Told lines source.polls := by
  have tells {line : List Char} {text : String} (same : trimChars text.toList = trimChars line) :
      (pollOf (Utf8.encode text)).Tells line :=
    ⟨_, pollOf_encode text, (Lines.trimChars_dropEnding text).trans same⟩
  fun_induction polls source generalizing lines with
  | case1 source nothing =>
    simp only [Lines.first?] at nothing
    split at nothing
    · simp at nothing
    · have empty : source.rest = [] := by simpa using nothing
      rw [empty] at whole
      obtain rfl : lines = [] := List.map_eq_nil_iff.mp whole.symm
      exact .done
  | case2 source line rest found ih =>
    simp only [Lines.first?] at found
    split at found
    · next complete =>
      obtain ⟨rfl⟩ := found
      obtain ⟨chars, others, text, rfl, rfl, same, remains⟩ :=
        @Lines.lines_of_complete _ _ _ [] _ complete (by rwa [List.append_nil])
      rw [List.append_nil] at remains
      exact .token (tells same) (ih remains)
    · next missing =>
      split at found
      · simp at found
      · next nonempty =>
        obtain ⟨rfl, rfl⟩ := Prod.mk.inj (Option.some.inj found)
        obtain ⟨chars, text, rfl, spelled, same⟩ :=
          Lines.lines_of_incomplete missing (by simpa using nonempty) whole
        rw [spelled]
        exact .token (tells same) (ih rfl)

end LineSource

def Arrival.bytesOf (arrivals : List Arrival) : Bytes :=
  arrivals.flatMap fun
    | .bytes piece => piece
    | .idle => []

namespace Descriptor

/-- The descriptor holds or brings the bytes of some lines, and then its end. -/
structure Brings (lines : List (List Char)) (descriptor : Descriptor) : Prop where
  closes : descriptor.ending = .closed
  whole : separated lineFeed (descriptor.buffer ++ Arrival.bytesOf descriptor.arrivals) =
    lines.map Utf8.encodeChars
  ended : descriptor.ended = true → descriptor.arrivals = []

variable {descriptor : Descriptor} {lines : List (List Char)}

theorem tells_lenientText {line : List Char} {text : String}
    (same : trimChars text.toList = trimChars line) :
    (Poll.token (Lines.lenientText (Utf8.encode text))).Tells line := by
  refine ⟨_, rfl, ?_⟩
  rw [Lines.lenientText, Utf8.decodeLenient_encode]
  exact (Lines.trimChars_dropEnding text).trans same

/-- A complete line in the buffer is handed out. -/
theorem Brings.takeLine {line rest : Bytes} (brings : Brings lines descriptor)
    (found : firstComplete? descriptor.buffer = some (line, rest)) :
    Polled Brings lines (.token (Lines.lenientText line)) { descriptor with buffer := rest } := by
  obtain ⟨chars, others, text, rfl, rfl, same, remains⟩ :=
    Lines.lines_of_complete found brings.whole
  exact .token (tells_lenientText same) ⟨brings.closes, remains, brings.ended⟩

/-- At the end of the input, what the buffer holds is handed out. -/
theorem Brings.takeRest (brings : Brings lines descriptor) (drained : descriptor.arrivals = [])
    (missing : firstComplete? descriptor.buffer = none) :
    Polled Brings lines descriptor.takeRest.1 descriptor.takeRest.2 := by
  have whole := brings.whole
  rw [drained, Arrival.bytesOf, List.flatMap_nil, List.append_nil] at whole
  simp only [Descriptor.takeRest]
  split
  · next empty =>
    rw [List.isEmpty_iff.mp empty] at whole
    obtain rfl : lines = [] := List.map_eq_nil_iff.mp whole.symm
    exact .closed
  · next nonempty =>
    obtain ⟨chars, text, rfl, spelled, same⟩ :=
      Lines.lines_of_incomplete missing (by simpa using nonempty) whole
    rw [spelled]
    refine .token (tells_lenientText same) ⟨brings.closes, ?_, brings.ended⟩
    simp only [drained]
    rfl

/-- Reading once moves bytes to the buffer, of which a line may be complete then. -/
theorem Brings.read (brings : Brings lines descriptor)
    (missing : firstComplete? descriptor.buffer = none) :
    Polled Brings lines descriptor.read.1 descriptor.read.2 := by
  simp only [Descriptor.read]
  split
  · next drained =>
    have ended : Brings lines { descriptor with ended := true } :=
      ⟨brings.closes, brings.whole, fun _ => drained⟩
    split
    · next quiet => simp [brings.closes] at quiet
    · exact ended.takeRest drained missing
    · next broken => simp [brings.closes] at broken
  · next rest arrives =>
    have whole := brings.whole
    rw [arrives] at whole
    exact .idle ⟨brings.closes, whole, fun ended => by simp [brings.ended ended] at arrives⟩
  · next bytes rest arrives =>
    have after : Brings lines { descriptor with
        arrivals := if (bytes.drop chunkSize).isEmpty then rest
          else .bytes (bytes.drop chunkSize) :: rest
        buffer := descriptor.buffer ++ bytes.take chunkSize } := by
      refine ⟨brings.closes, ?_, fun ended => by simp [brings.ended ended] at arrives⟩
      have left : Arrival.bytesOf (if (bytes.drop chunkSize).isEmpty then rest
          else .bytes (bytes.drop chunkSize) :: rest) =
          bytes.drop chunkSize ++ Arrival.bytesOf rest := by
        split
        · next empty => rw [List.isEmpty_iff.mp empty, List.nil_append]
        · rfl
      have whole := brings.whole
      rw [arrives] at whole
      simp only [left]
      rw [List.append_assoc, ← List.append_assoc (bytes.take chunkSize), List.take_append_drop]
      exact whole
    simp only [Descriptor.takeLine]
    split
    · next found => exact after.takeLine found
    · exact .idle after

theorem Brings.poll (brings : Brings lines descriptor) :
    Polled Brings lines descriptor.poll.1 descriptor.poll.2 := by
  simp only [Descriptor.poll, Descriptor.takeLine]
  cases found : firstComplete? descriptor.buffer with
  | some cut => exact brings.takeLine found
  | none =>
    simp only
    split
    · next ended => exact brings.takeRest (brings.ended ended) found
    · exact brings.read found

theorem work_takeRest (goesOn : descriptor.takeRest.1.goesOn = true) :
    descriptor.takeRest.2.work < descriptor.work := by
  simp only [Descriptor.takeRest] at goesOn ⊢
  split at goesOn
  · contradiction
  · next nonempty =>
    have longer := List.length_pos_iff.mpr (show descriptor.buffer ≠ [] by simpa using nonempty)
    simp only [if_neg nonempty, work, List.length_nil]
    omega

theorem work_takeLine_le (descriptor : Descriptor) : descriptor.takeLine.2.work ≤ descriptor.work := by
  simp only [Descriptor.takeLine]
  split
  · next found =>
    obtain ⟨whole, -⟩ := Lines.append_of_firstComplete? found
    have lengths := congrArg List.length whole
    rw [List.length_append] at lengths
    simp only [work]
    omega
  · exact Nat.le_refl _

/-- A descriptor that has an end does not wait for ever. -/
theorem work_read (closes : descriptor.ending = .closed) (goesOn : descriptor.read.1.goesOn = true) :
    descriptor.read.2.work < descriptor.work := by
  simp only [Descriptor.read] at goesOn ⊢
  split
  · next drained =>
    simp only [drained, closes] at goesOn ⊢
    have lighter := work_takeRest goesOn
    simpa only [work, drained] using lighter
  · next rest arrives =>
    simp only [work, arrives, total]
    omega
  · next bytes rest arrives =>
    refine Nat.lt_of_le_of_lt (work_takeLine_le _) ?_
    have lengths : (bytes.take chunkSize).length + (bytes.drop chunkSize).length = bytes.length := by
      rw [← List.length_append, List.take_append_drop]
    simp only [work, arrives, List.length_append]
    split
    · simp only [total]
      omega
    · next more =>
      have taken : 0 < (bytes.take chunkSize).length := by
        have longer : bytes ≠ [] := by
          rintro rfl
          simp at more
        simp only [List.length_take, chunkSize]
        have := List.length_pos_iff.mpr longer
        omega
      simp only [total]
      omega

theorem work_poll (closes : descriptor.ending = .closed) (goesOn : descriptor.poll.1.goesOn = true) :
    descriptor.poll.2.work < descriptor.work := by
  simp only [Descriptor.poll, Descriptor.takeLine] at goesOn ⊢
  cases found : firstComplete? descriptor.buffer with
  | some cut =>
    obtain ⟨whole, nonempty⟩ := Lines.append_of_firstComplete? found
    have lengths := congrArg List.length whole
    have longer := List.length_pos_iff.mpr nonempty
    rw [List.length_append] at lengths
    simp only [work]
    omega
  | none =>
    simp only [found] at goesOn ⊢
    split at goesOn
    · next ended =>
      rw [if_pos ended]
      exact work_takeRest goesOn
    · next open' =>
      rw [if_neg open']
      exact work_read closes goesOn

theorem told_polls (brings : Brings lines descriptor) : Told lines descriptor.polls := by
  unfold polls
  fun_induction drain descriptor generalizing lines with
  | case1 descriptor next closed =>
    have polled := brings.poll
    rw [closed] at polled
    cases polled with
    | token tells =>
      obtain ⟨text, impossible, -⟩ := tells
      contradiction
    | closed => exact .done
  | case2 descriptor fault next failed =>
    have polled := brings.poll
    rw [failed] at polled
    cases polled with
    | token tells =>
      obtain ⟨text, impossible, -⟩ := tells
      contradiction
  | case3 descriptor poll next open' sound outcome lighter polls last drained ih =>
    have polled := brings.poll
    rw [outcome] at polled
    rw [drained] at ih
    cases polled with
    | token tells remains => exact .token tells (ih remains)
    | idle remains => exact .idle (ih remains)
    | closed => exact (open' rfl).elim
  | case4 descriptor poll next open' sound outcome heavy =>
    have polled := brings.poll
    have lighter := @work_poll descriptor brings.closes
    rw [outcome] at polled lighter
    cases polled with
    | token tells =>
      obtain ⟨text, rfl, -⟩ := tells
      exact absurd (lighter rfl) heavy
    | idle => exact absurd (lighter rfl) heavy
    | closed => exact (open' rfl).elim

theorem takeRest_ne_panic (descriptor : Descriptor) (text : String) :
    descriptor.takeRest.1 ≠ .panic text := by
  unfold takeRest
  split <;> exact Poll.noConfusion

theorem takeLine_ne_panic (descriptor : Descriptor) (text : String) :
    descriptor.takeLine.1 ≠ .panic text := by
  unfold takeLine
  split <;> exact Poll.noConfusion

theorem poll_ne_panic (descriptor : Descriptor) (text : String) :
    descriptor.poll.1 ≠ .panic text := by
  unfold poll
  split
  · exact Poll.noConfusion
  split
  · exact takeRest_ne_panic _ text
  · unfold Descriptor.read
    split
    · split
      · exact Poll.noConfusion
      · exact takeRest_ne_panic _ text
      · exact Poll.noConfusion
    · exact Poll.noConfusion
    · exact takeLine_ne_panic _ text

theorem panic_not_mem_polls (descriptor : Descriptor) (text : String) :
    .panic text ∉ descriptor.polls := by
  unfold polls
  fun_induction drain descriptor with
  | case1 => exact List.not_mem_nil
  | case2 => exact fun member => Poll.noConfusion (List.mem_singleton.mp member)
  | case3 descriptor poll next _ _ outcome _ polls last drained ih =>
    rw [drained] at ih
    have found := poll_ne_panic descriptor text
    rw [outcome] at found
    exact List.not_mem_cons_of_ne_of_not_mem found.symm ih
  | case4 => exact List.not_mem_nil

end Descriptor

end FramedTasks
