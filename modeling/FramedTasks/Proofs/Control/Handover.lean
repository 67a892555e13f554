import FramedTasks.Proofs.Control.Sources

/-! # The lines that a descriptor hands out

A descriptor is polled for its next line, or asked to wait for one, in any order of such calls. Still
due are the lines of the bytes that have not been handed out, those in the buffer before those that
are to arrive (`Descriptor.due`). A call hands out the first line that is due or leaves them all as
they are (`Descriptor.Serves`), and so the lines come out once each and in order, wherever the reads
cut the bytes (`hands_out_lines`).
-/

namespace FramedTasks

open Lines (lineFeed firstComplete? prepend)

namespace Lines

/-! ## The lines of some bytes -/

/-- The lines of some bytes, each with the line feed that ends it. The bytes after the last line feed
are a line without one. -/
def divide : Bytes → List Bytes
  | [] => []
  | byte :: rest => if byte = lineFeed then [byte] :: divide rest else prepend [byte] (divide rest)

/-- Nothing is lost between the lines. -/
theorem flatten_divide (bytes : Bytes) : (divide bytes).flatten = bytes := by
  induction bytes with
  | nil => rfl
  | cons byte rest ih =>
    rw [divide]
    split
    · rw [List.flatten_cons, ih, List.singleton_append]
    · cases lines : divide rest <;> simpa [prepend, lines] using ih

theorem divide_eq_nil_iff {bytes : Bytes} : divide bytes = [] ↔ bytes = [] := by
  constructor
  · intro none
    rw [← flatten_divide bytes, none, List.flatten_nil]
  · rintro rfl
    rfl

theorem divide_append_inside {front : Bytes} (inside : ∀ byte ∈ front, byte ≠ lineFeed)
    (nonempty : front ≠ []) (rest : Bytes) :
    divide (front ++ rest) = prepend front (divide rest) := by
  induction front with
  | nil => exact absurd rfl nonempty
  | cons first front ih =>
    obtain ⟨other, inside⟩ := List.forall_mem_cons.mp inside
    rw [List.cons_append, divide, if_neg other]
    cases front with
    | nil => rfl
    | cons second front => rw [ih inside (by simp), ← prepend_append, List.singleton_append]

/-- The first line is known as soon as its line feed is. -/
theorem divide_append_feed {front : Bytes} (inside : ∀ byte ∈ front, byte ≠ lineFeed) (rest : Bytes) :
    divide (front ++ lineFeed :: rest) = (front ++ [lineFeed]) :: divide rest := by
  have fed : divide (lineFeed :: rest) = [lineFeed] :: divide rest := by rw [divide, if_pos rfl]
  cases front with
  | nil => exact fed
  | cons first front => rw [divide_append_inside inside (by simp), fed, prepend]

/-- Without a line feed there is one line at most. -/
theorem divide_inside {front : Bytes} (inside : ∀ byte ∈ front, byte ≠ lineFeed)
    (nonempty : front ≠ []) : divide front = [front] := by
  have alone := divide_append_inside inside nonempty []
  rwa [List.append_nil] at alone

end Lines

/-- Whether an arrival is a piece of the input, and not a wait in vain. -/
def Arrival.isPiece : Arrival → Bool
  | .bytes piece => !piece.isEmpty
  | .idle => false

namespace Descriptor

/-! ## Calls -/

/-- A call on a descriptor: a poll with a bounded wait, or a wait for a whole line. -/
inductive Call where
  | poll
  | readLine
deriving DecidableEq, Repr

/-- What a call returns. -/
inductive Answer where
  | polled (outcome : Poll)
  | read (outcome : LineReading)
deriving DecidableEq, Repr

def Answer.text? : Answer → Option String
  | .polled (.token text) | .read (.line text) => some text
  | _ => none

/-- Whether an answer reports that there are no more lines. -/
def Answer.reportsEnd : Answer → Bool
  | .polled .closed | .read .closed => true
  | _ => false

def call (descriptor : Descriptor) : Call → Answer × Descriptor
  | .poll =>
    let (outcome, next) := descriptor.poll
    (.polled outcome, next)
  | .readLine =>
    let (outcome, next) := descriptor.readLine
    (.read outcome, next)

def calls (descriptor : Descriptor) : List Call → List Answer × Descriptor
  | [] => ([], descriptor)
  | first :: rest =>
    let (answer, next) := descriptor.call first
    let (answers, last) := next.calls rest
    (answer :: answers, last)

/-! ## What is still due -/

def unread (descriptor : Descriptor) : Bytes :=
  descriptor.buffer ++ Arrival.bytesOf descriptor.arrivals

def due (descriptor : Descriptor) : List String :=
  (Lines.divide descriptor.unread).map Lines.lenientText

/-- The input has an end, and nothing arrives after it. -/
structure Closes (descriptor : Descriptor) : Prop where
  closed : descriptor.ending = .closed
  ended : descriptor.ended = true → descriptor.arrivals = []

/-- Nothing is left, and nothing will arrive any more. -/
structure Exhausted (descriptor : Descriptor) : Prop where
  buffer : descriptor.buffer = []
  arrivals : descriptor.arrivals = []

/-- The end of the input stands right behind the last piece of it. -/
def EndsWithPiece (descriptor : Descriptor) : Prop :=
  ∀ arrival ∈ descriptor.arrivals.getLast?, arrival.isPiece = true

variable {descriptor next : Descriptor}

theorem due_eq_nil_iff : descriptor.due = [] ↔ descriptor.unread = [] := by
  rw [due, List.map_eq_nil_iff, Lines.divide_eq_nil_iff]

theorem Exhausted.due (exhausted : descriptor.Exhausted) : descriptor.due = [] := by
  rw [due_eq_nil_iff, unread, exhausted.buffer, exhausted.arrivals]
  rfl

/-- Where no wait stands before the end, nothing is left once all lines are handed out. -/
theorem EndsWithPiece.exhausted (ends : descriptor.EndsWithPiece) (none : descriptor.due = []) :
    descriptor.Exhausted := by
  obtain ⟨buffer, arrives⟩ := List.append_eq_nil_iff.mp (due_eq_nil_iff.mp none)
  refine ⟨buffer, ?_⟩
  cases last : descriptor.arrivals.getLast? with
  | none => exact List.getLast?_eq_none_iff.mp last
  | some arrival =>
    have piece := ends arrival last
    have member := List.mem_of_getLast? last
    have empty := List.flatMap_eq_nil_iff.mp arrives arrival member
    cases arrival with
    | idle => contradiction
    | bytes bytes =>
      obtain rfl : bytes = [] := empty
      contradiction

/-- What an answer says, and what it leaves: it hands out the first line that is due; or it is an
idle poll, which comes only while something is to arrive and no line is complete; or it reports the
end. Every other answer brings the end nearer. -/
inductive Serves (descriptor : Descriptor) : Answer → Descriptor → Prop
  | line {answer : Answer} {text : String} {next : Descriptor} :
      answer.text? = some text → descriptor.due = text :: next.due →
      next.work < descriptor.work → Serves descriptor answer next
  | idle {answer : Answer} {next : Descriptor} :
      answer = .polled .idle → next.due = descriptor.due →
      firstComplete? descriptor.buffer = none → firstComplete? next.buffer = none →
      next.work < descriptor.work → Serves descriptor answer next
  | ended {answer : Answer} {next : Descriptor} :
      answer.reportsEnd = true → descriptor.due = [] → next.Exhausted →
      Serves descriptor answer next

/-! ## One poll -/

theorem due_of_complete {line rest : Bytes}
    (found : firstComplete? descriptor.buffer = some (line, rest)) :
    descriptor.due = Lines.lenientText line :: due { descriptor with buffer := rest } := by
  obtain ⟨front, inside, rfl, whole⟩ := Lines.eq_of_complete found
  rw [due, unread, whole, List.append_assoc, List.cons_append, Lines.divide_append_feed inside,
    List.map_cons]
  rfl

/-- The bytes that the next read takes stand first among those that are to arrive. -/
theorem bytesOf_split (piece : Bytes) (rest : List Arrival) :
    piece.take chunkSize ++ Arrival.bytesOf (if (piece.drop chunkSize).isEmpty then rest
      else .bytes (piece.drop chunkSize) :: rest) = piece ++ Arrival.bytesOf rest := by
  have split : piece.take chunkSize ++ piece.drop chunkSize = piece := List.take_append_drop ..
  split
  · next empty =>
    rw [List.isEmpty_iff.mp empty, List.append_nil] at split
    rw [split]
  · rw [Arrival.bytesOf, List.flatMap_cons, ← List.append_assoc, split]
    rfl

/-- At the end of the input the rest is handed out, and after that the end reported. -/
theorem serves_takeRest (drained : descriptor.arrivals = [])
    (missing : firstComplete? descriptor.buffer = none) :
    descriptor.Serves (.polled descriptor.takeRest.1) descriptor.takeRest.2 := by
  have lighter := @work_takeRest descriptor
  simp only [takeRest] at lighter ⊢
  split
  · next empty =>
    have exhausted : descriptor.Exhausted := ⟨List.isEmpty_iff.mp empty, drained⟩
    exact .ended rfl exhausted.due exhausted
  · next nonempty =>
    rw [if_neg nonempty] at lighter
    have whole : descriptor.due = [Lines.lenientText descriptor.buffer] := by
      rw [due, unread, drained, Arrival.bytesOf, List.flatMap_nil, List.append_nil,
        Lines.divide_inside (Lines.inside_of_incomplete missing) (by simpa using nonempty)]
      rfl
    have gone : due { descriptor with buffer := [] } = [] :=
      Exhausted.due ⟨rfl, drained⟩
    exact .line rfl (whole.trans (congrArg _ gone.symm)) (lighter rfl)

/-- A read moves the next bytes to the buffer, where they may complete a line. -/
theorem serves_read (closes : descriptor.Closes)
    (missing : firstComplete? descriptor.buffer = none) :
    descriptor.Serves (.polled descriptor.read.1) descriptor.read.2 := by
  have lighter := @work_read descriptor closes.closed
  simp only [Descriptor.read] at lighter ⊢
  split at lighter
  · next drained =>
    split
    · next quiet => simp [closes.closed] at quiet
    · have served := @serves_takeRest { descriptor with ended := true } drained missing
      generalize takeRest { descriptor with ended := true } = outcome at served ⊢
      cases served with
      | line named first lighter => exact .line named first lighter
      | idle silent same _ after lighter => exact .idle silent same missing after lighter
      | ended reports none left => exact .ended reports none left
    · next broken => simp [closes.closed] at broken
  · next rest arrives =>
    have same : due { descriptor with arrivals := rest } = descriptor.due := by
      rw [due, due, unread, unread, arrives]
      rfl
    exact .idle rfl same missing missing (lighter rfl)
  · next piece rest arrives =>
    have same : due { descriptor with
        arrivals := if (piece.drop chunkSize).isEmpty then rest
          else .bytes (piece.drop chunkSize) :: rest
        buffer := descriptor.buffer ++ piece.take chunkSize } = descriptor.due := by
      rw [due, due, unread, unread, arrives, List.append_assoc, bytesOf_split]
      rfl
    simp only [takeLine] at lighter ⊢
    split at lighter
    · next line left found =>
      rw [due_of_complete found] at same
      exact .line rfl same.symm (lighter rfl)
    · next absent => exact .idle rfl same missing absent (lighter rfl)

/-- What a poll returns. -/
theorem serves_poll (closes : descriptor.Closes) :
    descriptor.Serves (.polled descriptor.poll.1) descriptor.poll.2 := by
  have lighter := @work_poll descriptor closes.closed
  simp only [poll, takeLine] at lighter ⊢
  cases found : firstComplete? descriptor.buffer with
  | some cut =>
    rw [found] at lighter
    exact .line rfl (due_of_complete found) (lighter rfl)
  | none =>
    simp only
    split
    · next ended => exact serves_takeRest (closes.ended ended) found
    · exact serves_read closes found

/-! ## What a poll leaves -/

/-- The end stays where it is, and is read only when nothing is left before it; of what is to arrive,
the first piece or wait is used up or leaves a piece behind. -/
structure Advances (descriptor next : Descriptor) : Prop where
  ending : next.ending = descriptor.ending
  ended : next.ended = true → descriptor.ended = true ∨ descriptor.arrivals = []
  arrivals : next.arrivals = descriptor.arrivals ∨
    ∃ first rest left, descriptor.arrivals = first :: rest ∧ next.arrivals = left ++ rest ∧
      ∀ arrival ∈ left, arrival.isPiece = true

theorem Advances.refl (descriptor : Descriptor) : descriptor.Advances descriptor :=
  ⟨rfl, .inl, .inl rfl⟩

theorem takeLine_eq (descriptor : Descriptor) :
    ∃ buffer, descriptor.takeLine.2 = { descriptor with buffer } := by
  rw [takeLine]
  split <;> exact ⟨_, rfl⟩

theorem takeRest_eq (descriptor : Descriptor) :
    ∃ buffer, descriptor.takeRest.2 = { descriptor with buffer } := by
  rw [takeRest]
  split <;> exact ⟨_, rfl⟩

theorem advances_read (descriptor : Descriptor) : descriptor.Advances descriptor.read.2 := by
  rw [Descriptor.read]
  split
  · next drained =>
    split
    · exact .refl descriptor
    · obtain ⟨buffer, left⟩ := takeRest_eq { descriptor with ended := true }
      rw [left]
      exact ⟨rfl, fun _ => .inr drained, .inl rfl⟩
    · exact .refl descriptor
  · next rest arrives => exact ⟨rfl, .inl, .inr ⟨_, rest, [], arrives, rfl, by simp⟩⟩
  · next piece rest arrives =>
    obtain ⟨buffer, left⟩ := takeLine_eq { descriptor with
      arrivals := if (piece.drop chunkSize).isEmpty then rest
        else .bytes (piece.drop chunkSize) :: rest
      buffer := descriptor.buffer ++ piece.take chunkSize }
    rw [left]
    refine ⟨rfl, .inl, .inr ?_⟩
    by_cases empty : (piece.drop chunkSize).isEmpty
    · exact ⟨_, rest, [], arrives, if_pos empty, by simp⟩
    · refine ⟨_, rest, [.bytes (piece.drop chunkSize)], arrives, if_neg empty, ?_⟩
      simpa [Arrival.isPiece] using empty

theorem advances_poll (descriptor : Descriptor) : descriptor.Advances descriptor.poll.2 := by
  rw [poll]
  split
  · next taken =>
    obtain ⟨buffer, left⟩ := takeLine_eq descriptor
    rw [taken] at left
    rw [left]
    exact ⟨rfl, .inl, .inl rfl⟩
  split
  · obtain ⟨buffer, left⟩ := takeRest_eq descriptor
    rw [left]
    exact ⟨rfl, .inl, .inl rfl⟩
  · exact advances_read descriptor

theorem Closes.advances (closes : descriptor.Closes) (advances : descriptor.Advances next) :
    next.Closes := by
  refine ⟨advances.ending.trans closes.closed, fun ended => ?_⟩
  have drained : descriptor.arrivals = [] := (advances.ended ended).elim closes.ended id
  rcases advances.arrivals with same | ⟨first, rest, left, arrives, -, -⟩
  · exact same.trans drained
  · rw [drained] at arrives
    contradiction

theorem EndsWithPiece.advances (ends : descriptor.EndsWithPiece)
    (advances : descriptor.Advances next) : next.EndsWithPiece := by
  rcases advances.arrivals with same | ⟨first, rest, left, arrives, remains, pieces⟩
  · rwa [EndsWithPiece, same]
  · intro arrival last
    rw [remains] at last
    cases rest with
    | nil =>
      rw [List.append_nil] at last
      exact pieces arrival (List.mem_of_getLast? last)
    | cons second rest =>
      have same : (left ++ second :: rest).getLast? = descriptor.arrivals.getLast? := by
        simp [arrives, List.getLast?_cons]
      exact ends arrival (same ▸ last)

/-! ## Calls in a row -/

/-- What the polls of a call keep, the call keeps. -/
theorem call_preserves {holds : Descriptor → Prop}
    (kept : ∀ descriptor : Descriptor, holds descriptor → holds descriptor.poll.2) (call : Call)
    (start : holds descriptor) : holds (descriptor.call call).2 := by
  cases call with
  | poll => exact kept descriptor start
  | readLine =>
    change holds descriptor.readLine.2
    fun_induction readLine descriptor with
    | case1 _ _ _ outcome => simpa [outcome] using kept _ start
    | case2 _ _ _ outcome => simpa [outcome] using kept _ start
    | case3 _ _ outcome _ ih => exact ih (by simpa [outcome] using kept _ start)
    | case4 _ _ outcome _ => simpa [outcome] using kept _ start
    | case5 _ _ _ _ _ _ outcome => simpa [outcome] using kept _ start

theorem Closes.call (closes : descriptor.Closes) (call : Call) : (descriptor.call call).2.Closes :=
  call_preserves (fun _ closes => closes.advances (advances_poll _)) call closes

theorem EndsWithPiece.call (ends : descriptor.EndsWithPiece) (call : Call) :
    (descriptor.call call).2.EndsWithPiece :=
  call_preserves (fun _ ends => ends.advances (advances_poll _)) call ends

/-- A wait for a line passes over idle polls only. -/
theorem serves_readLine (closes : descriptor.Closes) :
    descriptor.Serves (.read descriptor.readLine.1) descriptor.readLine.2 := by
  fun_induction readLine descriptor with
  | case1 descriptor text next outcome =>
    have served := serves_poll closes
    rw [outcome] at served
    cases served with
    | line named first lighter => exact .line named first lighter
    | idle silent => simp at silent
    | ended reports => contradiction
  | case2 descriptor fault next outcome =>
    have served := serves_poll closes
    rw [outcome] at served
    cases served with
    | idle silent => simp at silent
    | line | ended => contradiction
  | case3 descriptor next outcome lighter ih =>
    have served := serves_poll closes
    have kept := closes.advances (advances_poll descriptor)
    rw [outcome] at served kept
    have same : next.due = descriptor.due := by
      cases served with
      | idle _ same => exact same
      | line | ended => contradiction
    cases ih kept with
    | line named first later => exact .line named (same ▸ first) (Nat.lt_trans later lighter)
    | idle silent => contradiction
    | ended reports none left => exact .ended reports (same ▸ none) left
  | case4 descriptor next outcome heavy =>
    have served := serves_poll closes
    rw [outcome] at served
    cases served with
    | idle _ _ _ _ lighter => exact absurd lighter heavy
    | line | ended => contradiction
  | case5 descriptor poll next noToken noFault notIdle outcome =>
    have served := serves_poll closes
    rw [outcome] at served
    cases served with
    | @line _ text _ named =>
      cases poll with
      | token text => exact (noToken text rfl).elim
      | _ => contradiction
    | idle silent => exact (notIdle (Answer.polled.inj silent)).elim
    | ended _ none left => exact .ended rfl none left

theorem serves_call (closes : descriptor.Closes) (call : Call) :
    descriptor.Serves (descriptor.call call).1 (descriptor.call call).2 := by
  cases call with
  | poll => exact serves_poll closes
  | readLine => exact serves_readLine closes

theorem Answer.text?_of_reportsEnd {answer : Answer} (reports : answer.reportsEnd = true) :
    answer.text? = none := by
  rcases answer with (_ | _ | _ | _ | _) | (_ | _ | _ | _) <;> first | rfl | contradiction

theorem calls_cons (descriptor : Descriptor) (call : Call) (rest : List Call) :
    descriptor.calls (call :: rest) =
      ((descriptor.call call).1 :: ((descriptor.call call).2.calls rest).1,
        ((descriptor.call call).2.calls rest).2) := rfl

/-- What a single call keeps, several calls keep. -/
theorem calls_preserves {holds : Descriptor → Prop}
    (kept : ∀ (descriptor : Descriptor) (call : Call), holds descriptor →
      holds (descriptor.call call).2) (asked : List Call) (start : holds descriptor) :
    holds (descriptor.calls asked).2 := by
  induction asked generalizing descriptor with
  | nil => exact start
  | cons call rest ih => exact ih (kept descriptor call start)

section Run

variable (closes : descriptor.Closes) (asked : List Call)
include closes

/-- The lines that were due are those handed out and, behind them, those that are due now. -/
theorem due_calls : descriptor.due =
    (descriptor.calls asked).1.filterMap Answer.text? ++ (descriptor.calls asked).2.due := by
  induction asked generalizing descriptor with
  | nil => rfl
  | cons call rest ih =>
    have remaining := ih (closes.call call)
    rw [calls_cons]
    cases serves_call closes call with
    | line named first _ =>
      rw [List.filterMap_cons_some named, List.cons_append, ← remaining]
      exact first
    | idle silent same _ _ _ =>
      rw [List.filterMap_cons_none (by rw [silent]; rfl), ← remaining]
      exact same.symm
    | ended reports none left =>
      rw [List.filterMap_cons_none (Answer.text?_of_reportsEnd reports), ← remaining, none, left.due]

/-- Every call hands out a line, or finds none complete, or reports the end. -/
theorem answers_calls : ∀ answer ∈ (descriptor.calls asked).1, answer.text?.isSome = true ∨
    answer.reportsEnd = true ∨ answer = .polled .idle := by
  induction asked generalizing descriptor with
  | nil => exact fun _ member => absurd member List.not_mem_nil
  | cons call rest ih =>
    rw [calls_cons, List.forall_mem_cons]
    refine ⟨?_, ih (closes.call call)⟩
    cases serves_call closes call with
    | line named _ _ => exact .inl (Option.isSome_of_eq_some named)
    | idle silent _ _ _ _ => exact .inr (.inr silent)
    | ended reports _ _ => exact .inr (.inl reports)

theorem Exhausted.call (exhausted : descriptor.Exhausted) (call : Call) :
    (descriptor.call call).1.reportsEnd = true ∧ (descriptor.call call).2.Exhausted := by
  have weightless : descriptor.work = 0 := by
    rw [work, exhausted.buffer, exhausted.arrivals]
    rfl
  cases serves_call closes call with
  | line _ first _ =>
    rw [exhausted.due] at first
    contradiction
  | idle _ _ _ _ lighter => omega
  | ended reports _ left => exact ⟨reports, left⟩

/-- After the end, every call reports it. -/
theorem Exhausted.calls (exhausted : descriptor.Exhausted) :
    (∀ answer ∈ (descriptor.calls asked).1, answer.reportsEnd = true) ∧
      (descriptor.calls asked).2.Exhausted := by
  induction asked generalizing descriptor with
  | nil => exact ⟨fun _ member => absurd member List.not_mem_nil, exhausted⟩
  | cons call rest ih =>
    obtain ⟨reports, left⟩ := exhausted.call closes call
    obtain ⟨others, last⟩ := ih (closes.call call) left
    exact ⟨List.forall_mem_cons.mpr ⟨reports, others⟩, last⟩

/-- The end is reported only when nothing is left. -/
theorem exhausted_of_reportsEnd {answer : Answer} (member : answer ∈ (descriptor.calls asked).1)
    (reports : answer.reportsEnd = true) : (descriptor.calls asked).2.Exhausted := by
  induction asked generalizing descriptor with
  | nil => exact absurd member List.not_mem_nil
  | cons call rest ih =>
    rw [calls_cons] at member ⊢
    rcases List.mem_cons.mp member with same | later
    · rw [same] at reports
      cases serves_call closes call with
      | line named _ _ =>
        rw [Answer.text?_of_reportsEnd reports] at named
        contradiction
      | idle silent _ _ _ _ =>
        rw [silent] at reports
        contradiction
      | ended _ _ left => exact (left.calls (closes.call call) rest).2
    · exact ih (closes.call call) later

/-- More calls than a descriptor has work leave nothing. -/
theorem exhausted_of_work (many : descriptor.work < asked.length) :
    (descriptor.calls asked).2.Exhausted := by
  induction asked generalizing descriptor with
  | nil => contradiction
  | cons call rest ih =>
    rw [List.length_cons] at many
    rw [calls_cons]
    cases serves_call closes call with
    | line _ _ lighter | idle _ _ _ _ lighter => exact ih (closes.call call) (by omega)
    | ended _ _ left => exact (left.calls (closes.call call) rest).2

end Run

/-- Whatever the pieces and waits in which some bytes arrive before their end, and whatever the calls,
what has been handed out and what is still due are together the lines of these bytes, and enough calls
hand out all of them. A poll is idle only while no line is complete in the buffer. Every call after
the end was reported reports it again; after the last line, the end is reported except by a poll that
meets a wait between the last piece and the end. -/
theorem hands_out_lines (arrivals : List Arrival) (before after : List Call) :
    let start : Descriptor := { arrivals, ending := .closed }
    let (answers, present) := start.calls before
    let lines := (Lines.divide (Arrival.bytesOf arrivals)).map Lines.lenientText
    let handed := answers.filterMap Answer.text?
    lines = handed ++ present.due ∧
      (start.work < before.length → handed = lines) ∧
      (∀ answer ∈ answers, answer.text?.isSome = true ∨ answer.reportsEnd = true ∨
        answer = .polled .idle) ∧
      (present.poll.1 = .idle → lineFeed ∉ present.buffer ∧ lineFeed ∉ present.poll.2.buffer) ∧
      ((∃ answer ∈ answers, answer.reportsEnd = true) →
        handed = lines ∧ ∀ later ∈ (present.calls after).1, later.reportsEnd = true) ∧
      (handed = lines → ∀ later ∈ (present.calls after).1, later.reportsEnd = true ∨
        later = .polled .idle ∧ ¬ start.EndsWithPiece) := by
  intro start
  have closes : start.Closes := ⟨rfl, fun ended => Bool.noConfusion ended⟩
  have whole := due_calls closes before
  have still := calls_preserves (fun _ call closes => closes.call call) before closes
  have ends := @calls_preserves start EndsWithPiece (fun _ call ends => ends.call call) before
  have sound := answers_calls closes before
  have reported := @exhausted_of_reportsEnd start closes before
  have enough := exhausted_of_work closes before
  generalize start.calls before = run at whole still ends sound reported enough
  obtain ⟨answers, present⟩ := run
  dsimp only at whole still ends sound reported enough ⊢
  have all (exhausted : present.Exhausted) : answers.filterMap Answer.text? = start.due := by
    rw [whole, exhausted.due, List.append_nil]
  refine ⟨whole, fun many => all (enough many), sound, fun idle => ?_, ?_, ?_⟩
  · have served := serves_poll still
    rw [idle] at served
    cases served with
    | idle _ _ missing left _ =>
      exact ⟨fun member => Lines.inside_of_incomplete missing _ member rfl,
        fun member => Lines.inside_of_incomplete left _ member rfl⟩
    | line | ended => contradiction
  · rintro ⟨answer, member, reports⟩
    have exhausted := reported member reports
    exact ⟨all exhausted, (exhausted.calls still after).1⟩
  · intro complete later member
    have none : present.due = [] := by
      have same : start.due = answers.filterMap Answer.text? := complete.symm
      rw [same] at whole
      exact List.self_eq_append_right.mp whole
    by_cases abrupt : start.EndsWithPiece
    · exact .inl ((((ends abrupt).exhausted none).calls still after).1 later member)
    · have further := due_calls still after
      rw [none] at further
      rcases answers_calls still after later member with text | reports | silent
      · obtain ⟨text, named⟩ := Option.isSome_iff_exists.mp text
        have handedOn := List.mem_filterMap.mpr ⟨later, member, named⟩
        rw [(List.append_eq_nil_iff.mp further.symm).1] at handedOn
        exact absurd handedOn List.not_mem_nil
      · exact .inl reports
      · exact .inr ⟨silent, abrupt⟩

end Descriptor

end FramedTasks
