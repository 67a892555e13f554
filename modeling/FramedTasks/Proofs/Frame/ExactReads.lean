import FramedTasks.Proofs.Frame.Delivery

/-! # Reads that keep to the frame

Each read of a reader is judged by the bytes that arrived before it. What stands behind the complete
frames of these bytes is the frame that has begun (`begun`), and `nextEnd` is where its header ends
or, once the header is known, where the frame ends. `Exact` says that a read asks for what is missing
up to there, a chunk at most and one byte at least, so that it can neither reach into the next frame
nor take a request for nothing for the end of the stream. `orderly_calls` says it of all reads of any
number of calls, and that the buffer is the frame that has begun.
-/

namespace FramedTasks

/-- A read of a stream: how many bytes it asked for, and its outcome. -/
structure Pull where
  want : Nat
  reading : Reading
deriving DecidableEq, Repr

/-- The bytes that several reads brought, in order. -/
def pulled (pulls : List Pull) : Bytes := arrivals (pulls.map Pull.reading)

section Pulled

@[simp] theorem pulled_nil : pulled [] = [] := rfl

@[simp] theorem pulled_cons (pull : Pull) (pulls : List Pull) :
    pulled (pull :: pulls) = pull.reading.arrived ++ pulled pulls := rfl

@[simp] theorem pulled_append (first second : List Pull) :
    pulled (first ++ second) = pulled first ++ pulled second := by
  simp [pulled]

end Pulled

namespace Source

variable {ε : Type}

/-- Reads of the given sizes and outcomes, and no others, lead from one stream to another. -/
inductive Pulls : Source ε → List Pull → Source ε → Prop
  | done (source : Source ε) : Pulls source [] source
  | read {source next last : Source ε} {pull : Pull} {pulls : List Pull} :
      source.read pull.want = (pull.reading, next) → Pulls next pulls last →
      Pulls source (pull :: pulls) last

namespace Pulls

variable {source last : Source ε} {pulls : List Pull}

/-- The record of a stream lists the sizes of the reads. -/
theorem asked (taken : Pulls source pulls last) :
    last.asked = (pulls.map Pull.want).reverse ++ source.asked := by
  induction taken with
  | done source => rfl
  | @read source next last pull pulls outcome _ ih =>
    have recorded : next.asked = pull.want :: source.asked := (congrArg (·.2.asked) outcome).symm
    rw [ih, recorded, List.map_cons, List.reverse_cons, List.append_assoc]
    rfl

end Pulls

/-- A read for some bytes that brings none finds the stream closed, and so would any other read. -/
theorem step_closed {want : Nat} (positive : 0 < want) {passed : List ε}
    {events : List (SourceEvent ε)} (closed : (step want passed events).1 = .closed) (size : Nat) :
    (step size passed events).1 = .closed := by
  induction events generalizing passed with
  | nil => rfl
  | cons event rest ih =>
    cases event with
    | data bytes cap =>
      cases bytes with
      | nil => exact ih closed
      | cons byte bytes =>
        simp only [step] at closed ⊢
        split at closed
        · next nothing =>
          -- only a stream that gives nothing at all brings nothing here
          have none : cap = some 0 := by
            cases cap with
            | none => simp only [Option.getD_none] at nothing; omega
            | some cap => simp only [Option.getD_some] at nothing; congr 1; omega
          simp [none]
        · contradiction
    | fault fault => contradiction
    | closed => rfl
    | moment event => exact ih closed

theorem step_bytes {want : Nat} {passed : List ε} {events : List (SourceEvent ε)} {bytes : Bytes}
    (found : (step want passed events).1 = .bytes bytes) : bytes ≠ [] := by
  induction events generalizing passed with
  | nil => contradiction
  | cons event rest ih =>
    cases event with
    | data piece cap =>
      cases piece with
      | nil => exact ih found
      | cons byte piece =>
        simp only [step] at found
        split at found
        · contradiction
        · next some =>
          obtain rfl := Reading.bytes.inj found
          simp [some]
    | fault fault => contradiction
    | closed => contradiction
    | moment event => exact ih found

end Source

namespace Frame

/-- The frame that has begun: the bytes behind the complete frames at the front of some bytes. -/
def begun (limit : Nat) (bytes : Bytes) : Bytes := (split limit bytes).2

/-- Where the header of a frame ends or, once the header is known, where the frame ends. -/
def nextEnd (held : Bytes) : Nat :=
  if held.length < headerSize then headerSize else headerSize + Bytes.toNat (held.take headerSize)

theorem nextEnd_eq (held : Bytes) : nextEnd held = expectedLength held := (expectedLength_eq held).symm

theorem begun_wires_append {limit : Nat} {payloads : List Bytes} {buffer : Bytes}
    (small : limit ≤ wireLimit) (fits : ∀ payload ∈ payloads, payload.length ≤ limit)
    (open' : ∀ payload rest, take limit buffer ≠ .ok (some (payload, rest))) :
    begun limit (wires payloads ++ buffer) = buffer := by
  rw [begun, split_wires_append small fits, split_of_take_ne open']

namespace Reader

variable {ε : Type}

/-- What a read of a reader is that holds the given bytes of a frame. -/
structure Exact (limit : Nat) (held : Bytes) (source : Source ε) (pull : Pull) : Prop where
  /-- The frame, or its header, is not complete, so that what is missing is not less than nothing. -/
  short : held.length < nextEnd held
  want : pull.want = min chunkSize (nextEnd held - held.length)
  positive : 1 ≤ pull.want
  /-- The read stays before the end of the frame. -/
  within : held.length + pull.reading.arrived.length ≤ nextEnd held
  /-- The frame is one that the limit allows. -/
  allowed : nextEnd held ≤ headerSize + limit
  progress : ∀ bytes, pull.reading = .bytes bytes → bytes ≠ []
  closed : pull.reading = .closed → ∀ size, (source.read size).1 = .closed

/-- A reader that holds no complete frame makes an exact read. -/
theorem exact_read {limit : Nat} {buffer : Bytes} (incomplete : take limit buffer = .ok none)
    (source : Source ε) :
    Exact limit buffer source ⟨wanted buffer, (source.read (wanted buffer)).1⟩ := by
  have positive := wanted_pos incomplete
  obtain ⟨short, allowed⟩ := take_eq_none_iff.mp incomplete
  have most := source.length_arrived_read (wanted buffer)
  rw [← nextEnd_eq] at short
  have wants : wanted buffer = min chunkSize (nextEnd buffer - buffer.length) := by
    rw [wanted, nextEnd_eq, Nat.min_comm]
  have within : buffer.length + (source.read (wanted buffer)).1.arrived.length ≤ nextEnd buffer := by
    omega
  refine ⟨short, wants, positive, within, ?_, ?_, ?_⟩
  · unfold nextEnd
    split
    · omega
    · next complete =>
      have fits := allowed _ (declared?_of_length (by omega))
      omega
  · exact fun bytes found => Source.step_bytes found
  · exact fun closed size => Source.step_closed positive closed size

/-- Reads lead from one stream to another, each exact for the bytes that arrived before it. -/
inductive Orderly (limit : Nat) : Bytes → Source ε → List Pull → Source ε → Prop
  | done (past : Bytes) (source : Source ε) : Orderly limit past source [] source
  | read {past : Bytes} {source next last : Source ε} {pull : Pull} {pulls : List Pull} :
      source.read pull.want = (pull.reading, next) → Exact limit (begun limit past) source pull →
      Orderly limit (past ++ pull.reading.arrived) next pulls last →
      Orderly limit past source (pull :: pulls) last

namespace Orderly

variable {limit : Nat} {past : Bytes} {source middle last : Source ε} {first second : List Pull}

theorem pulls (orderly : Orderly limit past source first last) : source.Pulls first last := by
  induction orderly with
  | done past source => exact .done source
  | read outcome _ _ ih => exact .read outcome ih

theorem append (earlier : Orderly limit past source first middle)
    (later : Orderly limit (past ++ pulled first) middle second last) :
    Orderly limit past source (first ++ second) last := by
  induction earlier with
  | done past source => simpa using later
  | read outcome exact _ ih =>
    refine .read outcome exact (ih ?_)
    simpa using later

/-- The read at any place. -/
theorem at_place {earlier later : List Pull} {pull : Pull}
    (orderly : Orderly limit past source first last) (place : first = earlier ++ pull :: later) :
    ∃ before after, source.Pulls earlier before ∧ before.read pull.want = (pull.reading, after) ∧
      Exact limit (begun limit (past ++ pulled earlier)) before pull := by
  induction orderly generalizing earlier with
  | done past source => simp at place
  | @read past source next last head rest outcome exact _ ih =>
    cases earlier with
    | nil =>
      obtain ⟨rfl, rfl⟩ := List.cons.inj place
      exact ⟨source, next, .done source, outcome, by simpa using exact⟩
    | cons first earlier =>
      obtain ⟨rfl, rest⟩ := List.cons.inj place
      obtain ⟨before, after, taken, read, exact⟩ := ih rest
      refine ⟨before, after, .read outcome taken, read, ?_⟩
      rwa [pulled_cons, ← List.append_assoc]

end Orderly

/-- What a reader holds: of the bytes that arrived, those behind the complete frames, no more than
the largest frame has. -/
structure Holds (limit : Nat) (past buffer : Bytes) : Prop where
  split : ∃ payloads, past = wires payloads ++ buffer ∧ ∀ payload ∈ payloads, payload.length ≤ limit
  within : WithinFrame buffer
  bounded : buffer.length ≤ headerSize + limit

namespace Holds

variable {limit : Nat} {past buffer : Bytes}

theorem begun (holds : Holds limit past buffer) (small : limit ≤ wireLimit)
    (open' : ∀ payload rest, take limit buffer ≠ .ok (some (payload, rest))) :
    begun limit past = buffer := by
  obtain ⟨payloads, rfl, fits⟩ := holds.split
  exact begun_wires_append small fits open'

theorem nil (limit : Nat) : Holds limit [] [] :=
  ⟨⟨[], rfl, by simp⟩, withinFrame_nil, Nat.zero_le _⟩

/-- An exact read brings bytes of the frame that has begun. -/
theorem read (holds : Holds limit past buffer) (incomplete : take limit buffer = .ok none)
    (source : Source ε) :
    Holds limit (past ++ (source.read (wanted buffer)).1.arrived)
      (buffer ++ (source.read (wanted buffer)).1.arrived) := by
  obtain ⟨payloads, rfl, fits⟩ := holds.split
  have exact := exact_read incomplete source
  refine ⟨⟨payloads, List.append_assoc .., fits⟩, withinFrame_read source holds.within, ?_⟩
  rw [List.length_append]
  exact Nat.le_trans exact.within exact.allowed

/-- Nothing is held behind a frame that is complete. -/
theorem received {payload rest : Bytes} (holds : Holds limit past buffer) (small : limit ≤ wireLimit)
    (found : take limit buffer = .ok (some (payload, rest))) : rest = [] ∧ Holds limit past [] := by
  obtain ⟨payloads, rfl, fits⟩ := holds.split
  obtain ⟨within, rfl⟩ := (take_eq_some_iff small).mp found
  obtain rfl := rest_of_withinFrame (Nat.le_trans within small) holds.within
  refine ⟨rfl, ⟨payloads ++ [payload], by simp, ?_⟩, withinFrame_nil, Nat.zero_le _⟩
  intro other member
  rcases List.mem_append.mp member with member | member
  · exact fits other member
  · obtain rfl := List.mem_singleton.mp member
    exact within

end Holds

/-- What a call comes to: its reads are exact, and the reader holds the frame that has begun, which
is nothing if the call returned a payload. -/
structure Keeps (limit : Nat) (past : Bytes) (source : Source ε) (pulls : List Pull)
    (result : Except FrameError Bytes) (held : Bytes) (last : Source ε) : Prop where
  orderly : Orderly limit past source pulls last
  holds : Holds limit (past ++ pulled pulls) held
  begun : Frame.begun limit (past ++ pulled pulls) = held
  empty : ∀ payload, result = .ok payload → held = []

section Keeps

variable {limit : Nat} {past buffer held : Bytes} {source next last : Source ε} {reading : Reading}
  {pulls : List Pull} {result : Except FrameError Bytes}

/-- The read of a reader that holds no complete frame, by the bytes that arrived before it. -/
theorem Holds.exact (holds : Holds limit past buffer) (small : limit ≤ wireLimit)
    (incomplete : take limit buffer = .ok none)
    (outcome : source.read (wanted buffer) = (reading, next)) :
    Exact limit (Frame.begun limit past) source ⟨wanted buffer, reading⟩ := by
  have exact := exact_read incomplete source
  rw [outcome] at exact
  rwa [holds.begun small (by simp [incomplete])]

/-- A call may begin with a read that it reads on over. -/
theorem Keeps.cons (holds : Holds limit past buffer) (small : limit ≤ wireLimit)
    (incomplete : take limit buffer = .ok none)
    (outcome : source.read (wanted buffer) = (reading, next))
    (keeps : Keeps limit (past ++ reading.arrived) next pulls result held last) :
    Keeps limit past source (⟨wanted buffer, reading⟩ :: pulls) result held last := by
  have joined : past ++ pulled (⟨wanted buffer, reading⟩ :: pulls) =
      past ++ reading.arrived ++ pulled pulls := by
    rw [pulled_cons, List.append_assoc]
  refine ⟨.read outcome (holds.exact small incomplete outcome) keeps.orderly, ?_, ?_, keeps.empty⟩
  · rw [joined]
    exact keeps.holds
  · rw [joined]
    exact keeps.begun

/-- A call may end with a read that brings nothing. -/
theorem Keeps.ended {error : FrameError} (holds : Holds limit past buffer) (small : limit ≤ wireLimit)
    (incomplete : take limit buffer = .ok none)
    (outcome : source.read (wanted buffer) = (reading, next)) (nothing : reading.arrived = []) :
    Keeps limit past source [⟨wanted buffer, reading⟩] (.error error) buffer next := by
  have same : past ++ pulled [⟨wanted buffer, reading⟩] = past := by simp [nothing]
  refine ⟨.read outcome (holds.exact small incomplete outcome) (.done ..), ?_, ?_, by simp⟩
  · rw [same]
    exact holds
  · rw [same]
    exact holds.begun small (by simp [incomplete])

end Keeps

theorem keeps_receiveFrom {limit : Nat} {past buffer : Bytes} (small : limit ≤ wireLimit)
    (holds : Holds limit past buffer) (source : Source ε) :
    ∃ pulls, Keeps limit past source pulls (receiveFrom limit buffer source).1
      (receiveFrom limit buffer source).2.1 (receiveFrom limit buffer source).2.2 := by
  have whole : past ++ pulled [] = past := List.append_nil _
  fun_induction receiveFrom limit buffer source generalizing past with
  | case1 buffer source error refused =>
    have begun := holds.begun small (by simp [refused])
    exact ⟨[], .done .., whole.symm ▸ holds, whole.symm ▸ begun, by simp⟩
  | case2 buffer source payload rest found =>
    obtain ⟨rfl, holds⟩ := holds.received small found
    have begun := holds.begun small (by simp [take_nil])
    exact ⟨[], .done .., whole.symm ▸ holds, whole.symm ▸ begun, fun _ _ => rfl⟩
  | case3 buffer source incomplete bytes source' outcome ih =>
    have after := holds.read incomplete source
    rw [outcome] at after
    obtain ⟨pulls, keeps⟩ := ih after (List.append_nil _)
    exact ⟨_, keeps.cons holds small incomplete outcome⟩
  | case4 buffer source incomplete fault source' outcome interrupted ih =>
    obtain ⟨pulls, keeps⟩ := ih holds whole
    rw [← List.append_nil past] at keeps
    exact ⟨_, Keeps.cons holds small incomplete outcome keeps⟩
  | case5 buffer source incomplete fault source' outcome
  | case6 buffer source incomplete fault source' outcome
  | case7 buffer source incomplete source' outcome =>
    exact ⟨_, .ended holds small incomplete outcome rfl⟩

theorem keeps_receive {reader : Reader ε} {past : Bytes}
    (holds : Holds (effectiveLimit reader.limit) past reader.buffer) :
    ∃ pulls, Keeps (effectiveLimit reader.limit) past reader.source pulls reader.receive.1
      reader.receive.2.buffer reader.receive.2.source :=
  keeps_receiveFrom (Nat.min_le_right ..) holds reader.source

/-- The last of several calls. -/
theorem calls_succ (reader : Reader ε) (count : Nat) :
    reader.calls (count + 1) = ((reader.calls count).1 ++ [(reader.calls count).2.receive.1],
      (reader.calls count).2.receive.2) := by
  induction count generalizing reader with
  | zero => rfl
  | succ count ih =>
    have unfolded : reader.calls (count + 2) =
        (reader.receive.1 :: (reader.receive.2.calls (count + 1)).1,
          (reader.receive.2.calls (count + 1)).2) := rfl
    rw [unfolded, ih reader.receive.2]
    rfl

theorem limit_calls (reader : Reader ε) (count : Nat) : (reader.calls count).2.limit = reader.limit := by
  induction count with
  | zero => rfl
  | succ count ih => rw [calls_succ, limit_receive, ih]

/-- Any number of calls make exact reads only. -/
theorem orderly_calls (source : Source ε) (limit count : Nat) :
    let reader : Reader ε := { source, limit }
    ∃ pulls, Orderly (effectiveLimit limit) [] source pulls (reader.calls count).2.source ∧
      Holds (effectiveLimit limit) (pulled pulls) (reader.calls count).2.buffer ∧
      begun (effectiveLimit limit) (pulled pulls) = (reader.calls count).2.buffer := by
  intro reader
  induction count with
  | zero =>
    have nothing : begun (effectiveLimit limit) [] = [] := by rw [begun, split_nil]
    exact ⟨[], .done .., .nil _, nothing⟩
  | succ count ih =>
    obtain ⟨earlier, orderly, holds, -⟩ := ih
    have same : (reader.calls count).2.limit = limit := limit_calls reader count
    rw [← same] at holds orderly
    obtain ⟨later, keeps⟩ := keeps_receive holds
    rw [calls_succ, ← same]
    refine ⟨earlier ++ later, orderly.append keeps.orderly, ?_, ?_⟩
    · rw [pulled_append]
      exact keeps.holds
    · rw [pulled_append]
      exact keeps.begun

/-- Every read of a reader asks for what the header or the frame that has begun still lacks, a chunk
at most and one byte at least. So the buffer is that frame, never more than the largest frame and
nothing after a payload, and a read that brings nothing has found the stream closed. -/
theorem calls_read_exactly (source : Source ε) (limit count : Nat) :
    let reader : Reader ε := { source, limit }
    let (results, last) := reader.calls count
    ∃ pulls, source.Pulls pulls last.source ∧
      last.source.asked = (pulls.map Pull.want).reverse ++ source.asked ∧
      (∀ earlier pull later, pulls = earlier ++ pull :: later →
        ∃ before after, source.Pulls earlier before ∧ before.read pull.want = (pull.reading, after) ∧
          Exact (effectiveLimit limit) (begun (effectiveLimit limit) (pulled earlier)) before pull) ∧
      last.buffer = begun (effectiveLimit limit) (pulled pulls) ∧
      last.buffer.length ≤ headerSize + effectiveLimit limit ∧
      ∀ payload, results.getLast? = some (.ok payload) → last.buffer = [] := by
  intro reader
  obtain ⟨pulls, orderly, holds, begun⟩ := orderly_calls source limit count
  refine ⟨pulls, orderly.pulls, orderly.pulls.asked, ?_, begun.symm, holds.bounded, ?_⟩
  · intro earlier pull later place
    exact orderly.at_place place
  · intro payload received
    cases count with
    | zero => simp [calls] at received
    | succ count =>
      obtain ⟨past, -, holds, -⟩ := orderly_calls source limit count
      have same : (reader.calls count).2.limit = limit := limit_calls reader count
      have present : Holds (effectiveLimit (reader.calls count).2.limit) (pulled past)
          (reader.calls count).2.buffer := by rwa [same]
      obtain ⟨now, keeps⟩ := keeps_receive present
      rw [calls_succ, List.getLast?_concat] at received
      rw [calls_succ]
      exact keeps.empty payload (Option.some.inj received)

end Reader

end Frame

end FramedTasks
