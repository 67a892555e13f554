import FramedTasks.Frame.Duplex
import FramedTasks.Proofs.Frame.Delivery

/-! # Frames over a connection

Whatever is on the way, a call puts a whole frame behind it or nothing (`Duplex.send_cases`), or takes
a whole frame off the front of it or nothing (`Duplex.due_receive`). On a new connection, a payload
that fits goes out (`Duplex.send_of_fits`), and the connection is new again once the other end has
received it (`Duplex.receive_carrying`).
-/

namespace FramedTasks

namespace Source

variable {ε : Type}

/-- Some bytes to come, unless there are none, and other events behind them. -/
def upcoming (bytes : Bytes) (tail : List (SourceEvent ε)) : List (SourceEvent ε) :=
  if bytes = [] then tail else .data bytes none :: tail

/-- A read takes what it asks for from the bytes to come. -/
theorem read_of_upcoming {source : Source ε} {bytes : Bytes} {tail : List (SourceEvent ε)}
    {want : Nat} (there : source.events = upcoming bytes tail) (filled : bytes ≠ [])
    (positive : 0 < want) :
    source.read want = (.bytes (bytes.take want),
      { events := upcoming (bytes.drop want) tail
        asked := want :: source.asked
        passed := source.passed }) := by
  obtain ⟨byte, rest, rfl⟩ := List.exists_cons_of_ne_nil filled
  simp only [upcoming, if_neg filled] at there
  simp only [Source.read, there, step, Option.getD_none, Nat.min_self,
    if_neg (Nat.ne_of_gt positive), upcoming, List.isEmpty_iff]

end Source

namespace Frame

namespace Reader

variable {ε : Type} {limit : Nat} {buffer bytes payload : Bytes} {source : Source ε}
  {tail : List (SourceEvent ε)}

/-- A reader whose frame is not complete reads a piece of the bytes to come. -/
theorem read_of_incomplete (incomplete : take limit buffer = .ok none)
    (found : take limit (buffer ++ bytes) = .ok (some (payload, [])))
    (there : source.events = Source.upcoming bytes tail) :
    source.read (wanted buffer) = (.bytes (bytes.take (wanted buffer)),
      { events := Source.upcoming (bytes.drop (wanted buffer)) tail
        asked := wanted buffer :: source.asked
        passed := source.passed }) := by
  have filled : bytes ≠ [] := by
    rintro rfl
    rw [List.append_nil, incomplete] at found
    cases found
  exact Source.read_of_upcoming there filled (wanted_pos incomplete)

/-- A frame that is there as a whole is received, and what comes behind it is left. -/
theorem receiveFrom_of_upcoming (small : limit ≤ wireLimit)
    (found : take limit (buffer ++ bytes) = .ok (some (payload, [])))
    (there : source.events = Source.upcoming bytes tail) :
    ∃ asked, receiveFrom limit buffer source =
      (.ok payload, [], { events := tail, asked, passed := source.passed }) := by
  fun_induction receiveFrom limit buffer source generalizing bytes with
  | case1 buffer source error refused =>
    rw [take_append_of_error refused] at found
    cases found
  | case2 buffer source other behind first =>
    rw [take_append small first] at found
    obtain ⟨rfl, nothing⟩ : other = payload ∧ behind ++ bytes = [] := by simpa using found
    obtain ⟨rfl, rfl⟩ := List.append_eq_nil_iff.mp nothing
    obtain ⟨events, asked, passed⟩ := source
    obtain rfl : events = tail := there
    exact ⟨asked, rfl⟩
  | case3 buffer source incomplete piece source' outcome ih =>
    rw [read_of_incomplete incomplete found there] at outcome
    cases outcome
    exact ih (by rwa [List.append_assoc, List.take_append_drop]) rfl
  | case4 buffer source incomplete fault source' outcome
  | case5 buffer source incomplete fault source' outcome
  | case6 buffer source incomplete fault source' outcome
  | case7 buffer source incomplete source' outcome =>
    rw [read_of_incomplete incomplete found there] at outcome
    cases outcome

theorem receive_of_upcoming {reader : Reader ε} (unread : reader.buffer = [])
    (fits : payload.length ≤ effectiveLimit reader.limit)
    (there : reader.source.events = Source.upcoming (wire payload) tail) :
    ∃ asked, reader.receive = (.ok payload,
      { reader with source := { events := tail, asked, passed := reader.source.passed } }) := by
  have small : effectiveLimit reader.limit ≤ wireLimit := Nat.min_le_right ..
  have found : take (effectiveLimit reader.limit) (reader.buffer ++ wire payload) =
      .ok (some (payload, [])) :=
    (take_eq_some_iff small).mpr ⟨fits, by rw [unread, List.append_nil]; rfl⟩
  obtain ⟨asked, received⟩ := receiveFrom_of_upcoming small found there
  exact ⟨asked, by rw [receive, received, ← unread]⟩

/-- A reader between two frames to which nothing is on the way waits in vain. -/
theorem receive_of_nothingYet {reader : Reader ε} (unread : reader.buffer = [])
    (nothing : reader.source.events = [.fault Connection.nothingYet]) :
    ∃ asked, reader.receive = (.error .timeout,
      { reader with source := { events := [], asked, passed := reader.source.passed } }) := by
  obtain ⟨⟨events, asked, passed⟩, buffer, limit⟩ := reader
  obtain rfl : buffer = [] := unread
  obtain rfl : events = [.fault Connection.nothingYet] := nothing
  refine ⟨wanted [] :: asked, ?_⟩
  rw [receive, receiveFrom]
  rfl

/-- A reader between two frames finds the end of its stream. -/
theorem receive_of_end {reader : Reader ε} (unread : reader.buffer = [])
    (ended : reader.source.events = [.data [] none]) :
    ∃ asked, reader.receive = (.error .endOfStream,
      { reader with source := { events := [], asked, passed := reader.source.passed } }) := by
  obtain ⟨⟨events, asked, passed⟩, buffer, limit⟩ := reader
  obtain rfl : buffer = [] := unread
  obtain rfl : events = [.data [] none] := ended
  refine ⟨wanted [] :: asked, ?_⟩
  rw [receive, receiveFrom]
  rfl

end Reader

namespace Duplex

open FramedTasks.Frame.Reader (received_receive receiving_receive withinFrame_nil)

variable {side : Side} {bytes payload : Bytes}

/-- The bytes that an end holds and those that are on the way to it. -/
def due (duplex : Duplex) (side : Side) : Bytes :=
  (duplex.station side).buffer ++ (duplex.connection.inflow side).bytes

theorem left_source {ε : Type} (inflow : Inflow) :
    (source inflow : Source ε).left = inflow.bytes := by
  simp only [source, Source.left]
  cases inflow.reset <;> cases inflow.shut <;> simp

/-- A call that receives takes the frame it returns off what is due to its end, if it returns one. -/
theorem due_receive {duplex : Duplex} (within : Reader.WithinFrame (duplex.station side).buffer) :
    let called := receive side duplex
    Reader.WithinFrame (called.2.station side).buffer ∧
      duplex.due side = wires (Reader.payloads [called.1]) ++ called.2.due side ∧
      ∀ payload ∈ Reader.payloads [called.1], payload.length ≤ wireLimit := by
  let reader : Reader Unit :=
    ⟨source (duplex.connection.inflow side), (duplex.station side).buffer, (duplex.station side).limit⟩
  obtain ⟨readings, arrived, call, held⟩ := @receiving_receive _ reader within
  have account := call.account
  have buffer : ((receive side duplex).2.station side).buffer = reader.receive.2.buffer := by
    cases side <;> rfl
  have bytes : ((receive side duplex).2.connection.inflow side).bytes =
      reader.receive.2.source.left := by
    cases side <;> rfl
  refine ⟨buffer ▸ held, ?_, fun payload member => ?_⟩
  · rw [due, due, buffer, bytes, ← List.append_assoc]
    change reader.buffer ++ _ = wires (Reader.payloads [reader.receive.1]) ++ _ ++ _
    rw [← account.conserved, List.append_assoc, ← arrived.left, left_source]
  · exact Nat.le_trans (account.within payload member) (Nat.min_le_right ..)

/-- A call that receives leaves the other direction alone. -/
theorem receive_other (side : Side) (duplex : Duplex) :
    (receive side duplex).2.station side.other = duplex.station side.other ∧
      (receive side duplex).2.connection.inflow side.other =
        duplex.connection.inflow side.other := by
  cases side <;> exact ⟨rfl, rfl⟩

theorem shut_receive (side : Side) (duplex : Duplex) :
    ((receive side duplex).2.connection.inflow side).shut =
      (duplex.connection.inflow side).shut := by
  cases side <;> rfl

/-- A payload is sent as a whole, or nothing is. -/
theorem send_cases (side : Side) (payload : Bytes) (duplex : Duplex) :
    (∃ error, send side payload duplex = (.error error, duplex)) ∨
      payload.length ≤ wireLimit ∧ (duplex.connection.inflow side.other).shut = false ∧
        send side payload duplex = (.ok (), { duplex with
          connection := duplex.connection.update side.other fun inflow =>
            { inflow with bytes := inflow.bytes ++ wire payload } }) := by
  have filled := wire_ne_nil payload
  by_cases excess : effectiveLimit (duplex.station side).limit < payload.length
  · exact .inl ⟨_, if_pos excess⟩
  · cases shut : (duplex.connection.inflow side.other).shut with
    | true =>
      left
      simp [send, excess, Connection.write, filled, Connection.isShutFrom, shut, Except.mapError]
    | false =>
      right
      refine ⟨Nat.le_trans (Nat.le_of_not_lt excess) (Nat.min_le_right ..), rfl, ?_⟩
      simp [send, excess, Connection.write, filled, Connection.isShutFrom, shut, Except.mapError]

/-- A new connection with bytes on the way to an end. -/
def carrying (side : Side) (bytes : Bytes) : Duplex :=
  { connection := ({} : Connection).update side fun inflow => { inflow with bytes } }

/-- A payload that fits goes out on a new connection as a whole. -/
theorem send_of_fits (fits : payload.length ≤ effectiveLimit defaultLimit) :
    send side payload {} = (.ok (), carrying side.other (wire payload)) := by
  have small : ¬ effectiveLimit defaultLimit < payload.length := Nat.not_lt.mpr fits
  have filled := wire_ne_nil payload
  cases side <;>
    simp [send, station, small, Connection.write, filled, Connection.isShutFrom,
      Connection.inflow, Side.other, Connection.update, carrying, Except.mapError]

theorem send_of_excess (excess : effectiveLimit defaultLimit < payload.length) :
    send side payload {} =
      (.error (.payloadTooLarge payload.length (effectiveLimit defaultLimit)), {}) := by
  cases side <;> exact if_pos excess

/-- An end to which nothing is on the way waits in vain. -/
theorem receive_of_nothing {duplex : Duplex} (fresh : duplex.station side = {})
    (nothing : duplex.connection.inflow side = {}) : (receive side duplex).1 = .error .timeout := by
  simp only [receive, fresh, nothing, Reader.receive]
  rw [Reader.receiveFrom]
  rfl

/-- An end to which nothing will be sent finds that its peer has gone. -/
theorem receive_of_shut {duplex : Duplex} (fresh : duplex.station side = {})
    (shut : duplex.connection.inflow side = { shut := true }) :
    (receive side duplex).1 = .error .endOfStream := by
  simp only [receive, fresh, shut, Reader.receive]
  rw [Reader.receiveFrom]
  rfl

/-- The reader of an end to which some bytes are on the way. -/
def reader (bytes : Bytes) : Reader Unit := { source := source { bytes } }

theorem brings_source (bytes : Bytes) : Source.Brings (reader bytes).source.events bytes := by
  have last : Source.Brings (ε := Unit) [.fault Connection.nothingYet] [] :=
    .delay (by decide) .ended
  exact last.whole bytes

theorem receive_eq (side : Side) (bytes : Bytes) :
    receive side (carrying side bytes) =
      ((reader bytes).receive.1,
        { (carrying side []) with
          connection := ({} : Connection).update side fun _ =>
            remainder { bytes } (reader bytes).receive.2.source }.withBuffer side
          (reader bytes).receive.2.buffer) := by
  cases side <;> rfl

theorem events_source {ε : Type} (payload : Bytes) :
    (source { bytes := wire payload } : Source ε).events =
      Source.upcoming (wire payload) [.fault Connection.nothingYet] := by
  simp [source, Source.upcoming, wire_ne_nil]

/-- An end finds the frame on the way to it, and nothing is left of it. -/
theorem receive_carrying (fits : payload.length ≤ effectiveLimit defaultLimit) :
    receive side (carrying side (wire payload)) = (.ok payload, {}) := by
  obtain ⟨asked, received⟩ :=
    @Reader.receive_of_upcoming _ _ _ (reader (wire payload)) rfl fits (events_source payload)
  rw [receive_eq, received]
  cases side <;> rfl

/-- A payload that an end receives is that of the frame at the front of the bytes on the way. -/
theorem take_of_receive (received : (receive side (carrying side bytes)).1 = .ok payload) :
    ∃ rest, take (effectiveLimit defaultLimit) bytes = .ok (some (payload, rest)) := by
  have found := @received_receive _ (reader bytes) _ withinFrame_nil (brings_source bytes)
  rw [receive_eq] at received
  rw [received] at found
  obtain ⟨rest, taken, _⟩ := found.of_ok
  exact ⟨rest, taken⟩

end Duplex

end Frame

end FramedTasks
