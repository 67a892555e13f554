import FramedTasks.Proofs.Frame.Delivery
import FramedTasks.Proofs.Frame.Joined

/-! # Delivery in order, and exactly once

At all times the frames received, the bytes held by the receiving end and the bytes in the pipe are
the bytes that have entered it, and these are the front of the frames that were passed on
(`Lane.Sound`). So what an end has received is the front of what its peer has passed on
(`Joined.delivers`).
-/

namespace FramedTasks.Frame

def Call.passed? : Call → Option Bytes
  | .sent _ _ (.error (.payloadTooLarge _ _)) | .received _ _ => none
  | .sent _ payload _ => some payload

def Call.received? : Call → Option Bytes
  | .received _ result => result.toOption
  | .sent _ _ _ => none

def Call.isSend : Call → Bool
  | .sent _ _ _ => true
  | .received _ _ => false

/-- Whether a send failed in the stream, so that a part of its frame may be out. -/
def Call.breaks : Call → Bool
  | .sent _ _ (.error (.io _)) => true
  | _ => false

namespace Lane

/-- The payloads that the peer has sent and that were not too large for it. -/
def passed (lane : Lane) : List Bytes := lane.calls.filterMap Call.passed?

def received (lane : Lane) : List Bytes := lane.calls.filterMap Call.received?

section Calls

variable {lane other : Lane} {side : Side} {payload : Bytes}

theorem passed_of_sent {result : Except FrameError Unit}
    (calls : other.calls = lane.calls ++ [.sent side payload result]) :
    other.passed = lane.passed ++ (Call.sent side payload result).passed?.toList := by
  cases found : (Call.sent side payload result).passed? <;> simp [passed, calls, found]

theorem received_of_sent {result : Except FrameError Unit}
    (calls : other.calls = lane.calls ++ [.sent side payload result]) :
    other.received = lane.received := by
  simp [received, calls, Call.received?]

theorem passed_of_received {result : Except FrameError Bytes}
    (calls : other.calls = lane.calls ++ [.received side result]) : other.passed = lane.passed := by
  simp [passed, calls, Call.passed?]

theorem received_of_received {result : Except FrameError Bytes}
    (calls : other.calls = lane.calls ++ [.received side result]) :
    other.received = lane.received ++ Reader.payloads [result] := by
  cases result <;> simp [received, calls, Call.received?, Except.toOption]

end Calls

/-- Nothing is sent after a send that failed in the stream. -/
def Orderly (lane : Lane) : Prop :=
  lane.calls.Pairwise fun earlier later => earlier.breaks → later.isSend = false

/-- Every send has succeeded. -/
def AllSent (lane : Lane) : Prop :=
  ∀ side payload result, .sent side payload result ∈ lane.calls → result = .ok ()

theorem AllSent.unbroken {lane : Lane} (allSent : lane.AllSent) :
    ∀ call ∈ lane.calls, ¬ call.breaks := by
  intro call member
  cases call with
  | sent side payload result =>
    obtain rfl := allSent side payload result member
    simp [Call.breaks]
  | received side result => simp [Call.breaks]

theorem limit_run (actions : List Action) (lane : Lane) :
    (actions.foldl perform lane).limit = lane.limit := by
  induction actions generalizing lane with
  | nil => rfl
  | cons action actions ih =>
    rw [List.foldl_cons, ih]
    cases action <;> rfl

/-- What a send returns, and the bytes that it puts into the pipe. -/
inductive Puts (limit : Nat) (payload : Bytes) : Except FrameError Unit → Bytes → Prop
  | whole : payload.length ≤ limit → Puts limit payload (.ok ()) (wire payload)
  | refused : limit < payload.length →
      Puts limit payload (.error (.payloadTooLarge payload.length limit)) []
  | broken {fault : Fault} {part : Bytes} : payload.length ≤ limit → part <+: wire payload →
      Puts limit payload (.error (.io fault)) part

/-- What goes into the pipe is the front of the frame passed on, and all of it unless the stream
failed. -/
theorem Puts.ahead {limit : Nat} {payload part : Bytes} {result : Except FrameError Unit}
    (puts : Puts limit payload result part) (side : Side) :
    let call := Call.sent side payload result
    part <+: wires call.passed?.toList ∧ (¬ call.breaks → part = wires call.passed?.toList) ∧
      ∀ payload ∈ call.passed?.toList, payload.length ≤ limit := by
  cases puts with
  | whole fits => simpa [Call.passed?, Call.breaks] using fits
  | refused excess => simp [Call.passed?, Call.breaks]
  | broken fits within => simpa [Call.passed?, Call.breaks] using ⟨within, fits⟩

theorem perform_send (lane : Lane) (side : Side) (payload : Bytes) (writes : List WriteEvent)
    (flushes : List FlushEvent) :
    ∃ result part, Puts (effectiveLimit lane.most) payload result part ∧
      (lane.pipe.shut → part = []) ∧
      lane.perform (.send side payload writes flushes) =
        { lane with
          pipe := { lane.pipe.settle with coming := part }
          calls := lane.calls ++ [.sent side payload result] } := by
  let writer : Writer := { sink := lane.pipe.settle.sink writes flushes, limit := lane.most }
  have sending := writer.sending_send payload
  refine ⟨(writer.send payload).1, (writer.send payload).2.sink.taken, ?_, ?_, rfl⟩
  · generalize (writer.send payload).1 = result, (writer.send payload).2.sink = after at sending
    cases sending with
    | delivered fits delivers =>
      have taken : after.taken = wire payload := by
        simpa [writer, Pipe.sink] using delivers.taken
      rw [taken]
      exact .whole fits
    | refused excess => exact .refused excess
    | broken fits within taken =>
      rw [taken]
      exact .broken fits within
  · intro isShut
    have fails : writer.sink.writes = [.fault Connection.brokenPipe] := if_pos isShut
    exact writer.taken_send_of_fault fails (by decide) payload

theorem perform_receive {lane : Lane} (within : Reader.WithinFrame lane.buffer) (side : Side)
    (reads : List ReadEvent) :
    ∃ result buffer left, Reader.WithinFrame buffer ∧
      lane.buffer ++ lane.pipe.bytes = wires (Reader.payloads [result]) ++ buffer ++ left ∧
      (∀ payload ∈ Reader.payloads [result], payload.length ≤ wireLimit) ∧
      lane.perform (.receive side reads) =
        { lane with
          pipe := { lane.pipe with bytes := left }
          buffer
          calls := lane.calls ++ [.received side result] } := by
  let reader : Reader Unit :=
    { source := lane.pipe.source reads, buffer := lane.buffer, limit := lane.limit }
  obtain ⟨readings, arrived, call, held⟩ := @Reader.receiving_receive _ reader within
  have account := call.account
  refine ⟨reader.receive.1, reader.receive.2.buffer, reader.receive.2.source.left, held, ?_, ?_, rfl⟩
  · calc
      lane.buffer ++ lane.pipe.bytes
          = lane.buffer ++ arrivals readings ++ reader.receive.2.source.left := by
        rw [← lane.pipe.left_source reads, arrived.left, List.append_assoc]
      _ = wires (Reader.payloads [reader.receive.1]) ++ reader.receive.2.buffer ++
          reader.receive.2.source.left := by rw [← account.conserved]
  · intro payload member
    exact Nat.le_trans (account.within payload member) (Nat.min_le_right ..)

theorem Orderly.before {lane : Lane} {action : Action} (orderly : (lane.perform action).Orderly) :
    lane.Orderly := by
  cases action with
  | send side payload writes flushes => exact (List.pairwise_append.mp orderly).1
  | pass side count => exact orderly
  | receive side reads => exact (List.pairwise_append.mp orderly).1
  | shut side => exact orderly

/-- What holds of one direction at all times. -/
structure Sound (lane : Lane) : Prop where
  within : Reader.WithinFrame lane.buffer
  /-- Every byte that has entered the pipe has been received, is held, or is still in it. -/
  conserved : wires lane.received ++ lane.buffer ++ lane.pipe.bytes = lane.pipe.entered
  /-- The pipe takes the front of the frames passed on. -/
  ahead : lane.pipe.entered ++ lane.pipe.coming <+: wires lane.passed
  /-- Unless a send has failed in the stream, it takes all of them. -/
  whole : (∀ call ∈ lane.calls, ¬ call.breaks) →
    lane.pipe.entered ++ lane.pipe.coming = wires lane.passed
  settled : lane.pipe.shut → lane.pipe.coming = []
  passedFits : ∀ payload ∈ lane.passed, payload.length ≤ wireLimit
  receivedFits : ∀ payload ∈ lane.received, payload.length ≤ wireLimit

namespace Sound

variable {lane : Lane}

/-- The frames received have entered the pipe, whole and in order. -/
theorem wires_received_prefix (sound : lane.Sound) : wires lane.received <+: lane.pipe.entered := by
  rw [← sound.conserved, List.append_assoc]
  exact List.prefix_append ..

theorem start (most limit : Nat) : ({ most, limit } : Lane).Sound where
  within := Reader.withinFrame_nil
  conserved := rfl
  ahead := List.nil_prefix
  whole _ := rfl
  settled _ := rfl
  passedFits := by simp [passed]
  receivedFits := by simp [received]

theorem pass (sound : lane.Sound) (count : Nat) :
    ({ lane with pipe := lane.pipe.pass count } : Lane).Sound where
  within := sound.within
  conserved := by
    have before := sound.conserved
    change wires lane.received ++ lane.buffer ++ (lane.pipe.bytes ++ _) = lane.pipe.entered ++ _
    rw [← List.append_assoc, before]
  ahead := by
    rw [Pipe.entered_pass]
    exact sound.ahead
  whole unbroken := by
    rw [Pipe.entered_pass]
    exact sound.whole unbroken
  settled isShut := by
    have nothing := sound.settled isShut
    simp only [Pipe.pass, nothing, List.drop_nil]
  passedFits := sound.passedFits
  receivedFits := sound.receivedFits

theorem settle (sound : lane.Sound) : ({ lane with pipe := lane.pipe.settle } : Lane).Sound :=
  sound.pass lane.pipe.coming.length

theorem shut (sound : lane.Sound) (side : Side) : (lane.perform (.shut side)).Sound :=
  { sound.settle with settled := fun _ => lane.pipe.coming_settle }

theorem receive (sound : lane.Sound) (side : Side) (reads : List ReadEvent) :
    (lane.perform (.receive side reads)).Sound := by
  obtain ⟨result, buffer, left, held, moved, fits, same⟩ := perform_receive sound.within side reads
  have made := congrArg calls same
  have received := received_of_received made
  have passed := passed_of_received made
  rw [same] at received passed ⊢
  refine ⟨held, ?_, ?_, ?_, sound.settled, ?_, ?_⟩
  · rw [received, wires_append]
    calc
      wires lane.received ++ wires (Reader.payloads [result]) ++ buffer ++ left
          = wires lane.received ++ (lane.buffer ++ lane.pipe.bytes) := by
        simp only [moved, List.append_assoc]
      _ = lane.pipe.entered := by rw [← List.append_assoc, sound.conserved]
  · rw [passed]
    exact sound.ahead
  · intro unbroken
    rw [passed]
    exact sound.whole fun call member => unbroken call (List.mem_append_left _ member)
  · rw [passed]
    exact sound.passedFits
  · intro payload member
    rw [received] at member
    exact (List.mem_append.mp member).elim (sound.receivedFits payload) (fits payload)

theorem send (sound : lane.Sound) (side : Side) (payload : Bytes) (writes : List WriteEvent)
    (flushes : List FlushEvent) (orderly : (lane.perform (.send side payload writes flushes)).Orderly) :
    (lane.perform (.send side payload writes flushes)).Sound := by
  obtain ⟨result, part, puts, silent, same⟩ := lane.perform_send side payload writes flushes
  obtain ⟨ahead, whole, fits⟩ := puts.ahead side
  have made := congrArg calls same
  have received := received_of_sent made
  have passed := passed_of_sent made
  rw [same] at received passed orderly ⊢
  -- A send that failed in the stream would have been the last one.
  have unbroken : ∀ call ∈ lane.calls, ¬ call.breaks := by
    intro call member breaks
    have alone := (List.pairwise_append.mp orderly).2.2 call member _ (List.mem_singleton_self _)
    simp [Call.isSend, breaks] at alone
  have settled := sound.settle
  have before : lane.pipe.settle.entered ++ lane.pipe.settle.coming = wires lane.passed :=
    settled.whole unbroken
  rw [lane.pipe.coming_settle, List.append_nil] at before
  refine ⟨sound.within, ?_, ?_, ?_, silent, ?_, ?_⟩
  · rw [received]
    exact settled.conserved
  · rw [passed, wires_append]
    change lane.pipe.settle.entered ++ part <+: _
    rw [before]
    exact (List.prefix_append_right_inj _).mpr ahead
  · intro unbroken
    rw [passed, wires_append]
    change lane.pipe.settle.entered ++ part = _
    rw [before, whole (unbroken _ (List.mem_append_right _ (List.mem_singleton_self _)))]
  · intro other member
    rw [passed] at member
    rcases List.mem_append.mp member with earlier | now
    · exact sound.passedFits other earlier
    · exact Nat.le_trans (fits other now) (Nat.min_le_right ..)
  · rw [received]
    exact sound.receivedFits

theorem perform (sound : lane.Sound) (action : Action) (orderly : (lane.perform action).Orderly) :
    (lane.perform action).Sound := by
  cases action with
  | send side payload writes flushes => exact sound.send side payload writes flushes orderly
  | pass side count => exact sound.pass count
  | receive side reads => exact sound.receive side reads
  | shut side => exact sound.shut side

/-- What holds at the start holds after any actions. -/
theorem run (sound : lane.Sound) (actions : List Action)
    (orderly : (actions.foldl Lane.perform lane).Orderly) :
    (actions.foldl Lane.perform lane).Sound := by
  induction actions using List.reverseRecOn with
  | nil => exact sound
  | append_singleton actions action ih =>
    rw [List.foldl_append] at orderly ⊢
    exact (ih orderly.before).perform action orderly

/-- What has been received is the front of what was passed on. -/
theorem received_prefix (sound : lane.Sound) : lane.received <+: lane.passed := by
  apply prefix_of_wires_prefix sound.receivedFits sound.passedFits
  refine (sound.wires_received_prefix.trans ?_).trans sound.ahead
  exact List.prefix_append ..

end Sound

section Complete

variable {lane : Lane} {remaining : List Bytes}

theorem Sound.entered_of_allSent (sound : lane.Sound) (allSent : lane.AllSent)
    (isShut : lane.pipe.shut) : lane.pipe.entered = wires lane.passed := by
  have all := sound.whole allSent.unbroken
  rwa [sound.settled isShut, List.append_nil] at all

/-- The end is reported only where the pipe is shut and everything passed on has been received. -/
theorem Sound.of_endOfStream (sound : lane.Sound) (allSent : lane.AllSent) {side : Side}
    {reads : List ReadEvent}
    (ended : (lane.perform (.receive side reads)).calls =
      lane.calls ++ [.received side (.error .endOfStream)]) :
    lane.pipe.shut ∧ lane.received = lane.passed := by
  have result : (Reader.receiveFrom (effectiveLimit lane.limit) lane.buffer
      (lane.pipe.source reads)).1 = .error .endOfStream := by
    simpa [Lane.perform, Reader.receive] using ended
  obtain ⟨isShut, nothing⟩ := Reader.nothing_of_endOfStream (lane.pipe.offers_source reads) result
  obtain ⟨rest, whole⟩ := sound.received_prefix
  have frames : wires lane.received = wires lane.passed := by
    rw [← sound.entered_of_allSent allSent isShut, ← sound.conserved, List.append_assoc, nothing,
      List.append_nil]
  have none : rest = [] := by
    by_contra filled
    rw [← whole, wires_append] at frames
    exact wires_ne_nil filled (List.self_eq_append_right.mp frames)
  exact ⟨isShut, by rw [← whole, none, List.append_nil]⟩

/-- Everything has been sent to an end that can take it, and nothing more comes. -/
structure Complete (lane : Lane) (remaining : List Bytes) : Prop where
  sound : lane.Sound
  allSent : lane.AllSent
  fits : ∀ payload ∈ lane.passed, payload.length ≤ effectiveLimit lane.limit
  shut : lane.pipe.shut
  rest : lane.passed = lane.received ++ remaining

namespace Complete

/-- What is held and what is to come are the frames that remain. -/
theorem bytes (complete : lane.Complete remaining) :
    lane.buffer ++ lane.pipe.bytes = wires remaining := by
  have all := complete.sound.entered_of_allSent complete.allSent complete.shut
  rw [← complete.sound.conserved, complete.rest, wires_append, List.append_assoc] at all
  exact List.append_cancel_left all

/-- What the next call returns where no read fails. -/
def next : List Bytes → Except FrameError Bytes
  | [] => .error .endOfStream
  | payload :: _ => .ok payload

theorem result (complete : lane.Complete remaining) (cut : List Nat) :
    let reader : Reader Unit :=
      { source := lane.pipe.source (cut.map .bring), buffer := lane.buffer, limit := lane.limit }
    reader.receive.1 = next remaining := by
  intro reader
  obtain ⟨brings, prompt⟩ := Pipe.brings_source complete.shut cut
  have received := @Reader.received_receive _ reader _ complete.sound.within brings
  have inTime : reader.receive.1 ≠ .error .timeout := (@Reader.prompt_receive _ reader prompt).1
  rw [complete.bytes] at received
  generalize reader.receive.1 = result, reader.receive.2.buffer = buffer,
    reader.receive.2.source.events = events at received inTime
  cases remaining with
  | nil =>
    cases received with
    | frame found _ => simp [take_nil] at found
    | delayed => exact absurd rfl inTime
    | drained _ => rfl
  | cons payload rest =>
    have fits : payload.length ≤ effectiveLimit lane.limit := by
      apply complete.fits
      rw [complete.rest]
      exact List.mem_append_right _ (List.mem_cons_self ..)
    have first : take (effectiveLimit lane.limit) (wires (payload :: rest)) =
        .ok (some (payload, wires rest)) :=
      (take_eq_some_iff (Nat.min_le_right ..)).mpr ⟨fits, rfl⟩
    cases received with
    | frame found _ =>
      have same := first.symm.trans found
      simp only [Except.ok.injEq, Option.some.injEq, Prod.mk.injEq] at same
      rw [← same.1]
      rfl
    | delayed => exact absurd rfl inTime
    | drained other => exact absurd first (other payload (wires rest))

/-- Each call takes the next payload off what remains. -/
theorem receive (complete : lane.Complete remaining) (side : Side) (cut : List Nat) :
    (lane.perform (.receive side (cut.map .bring))).calls =
        lane.calls ++ [.received side (next remaining)] ∧
      (lane.perform (.receive side (cut.map .bring))).Complete remaining.tail := by
  have made : (lane.perform (.receive side (cut.map .bring))).calls =
      lane.calls ++ [.received side (next remaining)] := by
    rw [← complete.result cut]
    rfl
  have passed := passed_of_received made
  have received := received_of_received made
  refine ⟨made, complete.sound.receive side _, ?_, ?_, complete.shut, ?_⟩
  · intro sender payload result member
    rw [made] at member
    exact complete.allSent sender payload result (by simpa using member)
  · rw [passed]
    exact complete.fits
  · rw [passed, received, complete.rest]
    cases remaining with
    | nil => simp [next]
    | cons payload rest => simp [next]

/-- Calls return the payloads that remain, one after another, and then the end. -/
theorem receiveAll (complete : lane.Complete remaining) (side : Side) {cuts : List (List Nat)}
    (enough : cuts.length = remaining.length + 1) :
    ((cuts.map fun cut => .receive side (cut.map .bring)).foldl Lane.perform lane).calls =
      lane.calls ++ remaining.map (fun payload => .received side (.ok payload)) ++
        [.received side (.error .endOfStream)] := by
  induction remaining generalizing lane cuts with
  | nil =>
    obtain ⟨cut, rfl⟩ := List.length_eq_one_iff.mp enough
    simpa [next] using (complete.receive side cut).1
  | cons payload rest ih =>
    obtain ⟨cut, cuts, rfl⟩ := List.exists_cons_of_length_eq_add_one enough
    obtain ⟨made, later⟩ := complete.receive side cut
    rw [List.map_cons, List.foldl_cons, ih later (by simpa using enough), made]
    simp [next]

end Complete

end Complete

end Lane

namespace Joined

/-- At all times, what has happened in one direction is a matter of the calls in that direction
alone; where nothing is sent after a send that failed in the stream, an end has received the first
of the payloads that its peer passed on, whose frames are in the pipe as a whole. If every send has
succeeded, the end is reported only after the last payload; and once nothing more is sent, and if no
payload is too large for the end that receives, its calls return what remains and then the end. -/
theorem delivers (limit : Side → Nat) (actions : List Action) (side : Side) :
    let joined := (new limit).run actions
    let lane := joined.lane side
    ((new limit).run (actions.filter (·.target = side))).lane side = lane ∧
      (lane.Orderly →
        lane.received <+: lane.passed ∧ wires lane.received <+: lane.pipe.entered ∧
        (lane.AllSent →
          (∀ reads, ((joined.perform (.receive side reads)).lane side).calls =
              lane.calls ++ [.received side (.error .endOfStream)] →
            lane.pipe.shut ∧ lane.received = lane.passed) ∧
          ((∀ payload ∈ lane.passed, payload.length ≤ effectiveLimit (limit side)) → lane.pipe.shut →
            ∃ remaining, lane.passed = lane.received ++ remaining ∧
              ∀ cuts : List (List Nat), cuts.length = remaining.length + 1 →
                ((joined.run (cuts.map fun cut => .receive side (cut.map .bring))).lane side).calls =
                  lane.calls ++ remaining.map (fun payload => .received side (.ok payload)) ++
                    [.received side (.error .endOfStream)]))) := by
  intro joined lane
  have direction : lane =
      (actions.filter (·.target = side)).foldl Lane.perform ((new limit).lane side) :=
    lane_run actions (new limit) side
  refine ⟨?_, fun orderly => ?_⟩
  · rw [lane_run, List.filter_filter, direction]
    simp
  have sound : lane.Sound := by
    rw [direction, lane_new] at orderly ⊢
    exact (Lane.Sound.start ..).run _ orderly
  refine ⟨sound.received_prefix, sound.wires_received_prefix, fun allSent => ⟨?_, ?_⟩⟩
  · intro reads ended
    have same : (joined.perform (.receive side reads)).lane side =
        lane.perform (.receive side reads) := lane_perform_target joined (.receive side reads)
    rw [same] at ended
    exact sound.of_endOfStream allSent ended
  · intro fits isShut
    obtain ⟨remaining, rest⟩ := sound.received_prefix
    have most : lane.limit = limit side := by
      rw [direction, Lane.limit_run, lane_new]
    have complete : lane.Complete remaining := ⟨sound, allSent, most ▸ fits, isShut, rest.symm⟩
    refine ⟨remaining, rest.symm, fun cuts enough => ?_⟩
    have own : (cuts.map fun cut => Action.receive side (cut.map .bring)).filter (·.target = side) =
        cuts.map fun cut => .receive side (cut.map .bring) :=
      List.filter_eq_self.mpr (by simp [Action.target])
    rw [lane_run, own]
    exact complete.receiveAll side enough

private def unequal : Side → Nat
  | .left => 8
  | .right => 4

/-- The left end sends three payloads, the second of them piece by piece, and shuts down its write
half. The right end has received the first and run out of time inside the second; it has sent one
payload itself, which is still under way. -/
private def exchange : List Action :=
  [.send .left [9] [] [], .pass .right 5, .receive .right [], .send .left [1, 2, 3] [.accept 5] [],
    .pass .right 3, .receive .right [.bring 2], .send .right [7] [] [], .pass .left 2,
    .receive .left [], .send .left [] [.accept 1, .accept 2] [.done], .shut .right]

theorem lane_exchange : ((new unequal).run exchange).lane .right =
    { most := 8, limit := 4, buffer := [0, 0, 0]
      pipe :=
        { entered := wires [[9], [1, 2, 3], []], bytes := [3, 1, 2, 3, 0, 0, 0, 0], shut := true }
      calls := [.sent .left [9] (.ok ()), .received .right (.ok [9]), .sent .left [1, 2, 3] (.ok ()),
        .received .right (.error .timeout), .sent .left [] (.ok ())] } := by
  cbv

/-- Three more calls of the right end return the payloads that remain and the end. -/
theorem delivers_exchange :
    let joined := (new unequal).run exchange
    let lane := joined.lane .right
    (lane.Orderly ∧ lane.AllSent ∧ lane.pipe.shut ∧
        ∀ payload ∈ lane.passed, payload.length ≤ effectiveLimit (unequal .right)) ∧
      lane.received = [[9]] ∧ lane.passed = [[9], [1, 2, 3], []] ∧
      lane.received <+: lane.passed ∧ wires lane.received <+: lane.pipe.entered ∧
      ((joined.run ([[1], [], [3, 0]].map fun cut => .receive .right (cut.map .bring))).lane
          .right).calls =
        lane.calls ++ [.received .right (.ok [1, 2, 3]), .received .right (.ok []),
          .received .right (.error .endOfStream)] := by
  intro joined lane
  have state : lane = _ := lane_exchange
  have orderly : lane.Orderly := by
    rw [state]
    simp [Lane.Orderly, Call.breaks]
  have allSent : lane.AllSent := by
    rw [state]
    intro side payload result member
    simp only [List.mem_cons, Call.sent.injEq, reduceCtorEq, List.not_mem_nil, or_false,
      false_or] at member
    rcases member with ⟨-, -, rfl⟩ | ⟨-, -, rfl⟩ | ⟨-, -, rfl⟩ <;> rfl
  have passed : lane.passed = [[9], [1, 2, 3], []] := by
    rw [state]
    rfl
  have received : lane.received = [[9]] := by
    rw [state]
    rfl
  have isShut : lane.pipe.shut := by rw [state]
  have fits : ∀ payload ∈ lane.passed, payload.length ≤ effectiveLimit (unequal .right) := by
    rw [passed]
    decide
  obtain ⟨front, whole, complete⟩ := (delivers unequal exchange .right).2 orderly
  obtain ⟨remaining, rest, calls⟩ := (complete allSent).2 fits isShut
  obtain rfl : remaining = [[1, 2, 3], []] := by
    change lane.passed = lane.received ++ remaining at rest
    rw [passed, received] at rest
    exact (List.cons.inj rest).2.symm
  exact ⟨⟨orderly, allSent, isShut, fits⟩, received, passed, front, whole,
    calls [[1], [], [3, 0]] rfl⟩

end Joined

end FramedTasks.Frame
