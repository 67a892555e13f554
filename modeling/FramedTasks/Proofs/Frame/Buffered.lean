import FramedTasks.Frame.Buffered
import FramedTasks.Frame.Writer
import FramedTasks.Proofs.Frame.Delivery
import FramedTasks.Proofs.Frame.Sending

/-! # Reading ahead and reading exactly agree

`drive` takes frames out of a buffer to which the pieces of a stream are added as they arrive. It
returns the frames of `split` and ends for the reason that `ending` gives, and so do the calls of a
reader that asks for no more than its frame; neither depends on how the bytes are cut. Writing into
a buffer and sending put the same bytes behind what is there, or refuse the same payloads.
-/

namespace FramedTasks.Frame.Buffered

section Next

variable {limit : Nat} {buffer payload rest : Bytes} {error : FrameError}

theorem take_of_next_some (found : next limit buffer = (.ok (some payload), rest)) :
    take (effectiveLimit limit) buffer = .ok (some (payload, rest)) := by
  simp only [next] at found
  split at found <;> simp at found
  next taken =>
    obtain ⟨rfl, rfl⟩ := found
    exact taken

theorem take_of_next_none (found : next limit buffer = (.ok none, rest)) :
    take (effectiveLimit limit) buffer = .ok none ∧ rest = buffer := by
  simp only [next] at found
  split at found <;> simp at found
  next taken => exact ⟨taken, found.symm⟩

theorem take_of_next_error (found : next limit buffer = (.error error, rest)) :
    take (effectiveLimit limit) buffer = .error error := by
  simp only [next] at found
  split at found <;> simp at found
  next taken =>
    obtain ⟨rfl, -⟩ := found
    exact taken

/-- What is left when no more bytes come is a frame, or the reason why there is none. -/
theorem last_of_next (limit : Nat) (buffer : Bytes) :
    last limit buffer =
      match take (effectiveLimit limit) buffer with
      | .ok (some (payload, rest)) => (.ok (some payload), rest)
      | .ok none =>
        if buffer.isEmpty then (.ok none, buffer) else (.error (Reader.closedError buffer), [])
      | .error error => (.error error, buffer) := by
  cases taken : take (effectiveLimit limit) buffer with
  | error error => simp only [last, next, taken]
  | ok found =>
    cases found with
    | some frame => simp only [last, next, taken]
    | none =>
      simp only [last, next, taken]
      cases empty : buffer.isEmpty with
      | true => rfl
      | false => simp [Reader.closedError, empty]

theorem take_of_last_some (found : last limit buffer = (.ok (some payload), rest)) :
    take (effectiveLimit limit) buffer = .ok (some (payload, rest)) := by
  rw [last_of_next] at found
  split at found
  · next taken =>
    obtain ⟨rfl, rfl⟩ : _ = payload ∧ _ = rest := by simpa using found
    exact taken
  · split at found <;> simp at found
  · simp at found

theorem take_of_last_none (found : last limit buffer = (.ok none, rest)) : buffer = [] := by
  rw [last_of_next] at found
  split at found
  · simp at found
  · split at found
    · next empty => exact List.isEmpty_iff.mp empty
    · simp at found
  · simp at found

/-- The error at the end of the stream is the one that ends the bytes. -/
theorem take_of_last_error (found : last limit buffer = (.error error, rest)) :
    take (effectiveLimit limit) buffer = .error error ∨
      take (effectiveLimit limit) buffer = .ok none ∧ buffer.isEmpty = false ∧
        error = Reader.closedError buffer := by
  rw [last_of_next] at found
  split at found
  · simp at found
  · next taken =>
    split at found
    · simp at found
    · next filled =>
      obtain ⟨rfl, -⟩ : _ = error ∧ _ := by simpa using found
      exact .inr ⟨taken, by simpa using filled, rfl⟩
  · next taken =>
    obtain ⟨rfl, -⟩ : _ = error ∧ _ := by simpa using found
    exact .inl taken

theorem length_of_last (found : last limit buffer = (.ok (some payload), rest)) :
    rest.length < buffer.length := by
  have := length_of_take (take_of_last_some found)
  simp only [headerSize] at this
  omega

end Next

/-- Take frames from the front of a buffer when no more bytes come: their payloads, and the error
that ends them if there is one. -/
def close (limit : Nat) (buffer : Bytes) : List Bytes × Option FrameError :=
  match _ : last limit buffer with
  | (.ok (some payload), rest) =>
    let (payloads, error?) := close limit rest
    (payload :: payloads, error?)
  | (.ok none, _) => ([], none)
  | (.error error, _) => ([], some error)
termination_by buffer.length
decreasing_by
  have found : last limit buffer = _ := ‹_›
  exact length_of_last found

/-- Take frames from the front of a buffer, and add a piece of the stream whenever no frame is
complete: the payloads, and the error that ends them if there is one. -/
def drive (limit : Nat) (buffer : Bytes) (pieces : List Bytes) : List Bytes × Option FrameError :=
  match _ : next limit buffer with
  | (.ok (some payload), rest) =>
    let (payloads, error?) := drive limit rest pieces
    (payload :: payloads, error?)
  | (.ok none, rest) =>
    match pieces with
    | [] => close limit rest
    | piece :: pieces => drive limit (rest ++ piece) pieces
  | (.error error, _) => ([], some error)
termination_by (pieces.length, buffer.length)
decreasing_by
  · exact Prod.Lex.right _ (length_of_next ‹_›)
  · exact Prod.Lex.left _ _ (by simp)

/-- The frames at the front of some bytes and what ends them, where the end of the stream between
two frames is no error. -/
structure Drained (limit : Nat) (bytes : Bytes) (outcome : List Bytes × Option FrameError) :
    Prop where
  payloads : outcome.1 = (split limit bytes).1
  ends : outcome.2.getD .endOfStream = ending limit (split limit bytes).2
  inOrder : outcome.2 ≠ some .endOfStream

namespace Drained

variable {limit : Nat} {bytes payload rest : Bytes} {error : FrameError}
  {outcome : List Bytes × Option FrameError}

theorem cons (found : take limit bytes = .ok (some (payload, rest)))
    (drained : Drained limit rest outcome) :
    Drained limit bytes (payload :: outcome.1, outcome.2) := by
  obtain ⟨payloads, ends, inOrder⟩ := drained
  refine ⟨?_, ?_, inOrder⟩
  · rw [split_of_take found, payloads]
  · rw [split_of_take found, ends]

theorem of_error (refused : take limit bytes = .error error) : Drained limit bytes ([], some error) := by
  have alone : split limit bytes = ([], bytes) := split_of_take_ne (by simp [refused])
  obtain ⟨size, rfl⟩ := error_of_take refused
  refine ⟨?_, ?_, by simp⟩
  · rw [alone]
  · rw [alone, ending_of_error refused]
    rfl

theorem nil (limit : Nat) : Drained limit [] ([], none) := by
  refine ⟨?_, ?_, by simp⟩
  · rw [split_nil]
  · rw [split_nil]
    rfl

theorem of_cut (incomplete : take limit bytes = .ok none) (filled : bytes.isEmpty = false) :
    Drained limit bytes ([], some (Reader.closedError bytes)) := by
  have alone : split limit bytes = ([], bytes) := split_of_take_ne (by simp [incomplete])
  refine ⟨?_, ?_, ?_⟩
  · rw [alone]
  · rw [alone, ending_of_none incomplete]
    rfl
  · simp [Reader.closedError, filled]

end Drained

theorem drained_close (limit : Nat) (buffer : Bytes) :
    Drained (effectiveLimit limit) buffer (close limit buffer) := by
  fun_induction close limit buffer with
  | case1 buffer payload rest found payloads error? closed ih =>
    rw [closed] at ih
    exact ih.cons (take_of_last_some found)
  | case2 buffer rest found =>
    rw [take_of_last_none found]
    exact .nil _
  | case3 buffer error rest found =>
    rcases take_of_last_error found with refused | ⟨incomplete, filled, rfl⟩
    · exact .of_error refused
    · exact .of_cut incomplete filled

/-- However the bytes are cut, the frames of all of them are taken. -/
theorem drained_drive (limit : Nat) (buffer : Bytes) (pieces : List Bytes) :
    Drained (effectiveLimit limit) (buffer ++ pieces.flatten) (drive limit buffer pieces) := by
  fun_induction drive limit buffer pieces with
  | case1 pieces buffer payload rest found payloads error? driven ih =>
    rw [driven] at ih
    exact ih.cons (take_append (Nat.min_le_right ..) (take_of_next_some found))
  | case2 buffer rest found =>
    obtain ⟨-, rfl⟩ := take_of_next_none found
    simpa using drained_close limit rest
  | case3 buffer rest found piece pieces ih =>
    obtain ⟨-, rfl⟩ := take_of_next_none found
    rwa [List.append_assoc] at ih
  | case4 pieces buffer error rest found =>
    exact .of_error (take_append_of_error (take_of_next_error found))

theorem put_of_fits {limit : Nat} {payload : Bytes} (fits : payload.length ≤ effectiveLimit limit)
    (buffer : Bytes) : put limit payload buffer = (.ok (), buffer ++ wire payload) := by
  have short : payload.length ≤ wireLimit := Nat.le_trans fits (Nat.min_le_right ..)
  simp only [put, append, if_neg (Nat.not_lt.mpr fits), if_neg (Nat.not_lt.mpr short)]

theorem put_of_excess {limit : Nat} {payload : Bytes} (excess : effectiveLimit limit < payload.length)
    (buffer : Bytes) :
    put limit payload buffer =
      (.error (.payloadTooLarge payload.length (effectiveLimit limit)), buffer) := by
  simp only [put, if_pos excess]

/-- Reading ahead returns the payloads that a reader returns, and ends as its calls do, however
each of them finds the bytes cut. Writing into a buffer adds to it what sending writes to a stream
that takes everything, and both refuse the same payloads. -/
theorem buffered_agrees {ε : Type} (limit : Nat) (pieces cuts : List Bytes)
    (same : pieces.flatten = cuts.flatten) (payload buffer : Bytes) :
    let reader : Reader ε := { source := { events := cuts.map fun cut => .data cut none }, limit }
    let (payloads, error?) := drive limit [] pieces
    let (sent, writer) := Writer.send { limit } payload
    (reader.calls (payloads.length + 1)).1 =
        payloads.map .ok ++ [.error (error?.getD .endOfStream)] ∧
      error? ≠ some .endOfStream ∧
      put limit payload buffer = (sent, buffer ++ writer.sink.taken) ∧
      (sent, writer.sink.taken) =
        if payload.length ≤ effectiveLimit limit then (.ok (), wire payload)
        else (.error (.payloadTooLarge payload.length (effectiveLimit limit)), []) := by
  intro reader
  have drained := drained_drive limit [] pieces
  have calls := @Reader.calls_split ε reader _ Reader.withinFrame_nil (Source.brings_pieces cuts)
    (Source.prompt_pieces cuts)
  rcases driven : drive limit [] pieces with ⟨payloads, error?⟩
  rcases sending : Writer.send { limit } payload with ⟨sent, writer⟩
  rw [driven] at drained
  obtain ⟨frames, ends, inOrder⟩ := drained
  refine ⟨?_, inOrder, ?_⟩
  · simp only [List.nil_append] at frames ends calls
    rw [← same] at calls
    rw [frames, ends]
    exact calls
  · by_cases fits : payload.length ≤ effectiveLimit limit
    · have sends := @Writer.send_of_open { limit } ⟨rfl, rfl⟩ payload fits
      rw [sending] at sends
      obtain ⟨rfl, taken, -⟩ := sends
      have out : writer.sink.taken = wire payload := taken
      simp only [put_of_fits fits, if_pos fits, out, and_self]
    · have sends := @Writer.send_of_excess { limit } payload (Nat.not_le.mp fits)
      rw [sending] at sends
      obtain ⟨rfl, rfl⟩ := Prod.mk.inj sends
      simp only [put_of_excess (Nat.not_le.mp fits), if_neg fits, List.append_nil, and_self]

/-- A header cut in two places, and a stream that ends behind a header. The limit is above what a
header can hold. -/
theorem buffered_agrees_cut :
    let pieces : List Bytes := [[0, 0], [0, 1, 7, 0, 0], [0, 9]]
    let cuts : List Bytes := [[0, 0, 0, 1, 7, 0], [0, 0, 9]]
    let reader : Reader Unit :=
      { source := { events := cuts.map fun cut => .data cut none }, limit := 0x1FFFFFFFF }
    pieces.flatten = cuts.flatten ∧
      drive 0x1FFFFFFFF [] pieces = ([[7]], some (.truncated 13 4)) ∧
      (reader.calls 2).1 = [.ok [7], .error (.truncated 13 4)] := by
  intro pieces cuts reader
  have driven : drive 0x1FFFFFFFF [] pieces = ([[7]], some (.truncated 13 4)) := by cbv
  have agrees := (@buffered_agrees Unit 0x1FFFFFFFF pieces cuts (by decide) [] []).1
  rw [driven] at agrees
  exact ⟨by decide, driven, agrees⟩

end FramedTasks.Frame.Buffered
