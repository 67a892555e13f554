import FramedTasks.Stream.Source

/-! # Streams that are closed in the end

`Source.Brings` says which bytes a stream brings before its end: they may arrive in pieces of any
size and with any delays, and anything may happen elsewhere in between. A read takes the bytes from
the front, or is put off, and finds the end only when no byte is left (`Source.Brings.read`).
`Source.Offers` says the same of a stream whose reads may fail as well, and which may be waiting for
more bytes.
-/

namespace FramedTasks.Source

variable {ε : Type}

/-- The events bring some bytes, and then the end of the stream. -/
inductive Brings : List (SourceEvent ε) → Bytes → Prop
  | ended : Brings [] []
  | closed (rest : List (SourceEvent ε)) : Brings (.closed :: rest) []
  | data {piece bytes : Bytes} {cap : Option Nat} {rest : List (SourceEvent ε)} :
      cap ≠ some 0 → Brings rest bytes → Brings (.data piece cap :: rest) (piece ++ bytes)
  /-- A read is interrupted or runs out of time. -/
  | delay {bytes : Bytes} {fault : Fault} {rest : List (SourceEvent ε)} :
      fault.isInterrupted || fault.isTimeout → Brings rest bytes → Brings (.fault fault :: rest) bytes
  | moment {bytes : Bytes} {rest : List (SourceEvent ε)} (event : ε) :
      Brings rest bytes → Brings (.moment event :: rest) bytes

/-- All bytes may arrive in one piece. -/
theorem Brings.whole {rest : List (SourceEvent ε)} (brings : Brings rest []) (bytes : Bytes) :
    Brings (.data bytes none :: rest) bytes := by
  have brought : Brings (.data bytes none :: rest) (bytes ++ []) := .data nofun brings
  rwa [List.append_nil] at brought

/-- What a read comes to, by the bytes to come before it and the events after it. -/
inductive Brings.Read (bytes : Bytes) : Reading → List (SourceEvent ε) → Prop
  | arrived {found left : Bytes} {rest : List (SourceEvent ε)} :
      bytes = found ++ left → Brings rest left → Read bytes (.bytes found) rest
  | delayed {fault : Fault} {rest : List (SourceEvent ε)} :
      fault.isInterrupted || fault.isTimeout → Brings rest bytes → Read bytes (.fault fault) rest
  | closed {rest : List (SourceEvent ε)} : bytes = [] → Read bytes .closed rest

theorem Brings.step {events : List (SourceEvent ε)} {bytes : Bytes} (brings : Brings events bytes)
    {want : Nat} (positive : 0 < want) (passed : List ε) :
    Brings.Read bytes (step want passed events).1 (step want passed events).2.1 := by
  induction brings generalizing passed with
  | ended => exact .closed rfl
  | closed rest => exact .closed rfl
  | @data piece bytes cap rest open' brings ih =>
    cases piece with
    | nil => exact ih passed
    | cons byte piece =>
      have nonzero : ¬ min want (cap.getD want) = 0 := by
        cases cap with
        | none => simp only [Option.getD_none]; omega
        | some cap =>
          have : cap ≠ 0 := fun zero => open' (congrArg some zero)
          simp only [Option.getD_some]
          omega
      have whole := List.take_append_drop (min want (cap.getD want)) (byte :: piece)
      simp only [Source.step, if_neg nonzero]
      split
      · next finished =>
        rw [List.isEmpty_iff.mp finished, List.append_nil] at whole
        exact .arrived (by rw [whole]) brings
      · refine .arrived ?_ (.data open' brings)
        rw [← List.append_assoc, whole]
  | delay waits brings => exact .delayed waits brings
  | moment event _ ih => exact ih (event :: passed)

theorem Brings.read {source : Source ε} {bytes : Bytes} (brings : Brings source.events bytes)
    {want : Nat} (positive : 0 < want) :
    Brings.Read bytes (source.read want).1 (source.read want).2.events :=
  brings.step positive source.passed

/-- No read of a stream fails. -/
def Prompt (events : List (SourceEvent ε)) : Prop := ∀ fault, .fault fault ∉ events

theorem Prompt.step {events : List (SourceEvent ε)} (prompt : Prompt events) (want : Nat)
    (passed : List ε) :
    (∀ fault, (step want passed events).1 ≠ .fault fault) ∧
      Prompt (Source.step want passed events).2.1 := by
  induction events generalizing passed with
  | nil => exact ⟨by simp [Source.step], prompt⟩
  | cons event rest ih =>
    have later : Prompt rest := fun fault member => prompt fault (List.mem_cons_of_mem _ member)
    cases event with
    | data piece cap =>
      cases piece with
      | nil => exact ih later passed
      | cons byte piece =>
        simp only [Source.step]
        split
        · exact ⟨by simp, prompt⟩
        · refine ⟨by simp, ?_⟩
          split
          · exact later
          · intro fault member
            rcases List.mem_cons.mp member with same | member
            · contradiction
            · exact later fault member
    | fault fault => exact absurd (List.mem_cons_self ..) (prompt fault)
    | closed => exact ⟨by simp [Source.step], later⟩
    | moment event => exact ih later (event :: passed)

theorem Prompt.read {source : Source ε} (prompt : Prompt source.events) (want : Nat) :
    (∀ fault, (source.read want).1 ≠ .fault fault) ∧ Prompt (source.read want).2.events :=
  prompt.step want source.passed

/-- A stream that holds nothing but pieces brings them all. -/
theorem brings_pieces (pieces : List Bytes) :
    Brings (pieces.map fun piece => (.data piece none : SourceEvent ε)) pieces.flatten := by
  induction pieces with
  | nil => exact .ended
  | cons piece rest ih => exact .data (by simp) ih

theorem prompt_pieces (pieces : List Bytes) :
    Prompt (pieces.map fun piece => (.data piece none : SourceEvent ε)) := by
  intro fault member
  obtain ⟨piece, -, same⟩ := List.mem_map.mp member
  contradiction

/-- Whatever has passed elsewhere, and whatever may still happen there, is of one kind. -/
structure Sees (kind : ε → Prop) (source : Source ε) : Prop where
  passed : ∀ event ∈ source.passed, kind event
  coming : ∀ event, .moment event ∈ source.events → kind event

theorem Sees.step {kind : ε → Prop} {events : List (SourceEvent ε)} {passed : List ε}
    (before : ∀ event ∈ passed, kind event) (coming : ∀ event, .moment event ∈ events → kind event)
    (want : Nat) :
    (∀ event ∈ (step want passed events).2.2, kind event) ∧
      ∀ event, .moment event ∈ (Source.step want passed events).2.1 → kind event := by
  induction events generalizing passed with
  | nil => exact ⟨before, coming⟩
  | cons first rest ih =>
    have later (event : ε) (member : .moment event ∈ rest) : kind event :=
      coming event (List.mem_cons_of_mem _ member)
    cases first with
    | data piece cap =>
      cases piece with
      | nil => exact ih before later
      | cons byte piece =>
        simp only [Source.step]
        split
        · exact ⟨before, coming⟩
        · refine ⟨before, ?_⟩
          split
          · exact later
          · intro event member
            rcases List.mem_cons.mp member with same | member
            · contradiction
            · exact later event member
    | fault fault => exact ⟨before, later⟩
    | closed => exact ⟨before, later⟩
    | moment event =>
      refine ih ?_ later
      intro other member
      rcases List.mem_cons.mp member with rfl | member
      · exact coming other (List.mem_cons_self ..)
      · exact before other member

theorem Sees.read {kind : ε → Prop} {source : Source ε} (sees : source.Sees kind) (want : Nat) :
    (source.read want).2.Sees kind := by
  obtain ⟨passed, coming⟩ := Sees.step sees.passed sees.coming want
  exact ⟨passed, coming⟩

/-- The events bring some bytes, whatever fails in between, and after them the end of the stream if
it is shut, or a read that has waited in vain. -/
inductive Offers (shut : Bool) : List (SourceEvent ε) → Bytes → Prop
  | ended : shut → Offers shut [] []
  | waiting {fault : Fault} : fault.isInterrupted = false → Offers shut [.fault fault] []
  | data {piece bytes : Bytes} {rest : List (SourceEvent ε)} :
      Offers shut rest bytes → Offers shut (.data piece none :: rest) (piece ++ bytes)
  | fault {bytes : Bytes} {rest : List (SourceEvent ε)} (fault : Fault) :
      Offers shut rest bytes → Offers shut (.fault fault :: rest) bytes

/-- What a read comes to, by the bytes to come before it and the events after it. -/
inductive Offers.Read (shut : Bool) (bytes : Bytes) : Reading → List (SourceEvent ε) → Prop
  | arrived {found left : Bytes} {rest : List (SourceEvent ε)} :
      bytes = found ++ left → Offers shut rest left → Read shut bytes (.bytes found) rest
  | failed {fault : Fault} {rest : List (SourceEvent ε)} :
      (fault.isInterrupted → Offers shut rest bytes) → Read shut bytes (.fault fault) rest
  | closed {rest : List (SourceEvent ε)} : bytes = [] → shut → Read shut bytes .closed rest

theorem Offers.step {shut : Bool} {events : List (SourceEvent ε)} {bytes : Bytes}
    (offers : Offers shut events bytes) {want : Nat} (positive : 0 < want) (passed : List ε) :
    Offers.Read shut bytes (step want passed events).1 (step want passed events).2.1 := by
  induction offers with
  | ended isShut => exact .closed rfl isShut
  | waiting plain => exact .failed (by simp [plain])
  | @data piece bytes rest offers ih =>
    cases piece with
    | nil => exact ih
    | cons byte piece =>
      have whole := List.take_append_drop want (byte :: piece)
      simp only [Source.step, Option.getD_none, Nat.min_self, if_neg (Nat.ne_of_gt positive)]
      split
      · next finished =>
        rw [List.isEmpty_iff.mp finished, List.append_nil] at whole
        exact .arrived (by rw [whole]) offers
      · refine .arrived ?_ (.data offers)
        rw [← List.append_assoc, whole]
  | fault fault offers => exact .failed fun _ => offers

theorem Offers.read {shut : Bool} {source : Source ε} {bytes : Bytes}
    (offers : Offers shut source.events bytes) {want : Nat} (positive : 0 < want) :
    Offers.Read shut bytes (source.read want).1 (source.read want).2.events :=
  offers.step positive source.passed

end FramedTasks.Source
