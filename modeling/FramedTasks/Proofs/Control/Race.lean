import Mathlib.Data.List.Basic
import FramedTasks.Control.Race

/-! # Who sets the shutdown flag

Whatever the order of moves, `Stands` says where the listener is: before or in a poll with no deciding
outcome behind it, or ended for a reason that the last outcome or the calls of the others bear out.
Every move keeps it (`Coherent.move`), and so the exit of the listener, the flag and the answers to
the calls fit together after any number of moves (`exit_fits_calls`). A flag that is set lets the poll
in progress end and no other one begin (`windsDown_play`). A listener that runs on given outcomes,
with the flag set during some of its polls, makes the moves of one such race (`exists_turns_of_run`).
-/

namespace FramedTasks

/-- Whether a listener ends upon the outcome of a poll. -/
def Poll.decides (sentinel : String) : Poll → Bool
  | .token text => Listener.isSentinel sentinel text
  | .idle => false
  | .closed | .fault _ | .panic _ => true

/-- The exit of a listener whose source ends or breaks with the outcome of a poll. -/
def Poll.exit? : Poll → Option ListenerExit
  | .token _ | .idle => none
  | .closed => some .sourceClosed
  | .fault _ => some .sourceFailed
  | .panic text => some (.panicked text)

/-- A poll leaves the listener going on, brings the sentinel, or ends the source. -/
theorem Poll.decides_cases (sentinel : String) (poll : Poll) :
    poll.decides sentinel = false ∨ poll.brings sentinel = true ∨ ∃ exit, poll.exit? = some exit := by
  cases poll with
  | token text => exact (Bool.eq_false_or_eq_true _).symm.imp_right .inl
  | idle => exact .inl rfl
  | closed | fault _ | panic _ => exact .inr (.inr ⟨_, rfl⟩)

theorem Poll.brings_eq_false_of_undecided {sentinel : String} {poll : Poll}
    (goesOn : poll.decides sentinel = false) : poll.brings sentinel = false := by
  cases poll <;> first | exact goesOn | rfl

theorem Poll.brings_eq_false_of_exit {sentinel : String} {poll : Poll} {exit : ListenerExit}
    (ends : poll.exit? = some exit) : poll.brings sentinel = false := by
  cases poll <;> first | rfl | contradiction

theorem Poll.ne_of_exit? {poll : Poll} {exit : ListenerExit} (ends : poll.exit? = some exit) :
    exit ≠ .sentinel ∧ exit ≠ .flagSet := by
  cases poll with
  | token _ | idle => contradiction
  | closed | fault _ | panic _ =>
    obtain rfl := Option.some.inj ends
    exact ⟨ListenerExit.noConfusion, ListenerExit.noConfusion⟩

theorem Poll.eq_closed_of_exit? {poll : Poll} (ends : poll.exit? = some .sourceClosed) :
    poll = .closed := by
  cases poll <;> simp [exit?] at ends ⊢

theorem Poll.eq_fault_of_exit? {poll : Poll} (ends : poll.exit? = some .sourceFailed) :
    ∃ fault, poll = .fault fault := by
  cases poll <;> simp [exit?] at ends ⊢

theorem Poll.eq_token_of_brings {sentinel : String} {poll : Poll} (brings : poll.brings sentinel = true) :
    ∃ text, poll = .token text ∧ trimChars text.toList = trimChars sentinel.toList := by
  cases poll with
  | token text => exact ⟨text, rfl, beq_iff_eq.mp brings⟩
  | idle | closed | fault _ | panic _ => contradiction

namespace Listener

variable {sentinel : String} {poll : Poll}

theorem hear_of_undecided (goesOn : poll.decides sentinel = false) (flag : Flag) :
    hear sentinel poll flag .polling = (.checking, flag) := by
  cases poll with
  | token text => rw [hear, if_neg (by simpa [Poll.decides] using goesOn)]
  | idle => rfl
  | closed | fault _ | panic _ => contradiction

theorem hear_of_brings (brings : poll.brings sentinel = true) (flag : Flag) :
    hear sentinel poll flag .polling =
      (.ended (if flag.isSet then .flagSet else .sentinel), ⟨true⟩) := by
  cases poll with
  | token text =>
    have matching : isSentinel sentinel text = true := brings
    rw [hear, if_pos matching, Flag.trigger]
    cases flag.isSet <;> rfl
  | idle | closed | fault _ | panic _ => contradiction

theorem hear_of_exit {exit : ListenerExit} (ends : poll.exit? = some exit) (flag : Flag) :
    hear sentinel poll flag .polling = (.ended exit, flag) := by
  cases poll with
  | token _ | idle => contradiction
  | closed | fault _ | panic _ =>
    obtain rfl := Option.some.inj ends
    rfl

/-- No outcome leaves the listener in its poll. -/
theorem hear_ne_polling (sentinel : String) (poll : Poll) (flag : Flag) :
    (hear sentinel poll flag .polling).1 ≠ .polling := by
  rcases poll.decides_cases sentinel with goesOn | brings | ⟨exit, ends⟩
  · rw [hear_of_undecided goesOn]
    exact Listener.noConfusion
  · rw [hear_of_brings brings]
    exact Listener.noConfusion
  · rw [hear_of_exit ends]
    exact Listener.noConfusion

end Listener

namespace Race

variable {sentinel : String} {source : Nat → Poll} {race : Race}

@[simp]
theorem play_nil (race : Race) : race.play sentinel source [] = race := rfl

@[simp]
theorem play_cons (race : Race) (party : Party) (turns : List Party) :
    race.play sentinel source (party :: turns) =
      (race.move sentinel source party).play sentinel source turns := rfl

theorem play_append (race : Race) (turns more : List Party) :
    race.play sentinel source (turns ++ more) =
      (race.play sentinel source turns).play sentinel source more := List.foldl_append

/-! ## The moves of the listener -/

section Advance

variable {poll : Poll}

theorem advance_of_checking (checks : race.listener = .checking) :
    race.advance sentinel source =
      { race with listener := if race.flag.isSet then .ended .flagSet else .polling } := by
  rw [advance, checks]
  rfl

theorem advance_of_polling (polls : race.listener = .polling) (none : race.outcome = none) :
    race.advance sentinel source =
      { race with outcome := some (source race.polled), polled := race.polled + 1 } := by
  simp only [advance, polls, none]

variable (polls : race.listener = .polling) (hears : race.outcome = some poll)
include polls hears

theorem advance_of_undecided (goesOn : poll.decides sentinel = false) :
    race.advance sentinel source = { race with listener := .checking, outcome := none } := by
  simp [advance, polls, hears, Listener.hear_of_undecided goesOn,
    Poll.brings_eq_false_of_undecided goesOn]

theorem advance_of_brings (brings : poll.brings sentinel = true) :
    race.advance sentinel source =
      { race.trigger .listener with
        listener := .ended (if race.flag.isSet then .flagSet else .sentinel), outcome := none } := by
  simp [advance, polls, hears, Listener.hear_of_brings brings, brings, trigger, Flag.trigger]

theorem advance_of_exit {exit : ListenerExit} (ends : poll.exit? = some exit) :
    race.advance sentinel source = { race with listener := .ended exit, outcome := none } := by
  simp [advance, polls, hears, Listener.hear_of_exit ends, Poll.brings_eq_false_of_exit ends]

end Advance

theorem advance_of_ended {exit : ListenerExit} (ended : race.listener = .ended exit) :
    race.advance sentinel source = race := by
  obtain ⟨listener, outcome, polled, flag, calls⟩ := race
  obtain rfl : listener = .ended exit := ended
  rfl

/-! ## The flag and the calls -/

/-- The first call is told that it set the flag, the later ones that it was set before; the flag is set
exactly if there was a call. -/
structure Answered (race : Race) : Prop where
  first : ∀ call, race.calls.head? = some call → call.first = true
  later : ∀ call ∈ race.calls.tail, call.first = false
  isSet_iff : race.flag.isSet = true ↔ race.calls ≠ []

theorem Answered.trigger (answered : race.Answered) (party : Party) :
    (race.trigger party).Answered := by
  obtain ⟨first, later, isSet_iff⟩ := answered
  rw [Race.trigger, Flag.trigger]
  cases calls : race.calls with
  | nil =>
    have clear : race.flag.isSet = false := by simpa [calls] using isSet_iff
    exact ⟨by simp [clear], by simp, by simp⟩
  | cons oldest others =>
    have set : race.flag.isSet = true := isSet_iff.mpr (by simp [calls])
    refine ⟨?_, ?_, by simp⟩
    · rintro call ⟨⟩
      exact first oldest (by rw [calls]; rfl)
    · rintro call member
      rcases List.mem_append.mp member with member | member
      · exact later call (by rw [calls]; exact member)
      · rw [List.mem_singleton.mp member, set]
        rfl

/-! ## Where the listener stands -/

/-- The polls so far left the listener going on. -/
def Undecided (sentinel : String) (source : Nat → Poll) (polled : Nat) : Prop :=
  ∀ index < polled, (source index).decides sentinel = false

/-- None of the calls is the listener's. -/
def OfOthers (calls : List TriggerCall) : Prop := ∀ call ∈ calls, call.party ≠ .listener

theorem OfOthers.append {calls more : List TriggerCall} (others : OfOthers calls)
    (also : OfOthers more) : OfOthers (calls ++ more) := fun call member =>
  (List.mem_append.mp member).elim (others call) (also call)

theorem ofOthers_singleton (clone : Nat) (first : Bool) : OfOthers [⟨.other clone, first⟩] := by
  intro call member
  rw [List.mem_singleton.mp member]
  exact Party.noConfusion

/-- Where a listener stands: what is behind it of its source, and which calls are its own. -/
inductive Stands (sentinel : String) (source : Nat → Poll) :
    Listener → Option Poll → Nat → List TriggerCall → Prop
  /-- Between two polls. -/
  | checking {polled : Nat} {calls : List TriggerCall} :
      Undecided sentinel source polled → OfOthers calls →
      Stands sentinel source .checking none polled calls
  /-- In a poll. -/
  | polling {polled : Nat} {calls : List TriggerCall} :
      Undecided sentinel source polled → OfOthers calls →
      Stands sentinel source .polling none polled calls
  /-- With an outcome in hand. -/
  | hearing {polled : Nat} {calls : List TriggerCall} :
      Undecided sentinel source polled → OfOthers calls →
      Stands sentinel source .polling (some (source polled)) (polled + 1) calls
  /-- Ended, having found the flag set between two polls. -/
  | found {polled : Nat} {calls : List TriggerCall} :
      Undecided sentinel source polled → OfOthers calls → calls ≠ [] →
      Stands sentinel source (.ended .flagSet) none polled calls
  /-- Ended by the sentinel, having set the flag before all others. -/
  | first {polled : Nat} {later : List TriggerCall} :
      Undecided sentinel source polled → (source polled).brings sentinel = true → OfOthers later →
      Stands sentinel source (.ended .sentinel) none (polled + 1) (⟨.listener, true⟩ :: later)
  /-- Ended by the sentinel, after someone else had set the flag. -/
  | late {polled : Nat} {earlier later : List TriggerCall} :
      Undecided sentinel source polled → (source polled).brings sentinel = true → earlier ≠ [] →
      OfOthers earlier → OfOthers later →
      Stands sentinel source (.ended .flagSet) none (polled + 1)
        (earlier ++ ⟨.listener, false⟩ :: later)
  /-- Ended with its source. -/
  | stopped {polled : Nat} {exit : ListenerExit} {calls : List TriggerCall} :
      Undecided sentinel source polled → (source polled).exit? = some exit → OfOthers calls →
      Stands sentinel source (.ended exit) none (polled + 1) calls

variable {polled : Nat} {listener : Listener} {outcome : Option Poll} {calls : List TriggerCall}

theorem Undecided.succ (undecided : Undecided sentinel source polled)
    (goesOn : (source polled).decides sentinel = false) :
    Undecided sentinel source (polled + 1) := by
  intro index below
  rcases Nat.lt_succ_iff_lt_or_eq.mp below with earlier | rfl
  · exact undecided index earlier
  · exact goesOn

/-- A call of someone else changes nothing for the listener until it looks. -/
theorem Stands.other (stands : Stands sentinel source listener outcome polled calls) (clone : Nat)
    (first : Bool) :
    Stands sentinel source listener outcome polled (calls ++ [⟨.other clone, first⟩]) := by
  have alien := ofOthers_singleton clone first
  cases stands with
  | checking undecided others => exact .checking undecided (others.append alien)
  | polling undecided others => exact .polling undecided (others.append alien)
  | hearing undecided others => exact .hearing undecided (others.append alien)
  | found undecided others _ => exact .found undecided (others.append alien) (by simp)
  | first undecided brings others => exact .first undecided brings (others.append alien)
  | late undecided brings called before behind =>
    rw [List.append_assoc, List.cons_append]
    exact .late undecided brings called before (behind.append alien)
  | stopped undecided ends others => exact .stopped undecided ends (others.append alien)

/-- The listener stands where its source and the calls have brought it. -/
structure Coherent (sentinel : String) (source : Nat → Poll) (race : Race) : Prop where
  answered : race.Answered
  stands : Stands sentinel source race.listener race.outcome race.polled race.calls

theorem coherent_start : Coherent sentinel source {} where
  answered := ⟨by simp, by simp, by simp⟩
  stands := .checking (fun _ below => absurd below (Nat.not_lt_zero _)) (by simp [OfOthers])

/-- What a race knows of its flag and of the calls does not depend on the listener. -/
theorem Answered.congr {other : Race} (answered : race.Answered) (flag : other.flag = race.flag)
    (calls : other.calls = race.calls) : other.Answered := by
  obtain ⟨first, later, isSet_iff⟩ := answered
  exact ⟨by rwa [calls], by rwa [calls], by rwa [flag, calls]⟩

theorem Coherent.advance (coherent : Coherent sentinel source race) :
    Coherent sentinel source (race.advance sentinel source) := by
  obtain ⟨listener, outcome, polled, flag, calls⟩ := race
  obtain ⟨answered, stands⟩ := coherent
  cases stands with
  | checking undecided others =>
    rw [advance_of_checking rfl]
    refine ⟨answered.congr rfl rfl, ?_⟩
    cases set : flag.isSet with
    | true => exact .found undecided others (answered.isSet_iff.mp set)
    | false => exact .polling undecided others
  | polling undecided others =>
    rw [advance_of_polling rfl rfl]
    exact ⟨answered.congr rfl rfl, .hearing undecided others⟩
  | @hearing polled _ undecided others =>
    rcases (source polled).decides_cases sentinel with goesOn | brings | ⟨exit, ends⟩
    · rw [advance_of_undecided rfl rfl goesOn]
      exact ⟨answered.congr rfl rfl, .checking (undecided.succ goesOn) others⟩
    · rw [advance_of_brings rfl rfl brings]
      refine ⟨(answered.trigger .listener).congr rfl rfl, ?_⟩
      cases set : flag.isSet with
      | true =>
        have called := answered.isSet_iff.mp set
        simpa [Race.trigger, Flag.trigger, set] using
          Stands.late undecided brings called others (by simp [OfOthers])
      | false =>
        obtain rfl : calls = [] := Decidable.of_not_not fun called =>
          absurd (answered.isSet_iff.mpr called) (by simp [set])
        simpa [Race.trigger, Flag.trigger, set] using
          Stands.first undecided brings (by simp [OfOthers])
    · rw [advance_of_exit rfl rfl ends]
      exact ⟨answered.congr rfl rfl, .stopped undecided ends others⟩
  | found undecided others called => exact ⟨answered, .found undecided others called⟩
  | first undecided brings others => exact ⟨answered, .first undecided brings others⟩
  | late undecided brings called before behind =>
    exact ⟨answered, .late undecided brings called before behind⟩
  | stopped undecided ends others => exact ⟨answered, .stopped undecided ends others⟩

/-- Every move of every party leaves the listener where it says it stands. -/
theorem Coherent.move (coherent : Coherent sentinel source race) (party : Party) :
    Coherent sentinel source (race.move sentinel source party) := by
  cases party with
  | listener => exact coherent.advance
  | other clone => exact ⟨coherent.answered.trigger _, coherent.stands.other clone _⟩

theorem Coherent.play (coherent : Coherent sentinel source race) (turns : List Party) :
    Coherent sentinel source (race.play sentinel source turns) := by
  induction turns generalizing race with
  | nil => exact coherent
  | cons party turns ih => exact ih (coherent.move party)

/-! ## Once the flag is set -/

def pending (race : Race) : Nat :=
  if race.listener = .polling ∧ race.outcome = none then 1 else 0

/-- From one race to a later one the flag stays set and no poll begins: the one in progress may come
to an end. -/
structure WindsDown (race later : Race) : Prop where
  isSet : later.flag.isSet = true
  polled_le : later.polled + later.pending ≤ race.polled + race.pending
  apart : race.listener ≠ .polling → later.listener ≠ .polling

theorem windsDown_move (set : race.flag.isSet = true) (party : Party) :
    WindsDown race (race.move sentinel source party) := by
  cases party with
  | other clone => exact ⟨rfl, Nat.le_refl _, id⟩
  | listener =>
    change WindsDown race (race.advance sentinel source)
    cases stands : race.listener with
    | checking =>
      rw [advance_of_checking stands, set]
      exact ⟨set, by simp [pending], by simp⟩
    | polling =>
      have polling : ¬ race.listener ≠ .polling := not_not_intro stands
      cases hears : race.outcome with
      | none =>
        rw [advance_of_polling stands hears]
        exact ⟨set, by simp [pending, stands, hears], fun apart => absurd apart polling⟩
      | some poll =>
        rcases poll.decides_cases sentinel with goesOn | brings | ⟨exit, ends⟩
        · rw [advance_of_undecided stands hears goesOn]
          exact ⟨set, by simp [pending], fun apart => absurd apart polling⟩
        · rw [advance_of_brings stands hears brings]
          exact ⟨rfl, by simp [pending, trigger], fun apart => absurd apart polling⟩
        · rw [advance_of_exit stands hears ends]
          exact ⟨set, by simp [pending], fun apart => absurd apart polling⟩
    | ended exit =>
      rw [advance_of_ended stands]
      exact ⟨set, Nat.le_refl _, id⟩

theorem windsDown_play (set : race.flag.isSet = true) (turns : List Party) :
    WindsDown race (race.play sentinel source turns) := by
  induction turns generalizing race with
  | nil => exact ⟨set, Nat.le_refl _, id⟩
  | cons party turns ih =>
    have step := @windsDown_move sentinel source race set party
    have rest := ih step.isSet
    exact ⟨rest.isSet, Nat.le_trans rest.polled_le step.polled_le,
      fun before => rest.apart (step.apart before)⟩

/-! ## Whole races -/

theorem Undecided.of_decides {index : Nat} (undecided : Undecided sentinel source polled)
    (below : index < polled + 1) (decides : (source index).decides sentinel = true) :
    index = polled := by
  rcases Nat.lt_succ_iff_lt_or_eq.mp below with earlier | same
  · exact absurd ((undecided index earlier).symm.trans decides) (by simp)
  · exact same

theorem Coherent.decides_last (coherent : Coherent sentinel source race) {index : Nat}
    (below : index < race.polled) (decides : (source index).decides sentinel = true) :
    index + 1 = race.polled := by
  obtain ⟨listener, outcome, polled, flag, calls⟩ := race
  obtain ⟨-, stands⟩ := coherent
  cases stands with
  | checking undecided _ | polling undecided _ | found undecided _ _ =>
    exact absurd ((undecided index below).symm.trans decides) (by simp)
  | hearing undecided _ | first undecided _ _ | late undecided _ _ _ _ | stopped undecided _ _ =>
    rw [undecided.of_decides below decides]

/-- Among calls of others the first one is a call on another clone. -/
theorem OfOthers.head?_eq {call : TriggerCall} (others : OfOthers calls)
    (oldest : calls.head? = some call) : ∃ clone, call.party = .other clone := by
  have alien := others call (List.mem_of_head? oldest)
  cases party : call.party with
  | listener => contradiction
  | other clone => exact ⟨clone, rfl⟩

/-- A listener ends by the sentinel exactly if it was the first to set the flag. -/
theorem Stands.ended_sentinel_iff (stands : Stands sentinel source listener outcome polled calls) :
    listener = .ended .sentinel ↔ calls.head? = some ⟨.listener, true⟩ := by
  have apart {calls : List TriggerCall} (others : OfOthers calls) :
      calls.head? ≠ some ⟨.listener, true⟩ := fun oldest =>
    others _ (List.mem_of_head? oldest) rfl
  cases stands with
  | checking _ others | polling _ others | hearing _ others | found _ others _ =>
    simp [apart others]
  | first => simp
  | late _ _ called before _ =>
    rw [List.head?_append_of_ne_nil _ called]
    simp [apart before]
  | stopped _ ends others => simp [apart others, (Poll.ne_of_exit? ends).1]

/-- The listener sets the flag only upon the sentinel, and ends. -/
theorem Stands.of_own_call (stands : Stands sentinel source listener outcome polled calls)
    {call : TriggerCall} (member : call ∈ calls) (own : call.party = .listener) :
    ∃ before, polled = before + 1 ∧ (source before).brings sentinel = true ∧
      listener = .ended (if call.first then .sentinel else .flagSet) := by
  cases stands with
  | checking _ others | polling _ others | hearing _ others | found _ others _ | stopped _ _ others =>
    exact absurd own (others call member)
  | first _ brings others =>
    rcases List.mem_cons.mp member with rfl | member
    · exact ⟨_, rfl, brings, rfl⟩
    · exact absurd own (others call member)
  | late _ brings _ before behind =>
    rcases List.mem_append.mp member with member | member
    · exact absurd own (before call member)
    · rcases List.mem_cons.mp member with rfl | member
      · exact ⟨_, rfl, brings, rfl⟩
      · exact absurd own (behind call member)

/-- A listener that ends because the flag is set was not the first to set it. -/
theorem Stands.ended_flagSet (stands : Stands sentinel source (.ended .flagSet) outcome polled calls) :
    ∃ call clone, calls.head? = some call ∧ call.party = .other clone := by
  have alien {calls : List TriggerCall} (called : calls ≠ []) (others : OfOthers calls) :
      ∃ call clone, calls.head? = some call ∧ call.party = .other clone := by
    obtain ⟨call, oldest⟩ := Option.ne_none_iff_exists'.mp (mt List.head?_eq_none_iff.mp called)
    obtain ⟨clone, party⟩ := others.head?_eq oldest
    exact ⟨call, clone, oldest, party⟩
  cases stands with
  | found _ others called => exact alien called others
  | late _ _ called before _ =>
    rw [List.head?_append_of_ne_nil _ called]
    exact alien called before
  | stopped _ ends _ => exact absurd rfl (Poll.ne_of_exit? ends).2

/-- A listener that ends for another reason has just had the outcome that is the reason. -/
theorem Stands.ended_source {exit : ListenerExit}
    (stands : Stands sentinel source (.ended exit) outcome polled calls)
    (other : exit ≠ .sentinel ∧ exit ≠ .flagSet) :
    ∃ before, polled = before + 1 ∧ (source before).exit? = some exit := by
  cases stands with
  | found => exact absurd rfl other.2
  | first => exact absurd rfl other.1
  | late => exact absurd rfl other.2
  | stopped _ ends _ => exact ⟨_, rfl, ends⟩

/-- How a listener ends, by the calls so far and the outcomes of its polls. -/
structure Ends (sentinel : String) (source : Nat → Poll) (race : Race) : Prop where
  sentinel_iff : race.listener = .ended .sentinel ↔ race.calls.head? = some ⟨.listener, true⟩
  other : ∀ exit, race.listener = .ended exit → exit ≠ .sentinel → ⟨.listener, true⟩ ∉ race.calls
  flagSet : race.listener = .ended .flagSet → ∃ clone, race.calls.head? = some ⟨.other clone, true⟩
  sourceClosed : race.listener = .ended .sourceClosed →
    ∃ before, race.polled = before + 1 ∧ source before = .closed
  sourceFailed : race.listener = .ended .sourceFailed →
    ∃ before fault, race.polled = before + 1 ∧ source before = .fault fault
  /-- The poll that decides is the last one. -/
  last : ∀ index < race.polled, (source index).decides sentinel = true → index + 1 = race.polled

/-- When a listener makes a call of its own: only upon the sentinel, and then, with the flag clear,
as its next move. -/
structure OwnCalls (sentinel : String) (source : Nat → Poll) (race : Race) : Prop where
  upon : ∀ call ∈ race.calls, call.party = .listener → ∃ before text, race.polled = before + 1 ∧
    source before = .token text ∧ trimChars text.toList = trimChars sentinel.toList
  next : ∀ text, race.outcome = some (.token text) →
    trimChars text.toList = trimChars sentinel.toList → race.flag.isSet = false →
    let next := race.move sentinel source .listener
    next.listener = .ended .sentinel ∧ next.flag.isSet = true ∧
      next.calls = race.calls ++ [⟨.listener, true⟩]

/-- From one race to a later one the flag stays set, and no poll comes to an end but the one in
progress. -/
structure StaysSet (race later : Race) : Prop where
  isSet : later.flag.isSet = true
  polled_le : later.polled ≤ race.polled + race.pending
  apart : race.listener ≠ .polling → later.listener ≠ .polling ∧ later.polled ≤ race.polled

theorem Coherent.ends (coherent : Coherent sentinel source race) : Ends sentinel source race where
  sentinel_iff := coherent.stands.ended_sentinel_iff
  other exit ended other member := by
    obtain ⟨before, -, -, same⟩ := coherent.stands.of_own_call member rfl
    exact other (Listener.ended.inj (ended.symm.trans same))
  flagSet ended := by
    have stands := coherent.stands
    rw [ended] at stands
    obtain ⟨call, clone, oldest, party⟩ := stands.ended_flagSet
    have first := coherent.answered.first call oldest
    obtain ⟨_, _⟩ := call
    subst party first
    exact ⟨clone, oldest⟩
  sourceClosed ended := by
    have stands := coherent.stands
    rw [ended] at stands
    obtain ⟨before, polled, ends⟩ :=
      stands.ended_source ⟨ListenerExit.noConfusion, ListenerExit.noConfusion⟩
    exact ⟨before, polled, Poll.eq_closed_of_exit? ends⟩
  sourceFailed ended := by
    have stands := coherent.stands
    rw [ended] at stands
    obtain ⟨before, polled, ends⟩ :=
      stands.ended_source ⟨ListenerExit.noConfusion, ListenerExit.noConfusion⟩
    obtain ⟨fault, same⟩ := Poll.eq_fault_of_exit? ends
    exact ⟨before, fault, polled, same⟩
  last index below decides := coherent.decides_last below decides

/-- Only a listener in its poll has an outcome in hand. -/
theorem Stands.polling_of_outcome {poll : Poll}
    (stands : Stands sentinel source listener (some poll) polled calls) : listener = .polling := by
  cases stands
  rfl

theorem Coherent.ownCalls (coherent : Coherent sentinel source race) :
    OwnCalls sentinel source race where
  upon call member mine := by
    obtain ⟨before, polled, brings, -⟩ := coherent.stands.of_own_call member mine
    obtain ⟨text, token, same⟩ := Poll.eq_token_of_brings brings
    exact ⟨before, text, polled, token, same⟩
  next text hears same clear := by
    have stands := coherent.stands
    rw [hears] at stands
    have brings : (Poll.token text).brings sentinel = true := beq_iff_eq.mpr same
    rw [Race.move, advance_of_brings stands.polling_of_outcome hears brings]
    simp [trigger, Flag.trigger, clear]

theorem staysSet_play (set : race.flag.isSet = true) (more : List Party) :
    StaysSet race (race.play sentinel source more) := by
  have winds := @windsDown_play sentinel source race set more
  have fewer := winds.polled_le
  refine ⟨winds.isSet, by omega, fun apart => ⟨winds.apart apart, ?_⟩⟩
  have none : race.pending = 0 := if_neg fun polling => apart polling.1
  omega

/-- However the moves of a listener and the calls on other clones of its flag fall, one call alone
sets the flag, the oldest, and the flag stays set. The listener ends by the sentinel exactly if that
call is its own, which it makes upon the sentinel only; any other exit leaves the flag to others, and
has its reason in a call of theirs or in the last outcome. With the flag set only the poll in progress
comes to an end, and after an outcome that decides none does. -/
theorem exit_fits_calls (sentinel : String) (source : Nat → Poll) (turns : List Party) :
    let race := play sentinel source {} turns
    race.Answered ∧ Ends sentinel source race ∧ OwnCalls sentinel source race ∧
      ∀ more, race.flag.isSet = true → StaysSet race (play sentinel source {} (turns ++ more)) := by
  intro race
  have coherent : Coherent sentinel source race := coherent_start.play turns
  refine ⟨coherent.answered, coherent.ends, coherent.ownCalls, fun more set => ?_⟩
  rw [play_append]
  exact staysSet_play set more

/-- The sentinel is polled, and before the listener takes it in someone else sets the flag. -/
theorem exit_fits_calls_late :
    let source := fun index => if index = 1 then Poll.token " quit\n" else .idle
    let race := play "quit" source {} (List.replicate 5 .listener ++ [.other 7, .listener])
    race.listener = .ended .flagSet ∧ race.polled = 2 ∧
      ∃ clone, race.calls.head? = some ⟨.other clone, true⟩ := by
  intro source race
  have ended : race.listener = .ended .flagSet := by decide
  obtain ⟨-, ends, -⟩ :=
    exit_fits_calls "quit" source (List.replicate 5 .listener ++ [.other 7, .listener])
  exact ⟨ended, by decide, ends.flagSet ended⟩

/-! ## Listeners that run by themselves -/

/-- Taking an outcome in is what the listener does by itself. -/
theorem advance_eq_hear {poll : Poll} (polls : race.listener = .polling)
    (hears : race.outcome = some poll) :
    let next := race.advance sentinel source
    (next.listener, next.flag) = Listener.hear sentinel poll race.flag .polling ∧
      next.outcome = none ∧ next.polled = race.polled := by
  rcases poll.decides_cases sentinel with goesOn | brings | ⟨exit, ends⟩
  · rw [advance_of_undecided polls hears goesOn, Listener.hear_of_undecided goesOn]
    exact ⟨rfl, rfl, rfl⟩
  · rw [advance_of_brings polls hears brings, Listener.hear_of_brings brings]
    exact ⟨rfl, rfl, rfl⟩
  · rw [advance_of_exit polls hears ends, Listener.hear_of_exit ends]
    exact ⟨rfl, rfl, rfl⟩

/-- The moves of one round, with a call on another clone during the poll or without. -/
theorem exists_turns_of_round (event : Listener.Event) (checks : race.listener = .checking)
    (empty : race.outcome = none) (clear : race.flag.isSet = false)
    (supplies : source race.polled = event.poll) :
    ∃ turns, let next := race.play sentinel source turns
      (next.listener, next.flag) = Listener.hear sentinel event.poll
          (if event.triggers then race.flag.trigger.2 else race.flag) .polling ∧
        next.outcome = none ∧ next.polled = race.polled + 1 := by
  have begun : race.move sentinel source .listener = { race with listener := .polling } := by
    rw [move, advance_of_checking checks, clear]
    rfl
  -- whatever happens during the poll, the listener then has the outcome and takes it in
  have ends {during : Race} (polls : during.listener = .polling) (none : during.outcome = none)
      (same : during.polled = race.polled) :
      let next := during.play sentinel source [.listener, .listener]
      (next.listener, next.flag) = Listener.hear sentinel event.poll during.flag .polling ∧
        next.outcome = .none ∧ next.polled = race.polled + 1 := by
    rw [play_cons, play_cons, play_nil, move, move, advance_of_polling polls none, same, supplies]
    exact advance_eq_hear polls rfl
  cases triggers : event.triggers with
  | true =>
    refine ⟨[.listener, .other 0, .listener, .listener], ?_⟩
    rw [play_cons, begun]
    exact ends rfl empty rfl
  | false =>
    refine ⟨[.listener, .listener, .listener], ?_⟩
    rw [play_cons, begun]
    exact ends rfl empty rfl

/-- A listener that runs on some outcomes, with the flag set during some of the polls, makes the moves
of a race. -/
theorem exists_turns_of_run {events rest : List Listener.Event} {flag : Flag}
    (checks : race.listener = .checking) (empty : race.outcome = none)
    (supplies : ∀ index event, events[index]? = some event →
      source (race.polled + index) = event.poll)
    (runs : Listener.run sentinel race.flag .checking events = (listener, flag, rest)) :
    ∃ turns, let last := race.play sentinel source turns
      last.listener = listener ∧ last.flag = flag ∧
        last.polled + rest.length = race.polled + events.length := by
  induction events generalizing race with
  | nil =>
    obtain ⟨rfl, same⟩ := Prod.mk.inj runs
    obtain ⟨rfl, rfl⟩ := Prod.mk.inj same
    refine ⟨[.listener], ?_⟩
    rw [play_cons, play_nil, move, advance_of_checking checks]
    exact ⟨rfl, rfl, rfl⟩
  | cons event events ih =>
    rw [Listener.run] at runs
    cases set : race.flag.isSet with
    | true =>
      rw [Listener.check, set] at runs
      obtain ⟨rfl, same⟩ := Prod.mk.inj runs
      obtain ⟨rfl, rfl⟩ := Prod.mk.inj same
      refine ⟨[.listener], ?_⟩
      rw [play_cons, play_nil, move, advance_of_checking checks, set]
      exact ⟨rfl, rfl, rfl⟩
    | false =>
      obtain ⟨turns, heard, none, polled⟩ :=
        @exists_turns_of_round sentinel source race event checks empty set (supplies 0 event rfl)
      have begun : Listener.check race.flag .checking = .polling := by rw [Listener.check, set]; rfl
      simp only [begun, ← heard] at runs
      cases stands : (race.play sentinel source turns).listener with
      | ended exit =>
        simp only [stands] at runs
        obtain ⟨rfl, same⟩ := Prod.mk.inj runs
        obtain ⟨rfl, rfl⟩ := Prod.mk.inj same
        refine ⟨turns, stands, rfl, ?_⟩
        rw [polled, List.length_cons]
        omega
      | polling => exact absurd (stands ▸ congrArg Prod.fst heard).symm (Listener.hear_ne_polling _ _ _)
      | checking =>
        simp only [stands] at runs
        obtain ⟨others, ended, left, count⟩ := ih stands none (fun index event held => by
          rw [polled, Nat.add_assoc, Nat.add_comm 1 index]
          exact supplies (index + 1) event held) runs
        refine ⟨turns ++ others, ?_⟩
        rw [play_append]
        refine ⟨ended, left, ?_⟩
        rw [count, polled, List.length_cons]
        omega

end Race

end FramedTasks
