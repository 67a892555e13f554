import FramedTasks.Control.Listener

/-! # Races for the shutdown flag

A listener shares its flag with holders of other clones, any of whom may set it between two moves of
the listener. The moves of the listener are to look at the flag, to have the outcome of its poll, and
to take the outcome in; whose turn it is decides between them and the calls on the clones.
-/

namespace FramedTasks

/-- Who makes a move. -/
inductive Party where
  | listener
  /-- The holder of another clone of the flag. -/
  | other (clone : Nat)
deriving DecidableEq, Repr

/-- A call that sets the flag, and whether it is told that it was the one that set it. -/
structure TriggerCall where
  party : Party
  first : Bool
deriving DecidableEq, Repr

def Poll.brings (sentinel : String) : Poll → Bool
  | .token text => Listener.isSentinel sentinel text
  | _ => false

/-- A listener among the holders of its flag. -/
structure Race where
  listener : Listener := .checking
  /-- The outcome of the last poll, until it is taken in. -/
  outcome : Option Poll := none
  /-- How many polls have come to an end. -/
  polled : Nat := 0
  flag : Flag := {}
  /-- The calls that set the flag, the oldest one first. -/
  calls : List TriggerCall := []
deriving DecidableEq, Repr

namespace Race

def trigger (party : Party) (race : Race) : Race :=
  let (first, flag) := race.flag.trigger
  { race with flag, calls := race.calls ++ [⟨party, first⟩] }

/-- The next move of the listener, on a source with the given outcomes. -/
def advance (sentinel : String) (source : Nat → Poll) (race : Race) : Race :=
  match race.listener, race.outcome with
  | .polling, none => { race with outcome := some (source race.polled), polled := race.polled + 1 }
  | .polling, some poll =>
    let (listener, flag) := race.listener.hear sentinel poll race.flag
    let called := if poll.brings sentinel then race.trigger .listener else race
    { called with listener, outcome := none, flag }
  | listener, _ => { race with listener := listener.check race.flag }

def move (sentinel : String) (source : Nat → Poll) (race : Race) : Party → Race
  | .listener => race.advance sentinel source
  | .other clone => race.trigger (.other clone)

/-- The moves of several parties one after another. -/
def play (sentinel : String) (source : Nat → Poll) (race : Race) (turns : List Party) : Race :=
  turns.foldl (move sentinel source) race

end Race

end FramedTasks
