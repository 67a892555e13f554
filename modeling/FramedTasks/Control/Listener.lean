import FramedTasks.Control.Flag
import FramedTasks.Control.Poll
import FramedTasks.Text.Blank

/-! # The shutdown listener

A listener looks at the shutdown flag, polls its control source, and starts over, until the
sentinel arrives, the flag is found set, or the source ends or fails. Tokens and the sentinel are
compared without the white space around them.
-/

namespace FramedTasks

/-- Why a listener ended. -/
inductive ListenerExit where
  /-- The sentinel arrived, and the listener set the flag. -/
  | sentinel
  /-- Someone else set the flag. -/
  | flagSet
  | sourceClosed
  | sourceFailed
  /-- The source broke down in the middle of a poll. -/
  | panicked (text : String)
deriving DecidableEq, Repr

/-- Where a listener stands in its round. -/
inductive Listener where
  /-- About to look at the flag. -/
  | checking
  /-- In the middle of a poll. -/
  | polling
  | ended (exit : ListenerExit)
deriving DecidableEq, Repr

namespace Listener

def defaultSentinel : String := "__quit__"

/-- Look at the flag, and start a poll if it is clear. -/
def check (flag : Flag) : Listener → Listener
  | .checking => if flag.isSet then .ended .flagSet else .polling
  | listener => listener

def isSentinel (sentinel token : String) : Bool :=
  trimChars token.toList == trimChars sentinel.toList

/-- Take in the outcome of a poll. The sentinel sets the flag; if someone else has set it in the
meantime, the listener ends as if it had found it set. -/
def hear (sentinel : String) (poll : Poll) (flag : Flag) : Listener → Listener × Flag
  | .polling =>
    match poll with
    | .token text =>
      if isSentinel sentinel text then
        let (first, flag) := flag.trigger
        (.ended (if first then .sentinel else .flagSet), flag)
      else (.checking, flag)
    | .idle => (.checking, flag)
    | .closed => (.ended .sourceClosed, flag)
    | .fault _ => (.ended .sourceFailed, flag)
    | .panic text => (.ended (.panicked text), flag)
  | listener => (listener, flag)

theorem goesOn_of_hear {sentinel : String} {poll : Poll} {flag flag' : Flag}
    (round : hear sentinel poll flag .polling = (.checking, flag')) : poll.goesOn = true := by
  cases poll <;> simp [hear, Poll.goesOn] at *

/-- The outcome of a poll, and whether someone else sets the flag before the poll returns. -/
structure Event where
  poll : Poll
  triggers : Bool := false
deriving DecidableEq, Repr

/-- Run a listener on the given poll outcomes, as far as it goes. -/
def run (sentinel : String) (flag : Flag) (listener : Listener) :
    List Event → Listener × Flag × List Event
  | [] => (listener.check flag, flag, [])
  | event :: rest =>
    match listener.check flag with
    | .ended exit => (.ended exit, flag, event :: rest)
    | listener =>
      let flag := if event.triggers then flag.trigger.2 else flag
      let (listener, flag) := listener.hear sentinel event.poll flag
      match listener with
      | .ended exit => (.ended exit, flag, rest)
      | listener => run sentinel flag listener rest

/-- Run a listener on a source with the given poll outcomes, after which it is closed: the exit,
the flag and the outcomes that were not polled. -/
def listen (sentinel : String) (flag : Flag) (events : List Event) :
    ListenerExit × Flag × List Event :=
  match run sentinel flag .checking events with
  | (.ended exit, flag, rest) => (exit, flag, rest)
  | (_, flag, rest) => (.sourceClosed, flag, rest)

/-- A control source: the outcomes of the polls that it answers at once, whether it goes on to wait
for more or is closed after them, and what the poll comes to that is left when the worker ends. -/
structure Supply where
  events : List Event := []
  staysOpen : Bool := false
  lastPoll : Poll := .idle
deriving DecidableEq, Repr

/-- A new listener on a source, as far as it gets by itself. -/
def start (sentinel : String) (flag : Flag) (supply : Supply) : Listener × Flag :=
  match run sentinel flag .checking supply.events with
  | (.ended exit, flag, _) => (.ended exit, flag)
  | (listener, flag, _) =>
    if supply.staysOpen then (listener, flag) else listener.hear sentinel .closed flag

/-- A listener that has taken in the outcome of its poll and looked at the flag. -/
def notice (sentinel : String) (poll : Poll) (flag : Flag) (listener : Listener) : Listener :=
  (listener.hear sentinel poll flag).1.check flag

end Listener

end FramedTasks
