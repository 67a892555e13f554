import FramedTasks.Control.Poll

/-! # Control tokens from senders in the same process

Senders put tokens into an inbox, and polls take them out in the same order. When no sender is
left and the inbox is empty, it is closed.
-/

namespace FramedTasks

/-- The tokens that wait, oldest first, and the number of senders. -/
structure Inbox where
  tokens : List String := []
  senders : Nat := 1
deriving DecidableEq, Repr

namespace Inbox

def send (inbox : Inbox) (token : String) : Inbox :=
  { inbox with tokens := inbox.tokens ++ [token] }

def addSender (inbox : Inbox) : Inbox := { inbox with senders := inbox.senders + 1 }

def dropSender (inbox : Inbox) : Inbox := { inbox with senders := inbox.senders - 1 }

/-- Take out the oldest token. -/
def poll (inbox : Inbox) : Poll × Inbox :=
  match inbox.tokens with
  | token :: rest => (.token token, { inbox with tokens := rest })
  | [] => (if inbox.senders = 0 then .closed else .idle, inbox)

end Inbox

end FramedTasks
