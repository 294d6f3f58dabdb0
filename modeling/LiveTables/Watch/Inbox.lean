import LiveTables.Watch.Poller

/-!
# Inboxes

The changes that have been sent to a cache and wait there, and whether more can still be sent.
-/

namespace LiveTables.Watch

structure Inbox where
  queue : List Change
  connected : Bool
  deriving DecidableEq, Repr

namespace Inbox

def new : Inbox := ⟨[], true⟩

def send (inbox : Inbox) (changes : List Change) : Inbox :=
  { inbox with queue := inbox.queue ++ changes }

def disconnect (inbox : Inbox) : Inbox := { inbox with connected := false }

/-- What stays of an inbox once its changes have been taken out: nothing if no more can come. -/
def emptied? (inbox : Inbox) : Option Inbox :=
  if inbox.connected then some { inbox with queue := [] } else none

end Inbox

end LiveTables.Watch
