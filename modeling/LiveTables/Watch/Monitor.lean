import LiveTables.Failure
import LiveTables.Watch.Poller

/-!
# Monitors

A monitor is idle until it is started, then runs until it is stopped, and is never started again.
While it runs it polls its directory at an interval.
-/

namespace LiveTables.Watch

open LiveTables.Files

inductive MonitorState where
  | idle
  | running
  | stopped
  deriving DecidableEq, Repr

def MonitorState.name : MonitorState → String
  | idle => "Idle"
  | running => "Running"
  | stopped => "Stopped"

structure Monitor where
  poller : Poller
  state : MonitorState

namespace Monitor

def new (directory extension : String) : Monitor := ⟨.new directory extension, .idle⟩

/-- Start polling, with the times of the files as they are. Gives the files that are there. -/
def start (monitor : Monitor) (listing : Listing) : Except Failure (List Change) × Monitor :=
  if monitor.state != .idle then
    (.error (.state ("monitor already " ++ monitor.state.name)), monitor)
  else match monitor.poller.snapshot listing with
    | (.error fault, _) => (.error (.sourceUnavailable monitor.poller.directory fault), monitor)
    | (.ok changes, poller) => (.ok changes, ⟨poller, .running⟩)

def poll (monitor : Monitor) (listing : Listing) : List Change × Monitor :=
  if monitor.state == .running then
    let (_, changes, poller) := monitor.poller.poll listing
    (changes, { monitor with poller })
  else ([], monitor)

def stop (monitor : Monitor) : Monitor := { monitor with state := .stopped }

end Monitor

end LiveTables.Watch
