import LiveTables.Number.Binary

/-!
# Query summaries

The line under an answer: how many rows it has, how many tables were loaded, and how long it took.
-/

namespace LiveTables.Console

open LiveTables.Number

/-- Seconds and nanoseconds as one number of the 64-bit format, each part rounded before the sum
is. -/
def secondsOf (seconds nanos : Nat) : Binary :=
  let whole := (binary64.round false seconds 1).toFraction
  let part := (binary64.round false nanos 1000000000).toFraction
  binary64.round false (whole.1 * part.2 + part.1 * whole.2) (whole.2 * part.2)

def summary (rows refreshed seconds nanos : Nat) : String :=
  "Rows: " ++ toString rows ++ " | Tables reloaded: " ++ toString refreshed ++ " | Total time: " ++
    (secondsOf seconds nanos).fixedText 4 ++ "s"

end LiveTables.Console
