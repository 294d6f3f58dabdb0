import LiveTables.Files.Fault
import LiveTables.Lock.Holder

/-!
# Why a lock cannot be taken
-/

namespace LiveTables.Lock

inductive Fault where
  | held (store : String) (holder : Option Holder)
  | unusable (lockPath : String) (fault : Files.Fault)
  deriving Repr

def Fault.message : Fault → String
  | held store (some holder) => store ++ " is in use by " ++ holder.render
  | held store none => store ++ " is in use"
  | unusable lockPath fault => "Cannot lock " ++ lockPath ++ ": " ++ fault.message

end LiveTables.Lock
