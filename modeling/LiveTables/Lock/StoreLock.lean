import LiveTables.Host
import LiveTables.Lock.Fault

/-!
# Locks on stores

One party at a time holds the lock of a store. The lock is on a file beside the store, in which the
holder leaves its record; the record goes with the lock.
-/

namespace LiveTables.Lock

open LiveTables.Files LiveTables.Text

/-- The lock file of a store: the store's path with `.lock` behind the file name. -/
def lockPath (store : String) : String :=
  Path.withFileName store ((Path.fileName? store).getD "" ++ ".lock")

/-- A lock that is held: its file's path and identity. -/
structure StoreLock where
  path : String
  file : Nat
  deriving DecidableEq, Repr

/-- The holder that the lock file at a path names. -/
def holderAt? (tree : Tree) (path : String) : Option Holder :=
  match tree.read path with
  | .ok content => Holder.ofBytes? content
  | .error _ => none

/-- Take the lock of a store for a holder, if nobody has it. -/
def acquire (host : Host) (store : String) (holder : Holder) : Except Fault StoreLock × Host :=
  let path := lockPath store
  match host.tree.touchOpen path with
  | .error fault => (.error (.unusable path fault), host)
  | .ok tree => match tree.fileId? path with
    | none => (.error (.unusable path .notFound), host)
    | some file =>
      if host.locked.contains file then
        (.error (.held store (holderAt? tree path)), { host with tree })
      else
        (.ok ⟨path, file⟩,
          { host with
            tree := tree.overwrite file (encodeUtf8 holder.toJson)
            locked := file :: host.locked })

/-- Give a lock back: its file is emptied and free. -/
def release (host : Host) (lock : StoreLock) : Host :=
  { host with
    tree := host.tree.overwrite lock.file []
    locked := host.locked.filter (· != lock.file) }

namespace StoreLock

def diagnostic (lock : StoreLock) : String :=
  "StoreLock \x7b lock_path: " ++ shownText lock.path ++ " \x7d"

end StoreLock

end LiveTables.Lock
