import LiveTables.Engine.Connection

/-!
# Stores on disk

A store on disk is opened under its lock, which is held until the connection is closed. What was
committed is found again when the store is opened the next time.
-/

namespace LiveTables.Engine

open LiveTables.Files

/-- What a store file holds. A new or empty file holds an empty store. -/
def storeIn (host : Host) (file : Nat) (content : List UInt8) : Option Store :=
  if !content.isEmpty then none
  else some ((host.stores.lookup file).getD .empty)

/-- The identity and the contents of the store file at a path. -/
def openStore (host : Host) (path : String) : Option (Nat × Store × Host) := do
  match host.tree.touchOpen path with
  | .error _ => none
  | .ok tree =>
    let file ← tree.fileId? path
    let store ← storeIn host file (← tree.contentOf? file)
    some (file, store, { host with tree })

def makeParent (host : Host) (path : String) : Except EngineError Host :=
  match Path.parent? path with
  | none | some "" => .ok host
  | some parent => match host.tree.makeDirectories parent with
    | .ok tree => .ok { host with tree }
    | .error fault => .error (.noDirectory parent fault)

namespace Connection

/-- Open the store at a path for a holder of its lock. -/
def openFile (host : Host) (path : String) (holder : Lock.Holder) :
    Except EngineError Connection × Host :=
  match makeParent host path with
  | .error cause => (.error cause, host)
  | .ok host => match Lock.acquire host path holder with
    | (.error cause, host) => (.error (.notLocked cause), host)
    | (.ok lock, host) => match openStore host path with
      | none => (.error (.rejected (.unusableFile path)), Lock.release host lock)
      | some (file, store, host) => (.ok ⟨store, none, [], some ⟨lock, file⟩, .never⟩, host)

/-- Open the store at a path, or one in memory without a path. -/
def openAt (host : Host) (path : Option String) (holder : Lock.Holder) :
    Except EngineError Connection × Host :=
  match path with
  | some path => openFile host path holder
  | none => (.ok inMemory, host)

/-- Close a connection: the store file keeps what was committed, and the lock is free. -/
def close (host : Host) (conn : Connection) : Host :=
  match conn.file with
  | none => host
  | some place =>
    Lock.release { host with stores := (place.file, conn.committed) :: host.stores } place.lock

end Connection

end LiveTables.Engine
