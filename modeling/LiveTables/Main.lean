import LiveTables.Console.Program
import LiveTables.Logs
import LiveTables.Time.Calendar
import Std.Time.DateTime.Timestamp

/-!
# The command line

The layer between the program and the machine that it runs on. It copies the files that the program
looks at into a tree before every command, asks for the answer to the command, and prints it. All
decisions are made on the tree; here are only the reading, the clock, the locking and the printing.
A store on disk is locked while the program runs; its tables are made anew from the files at every
start.
-/

namespace LiveTables.CommandLine

open LiveTables.Console LiveTables.Files LiveTables.Time

/-- Nanoseconds since the first of January 1970. -/
def clock : IO Int := do return (← Std.Time.Timestamp.now).toNanosecondsSinceUnixEpoch.val

/-- Copy what stands at a path, with what follows links, into a tree. What cannot be read is left
out. -/
def copyFile (tree : Tree) (path : String) : IO Tree := do
  try
    let content ← IO.FS.readBinFile path
    let modified := (← (← IO.FS.realPath path).metadata).modified
    let tree := match Path.parent? path with
      | some parent => (tree.makeDirectories parent).toOption.getD tree
      | none => tree
    let time := modified.sec * 1000000000 + (modified.nsec.toNat : Int)
    return (tree.put path content.toList (some time)).toOption.getD tree
  catch _ => return tree

/-- Copy a directory and the files in it that have the watched extension. -/
def copyDirectory (tree : Tree) (settings : Settings) : IO Tree := do
  try
    let entries ← (← IO.FS.realPath settings.directory).readDir
    let names := entries.toList.map (·.fileName)
    let watched := names.filter (Watch.hasExtension settings.normalExtension)
    let tree := (tree.makeDirectories settings.directory).toOption.getD tree
    watched.foldlM (fun tree name => copyFile tree (Path.join settings.directory name)) tree
  catch _ => return tree

/-- The text that names a moment, to the second. -/
def momentOf (nanos : Int) : String :=
  let seconds := nanos.fdiv 1000000000
  (Date.ofDays (seconds.fdiv secondsPerDay)).render ++ "T" ++
    clockText (seconds.fmod secondsPerDay).toNat ++ "+00:00"

def thisHolder : IO Lock.Holder := do
  let status ← try IO.FS.readFile "/proc/self/stat" catch _ => pure ""
  let process := (status.takeWhile Char.isDigit).toNat?.getD 0
  return ⟨process, momentOf (← clock)⟩

/-- Take the lock on the file at a path, if nobody has it. The file is made when it is missing. -/
def tryLock (path : String) : IO (Option IO.FS.Handle) := do
  try
    if let some parent := Path.parent? path then
      if !parent.isEmpty then IO.FS.createDirAll parent
    let _ ← IO.FS.Handle.mk path .append
    let handle ← IO.FS.Handle.mk path .readWrite
    if ← handle.tryLock then return some handle else return none
  catch _ => return none

def overwrite (handle : IO.FS.Handle) (content : String) : IO Unit := do
  handle.rewind
  handle.truncate
  handle.putStr content
  handle.flush

/-- Lock the store of valid settings on the machine. A lock that cannot be had is locked in the host
as well, with the record of whoever holds it. -/
def lockStore (host : Host) (settings : Settings) : IO (Option IO.FS.Handle × Host) := do
  match settings.databasePath, settings.validate with
  | some store, .ok _ =>
    let path := Lock.lockPath store
    match ← tryLock path with
    | some handle => return (some handle, host)
    | none =>
      let tree ← copyFile host.tree path
      let tree := (tree.touchOpen path).toOption.getD tree
      return (none, { host with tree, locked := (tree.fileId? path).toList })
  | _, _ => return (none, host)

def log (message : String) : IO Unit := do
  let moment := momentOf (← clock)
  let directory := Logs.directory (Logs.home (← IO.getEnv "CSVDB_HOME") (← IO.getEnv "HOME"))
  try
    IO.FS.createDirAll directory
    let name := Logs.fileName programName (String.ofList (moment.toList.take 10))
    let handle ← IO.FS.Handle.mk (Path.join directory name) .append
    handle.putStr (moment ++ "  INFO " ++ message ++ "\n")
  catch error => IO.eprintln ("Warning: file logging disabled: " ++ toString error)

def report (message : String) : IO Unit := IO.eprintln ("Error: " ++ message)

def reportEnding (ending : Ending) : IO Unit :=
  report (ending.message ++ "\n\nCaused by:\n    " ++ ending.cause.message)

def write (text : String) : IO Unit := do
  IO.print text
  (← IO.getStdout).flush

/-- Carry out a command and print what it leads to. Gives whether there may be another. -/
def answer (session : Session) (tree : Tree) (command : Command) : IO (Bool × Session) := do
  let start ← IO.monoNanosNow
  let (response, session) := respond session tree command
  match response with
  | .nothing => return (true, session)
  | .quit => return (false, session)
  | .text content => do
    write content
    return (true, session)
  | .outcome outcome => do
    let passed := (← IO.monoNanosNow) - start
    write (outcomeText outcome (passed / 1000000000) (passed % 1000000000))
    return (true, session)
  | .failure cause => do
    report cause.message
    return (true, session)

/-- Answer typed lines until one asks to quit or there are no more. The directory is polled before a
line when its last poll is a poll interval ago. -/
partial def converse (session : Session) (polled : Nat) : IO Unit := do
  write prompt
  let line ← (← IO.getStdin).getLine
  if line.isEmpty then write "\n"
  else
    let tree ← copyDirectory .empty session.settings
    let now ← IO.monoMsNow
    let due := polled + session.settings.pollInterval ≤ now
    let session := if due then session.poll tree else session
    let (more, session) ← answer session tree (.ofLine line)
    if more then converse session (if due then now else polled)

/-- Answer one query. Gives the exit code. -/
def answerOnce (session : Session) (tree : Tree) (query : String) : IO UInt32 := do
  let start ← IO.monoNanosNow
  match session.execute tree query with
  | (.ok outcome, _) =>
    let passed := (← IO.monoNanosNow) - start
    write (outcomeText outcome (passed / 1000000000) (passed % 1000000000))
    return 0
  | (.error cause, _) =>
    reportEnding (.queryFailed cause)
    return 1

/-- Serve the directory of the settings as the arguments ask. Gives the exit code. -/
def serve (arguments : Arguments) (settings : Settings) (tree : Tree) : IO UInt32 := do
  let tree ← copyDirectory tree settings
  let holder ← thisHolder
  let (held, host) ← lockStore { Host.empty with tree } settings
  match startSession host arguments holder with
  | (.error ending, _) =>
    reportEnding ending
    return 1
  | (.ok session, host) =>
    held.forM (overwrite · holder.toJson)
    log ("Started with " ++ toString session.cache.entries.entries.length ++ " tables")
    let code ← match arguments.execute with
      | some query => answerOnce session host.tree query
      | none => do
        converse session (← IO.monoMsNow)
        pure 0
    held.forM (overwrite · "")
    return code

end LiveTables.CommandLine

open LiveTables LiveTables.Console LiveTables.CommandLine in
def main (words : List String) : IO UInt32 := do
  match Arguments.read words with
  | .error (.displayHelp full) => do
    write (helpText full)
    return 0
  | .error .displayVersion => do
    write versionText
    return 0
  | .error _ => do
    IO.eprintln ("error: the arguments are not understood\n\nFor more information, try '--help'.")
    return 2
  | .ok arguments =>
    let tree ← match arguments.config with
      | some path => copyFile .empty path
      | none => pure Files.Tree.empty
    match settingsOf tree arguments with
    | .error ending => do
      reportEnding ending
      return 1
    | .ok settings => serve arguments settings tree
