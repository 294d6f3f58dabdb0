import LiveTables.Files.Tree
import LiveTables.Text.Word

/-!
# Polling a directory

A poller remembers the latest time at which it saw each watched file change. A poll reports the
files that it has not seen before and those with a later time than remembered; a snapshot remembers
the times as they are. What a directory shows at one moment is a listing, so polls are functions of
listings.
-/

namespace LiveTables.Watch

open LiveTables.Files

/-- A watched file that is new or was written to. Times are in nanoseconds since the first of
January 1970. -/
structure Change where
  fileName : String
  path : String
  modified : Int
  deriving DecidableEq, Repr

def changeAt (path : String) (modified : Int) : Change :=
  ⟨(Path.fileName? path).getD "", path, modified⟩

/-- A listed file: its path, and the time of its last write unless that cannot be told. -/
abbrev Listed := String × Except Fault Int

/-- The watched files of a directory in ascending order, if the directory can be listed. -/
abbrev Listing := Except Fault (List Listed)

/-- The part of an extension that counts: no dots in front, ASCII letters in lower case. -/
def normalExtension (extension : String) : String :=
  Text.lower (String.ofList (extension.toList.dropWhile (· == '.')))

def hasExtension (extension fileName : String) : Bool :=
  match Path.extension? fileName with
  | some other => Text.equalIgnoringCase other extension
  | none => false

/-- The regular files of a directory with a watched extension. -/
def listing (tree : Tree) (directory extension : String) : Listing := do
  let names ← tree.list directory
  let paths := (names.filter (hasExtension extension)).map (Path.join directory)
  .ok ((paths.filter tree.isFile).map fun path => (path, tree.modified? path))

/-- What a poll counts: the files listed, the changes reported, and the faults. -/
structure Stats where
  seen : Nat
  changed : Nat
  errors : Nat
  deriving DecidableEq, Repr

structure Poller where
  directory : String
  extension : String
  /-- The latest time reported or recorded for each path. -/
  times : NameMap Int

namespace Poller

def new (directory extension : String) : Poller :=
  ⟨directory, normalExtension extension, .empty⟩

def listing (poller : Poller) (tree : Tree) : Listing :=
  Watch.listing tree poller.directory poller.extension

def remember (poller : Poller) (path : String) (modified : Int) : Poller :=
  { poller with times := poller.times.insert path modified }

/-- Whether a time is later than the one remembered for a path, or the first for it. -/
def isNewer (poller : Poller) (path : String) (modified : Int) : Bool :=
  match poller.times.find? path with
  | some previous => previous < modified
  | none => true

/-- Remember the times of listed files and give a change for each. -/
def snapshotListed (poller : Poller) : List Listed → List Change × Poller
  | [] => ([], poller)
  | (path, .ok modified) :: rest =>
    let (changes, poller) := (poller.remember path modified).snapshotListed rest
    (changeAt path modified :: changes, poller)
  | (_, .error _) :: rest => poller.snapshotListed rest

/-- Remember the times of all files as they are. -/
def snapshot (poller : Poller) (listing : Listing) : Except Fault (List Change) × Poller :=
  match listing with
  | .error fault => (.error fault, poller)
  | .ok files =>
    let (changes, poller) := poller.snapshotListed files
    (.ok changes, poller)

/-- Examine one listed file: report it if its time is newer than remembered, and remember that
time. -/
def examine (poller : Poller) : Listed → Option Change × Poller
  | (_, .error _) => (none, poller)
  | (path, .ok modified) =>
    if poller.isNewer path modified then
      (some (changeAt path modified), poller.remember path modified)
    else (none, poller)

/-- Examine listed files in order, and give the changes reported. -/
def examineAll (poller : Poller) : List Listed → List Change × Poller
  | [] => ([], poller)
  | file :: rest =>
    let (change, poller) := poller.examine file
    let (changes, poller) := poller.examineAll rest
    (change.toList ++ changes, poller)

def isFault (file : Listed) : Bool :=
  match file.2 with
  | .error _ => true
  | .ok _ => false

/-- One poll: the changes since the times remembered. A directory that cannot be listed is one
fault. -/
def poll (poller : Poller) (listing : Listing) : Stats × List Change × Poller :=
  match listing with
  | .error _ => (⟨0, 0, 1⟩, [], poller)
  | .ok files =>
    let (changes, poller) := poller.examineAll files
    (⟨files.length, changes.length, (files.filter isFault).length⟩, changes, poller)

end Poller

end LiveTables.Watch
