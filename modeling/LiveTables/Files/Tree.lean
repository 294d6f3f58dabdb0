import LiveTables.Files.Fault
import LiveTables.Files.Path
import LiveTables.NameMap

/-!
# A tree of files

Directories, files and links under one root. A file is known by an identity that renaming and
rewriting keep; a link leads to another path. Nodes are kept in one map from the path that leads to
them without links, so a directory's entries are the keys below it.
-/

namespace LiveTables.Files

/-- What a path leads to. Times are in nanoseconds since the first of January 1970. -/
inductive Node where
  | directory
  | file (id : Nat) (content : List UInt8) (modified : Int)
  | link (target : String)
  deriving DecidableEq, Repr

/-- A file system, the identity that its next file gets, and the time of its next write. -/
structure Tree where
  nodes : NameMap Node
  nextId : Nat
  clock : Int

namespace Tree

/-- The time between two writes that give no time of their own. -/
def tick : Int := 1000000

def empty : Tree := ⟨.empty, 1, 1700000000000000000⟩

instance : Inhabited Tree := ⟨empty⟩

/-- A position in the tree: the names that lead to it from the root, the last one first. -/
abbrev Place := List String

def key (place : Place) : String := "/".intercalate place.reverse

def node? (tree : Tree) (place : Place) : Option Node :=
  if place.isEmpty then some .directory else tree.nodes.find? (key place)

/-- How many links may be followed on the way to one place. -/
def linkLimit : Nat := 40

/-- The longest name of a file, in bytes. -/
def nameLimit : Nat := 255

/-- Where `parts` lead to from `place`, when `links` more links may be followed. The last part need
not be there; if it is a link it is followed when `follow` says so. -/
def walk (tree : Tree) (follow : Bool) (links : Nat) (place : Place) :
    List String → Except Fault Place
  | [] => .ok place
  | part :: rest =>
    if part == "" || part == "." then
      match tree.node? place with
      | some .directory => walk tree follow links place rest
      | _ => .error .notDirectory
    else if part == ".." then walk tree follow links place.tail rest
    else if nameLimit < part.utf8ByteSize then .error .nameTooLong
    else
      let next : Place := part :: place
      match tree.node? next with
      | none => if rest.isEmpty then .ok next else .error .notFound
      | some .directory => walk tree follow links next rest
      | some (.file ..) => if rest.isEmpty then .ok next else .error .notDirectory
      | some (.link target) =>
        if rest.isEmpty && !follow then .ok next
        else match links with
          | 0 => .error .tooManyLinks
          | links + 1 =>
            let start : Place := if Path.isAbsolute target then [] else place
            walk tree follow links start (Path.parts target ++ rest)
termination_by parts => (links, parts.length)

/-- The place that a path leads to, which need not be there. -/
def locate (tree : Tree) (follow : Bool) (path : String) : Except Fault Place :=
  if path.isEmpty then .error .notFound else tree.walk follow linkLimit [] (Path.parts path)

/-- What a path leads to, links followed. -/
def stat (tree : Tree) (path : String) : Except Fault Node := do
  match tree.node? (← tree.locate true path) with
  | some node => .ok node
  | none => .error .notFound

/-- The content of the file that a path leads to. -/
def read (tree : Tree) (path : String) : Except Fault (List UInt8) := do
  match ← tree.stat path with
  | .file _ content _ => .ok content
  | _ => .error .isDirectory

/-- The time of the last write to the file that a path leads to. -/
def modified? (tree : Tree) (path : String) : Except Fault Int := do
  match ← tree.stat path with
  | .file _ _ modified => .ok modified
  | _ => .error .isDirectory

def isFile (tree : Tree) (path : String) : Bool :=
  match tree.stat path with
  | .ok (.file ..) => true
  | _ => false

/-- The name that a key has below a directory, if it stands directly there. -/
def entryName? (directory : Place) (key : String) : Option String :=
  let parts := Path.parts key
  if parts.dropLast == directory.reverse then parts.getLast? else none

/-- The names in the directory that a path leads to, in ascending order. -/
def list (tree : Tree) (path : String) : Except Fault (List String) := do
  let place ← tree.locate true path
  match tree.node? place with
  | some .directory => .ok ((tree.nodes.keys.filterMap (entryName? place)).mergeSort (· ≤ ·))
  | some _ => .error .notDirectory
  | none => .error .notFound

def setNode (tree : Tree) (place : Place) (node : Node) : Tree :=
  if place.isEmpty then tree else { tree with nodes := tree.nodes.insert (key place) node }

def tickClock (tree : Tree) : Tree := { tree with clock := tree.clock + tick }

/-- Give the file that a path leads to a content and a time; without a time, that of the clock. A
file that is there keeps its identity. -/
def write (tree : Tree) (path : String) (content : List UInt8) (modified : Option Int) :
    Except Fault Tree := do
  let place ← tree.locate true path
  let time := modified.getD tree.clock
  let tree := tree.tickClock
  match tree.node? place with
  | some (.file id _ _) => .ok (tree.setNode place (.file id content time))
  | some _ => .error .isDirectory
  | none =>
    match tree.node? place.tail with
    | some .directory =>
      .ok ({ tree with nextId := tree.nextId + 1 }.setNode place (.file tree.nextId content time))
    | _ => .error .notFound

/-- The same file, empty if it is not there yet. -/
def touchOpen (tree : Tree) (path : String) : Except Fault Tree := do
  match tree.node? (← tree.locate true path) with
  | some (.file ..) => .ok tree
  | some _ => .error .isDirectory
  | none => tree.write path [] none

/-- Set the content of the file with an identity, wherever it is. -/
def overwrite (tree : Tree) (id : Nat) (content : List UInt8) : Tree :=
  let nodes := tree.nodes.entries.foldl (fun nodes entry =>
    match entry.2 with
    | .file other _ _ =>
      if other == id then nodes.insert entry.1 (.file id content tree.clock) else nodes
    | _ => nodes) tree.nodes
  { tree.tickClock with nodes }

/-- Put a new file in the place of whatever stands at a path. -/
def put (tree : Tree) (path : String) (content : List UInt8) (modified : Option Int) :
    Except Fault Tree := do
  let place ← tree.locate false path
  match tree.node? place with
  | some .directory => .error .isDirectory
  | _ =>
    let time := modified.getD tree.clock
    let tree := tree.tickClock
    .ok ({ tree with nextId := tree.nextId + 1 }.setNode place (.file tree.nextId content time))

/-- Set the time of the file that a path leads to. -/
def touch (tree : Tree) (path : String) (modified : Int) : Except Fault Tree := do
  let place ← tree.locate true path
  match tree.node? place with
  | some (.file id content _) => .ok (tree.setNode place (.file id content modified))
  | some _ => .ok tree
  | none => .error .notFound

/-- Whether a key is at a place or below it. -/
def isWithin (place : Place) (key : String) : Bool :=
  place.reverse.isPrefixOf (Path.parts key)

/-- Remove the file or link that stands at a path. -/
def remove (tree : Tree) (path : String) : Except Fault Tree := do
  let place ← tree.locate false path
  match tree.node? place with
  | some .directory => .error .isDirectory
  | some _ => .ok { tree with nodes := tree.nodes.erase (key place) }
  | none => .error .notFound

/-- Remove the directory that stands at a path, and all below it. -/
def removeDirectory (tree : Tree) (path : String) : Except Fault Tree := do
  let place ← tree.locate false path
  match tree.node? place with
  | some .directory =>
    .ok { tree with nodes := tree.nodes.filter fun key _ => !isWithin place key }
  | some _ => .error .notDirectory
  | none => .error .notFound

/-- Move what stands at a path, and all below it, to another path, in place of what stands there. -/
def rename (tree : Tree) (path target : String) : Except Fault Tree := do
  let place ← tree.locate false path
  let goal ← tree.locate false target
  match tree.node? place with
  | none => .error .notFound
  | some _ =>
    if place == goal then .ok tree
    else
      let moved := tree.nodes.entries.filter fun entry => isWithin place entry.1
      let left := tree.nodes.filter fun key _ => !isWithin place key && !isWithin goal key
      let nodes := moved.foldl (fun nodes entry =>
        let below := (Path.parts entry.1).drop place.length
        nodes.insert ("/".intercalate (goal.reverse ++ below)) entry.2) left
      .ok { tree with nodes }

/-- Make the directories that lead to a place, the place included. -/
def makeFrom (tree : Tree) (place : Place) : List String → Except Fault Tree
  | [] => .ok tree
  | part :: rest =>
    if part == "" || part == "." then makeFrom tree place rest
    else if part == ".." then makeFrom tree place.tail rest
    else
      let next : Place := part :: place
      match tree.locate true (key next) with
      | .error fault => .error fault
      | .ok found => match tree.node? found with
        | none => makeFrom (tree.setNode found .directory) found rest
        | some .directory => makeFrom tree found rest
        | some _ => .error (if rest.isEmpty then .exists else .notDirectory)

/-- Make a directory, and those on the way to it that are missing. -/
def makeDirectories (tree : Tree) (path : String) : Except Fault Tree :=
  tree.makeFrom [] (Path.parts path)

def makeLink (tree : Tree) (path target : String) : Except Fault Tree := do
  let place ← tree.locate false path
  match tree.node? place with
  | some _ => .error .exists
  | none => .ok (tree.setNode place (.link target))

/-- The identity of the file that a path leads to. -/
def fileId? (tree : Tree) (path : String) : Option Nat :=
  match tree.stat path with
  | .ok (.file id _ _) => some id
  | _ => none

/-- The content of the file with an identity, if there is one. -/
def contentOf? (tree : Tree) (id : Nat) : Option (List UInt8) :=
  tree.nodes.values.findSome? fun node => match node with
    | .file other content _ => if other == id then some content else none
    | _ => none

end Tree

end LiveTables.Files
