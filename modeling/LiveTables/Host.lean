import LiveTables.Engine.Store
import LiveTables.Files.Tree

/-!
# The machine around a connection

A file system, the files on it that are locked, and what the store files on it hold.
-/

namespace LiveTables

structure Host where
  tree : Files.Tree
  locked : List Nat
  /-- What was last written to a store file, by the file's identity. -/
  stores : List (Nat × Engine.Store)

def Host.empty : Host := ⟨.empty, [], []⟩

instance : Inhabited Host := ⟨Host.empty⟩

end LiveTables
