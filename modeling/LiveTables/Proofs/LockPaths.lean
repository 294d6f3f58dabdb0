import LiveTables.Lock.StoreLock
import LiveTables.Proofs.FileNames

/-!
# The paths of lock files

A store's lock file stands beside the store and has its file name with `.lock` behind it, so stores
with different file names never share a lock file.
-/

namespace LiveTables

namespace Lock

open Files

/-- A lock file has its store's file name with `.lock` behind it. -/
theorem fileName?_lockPath (store : String) :
    Path.fileName? (lockPath store) = some ((Path.fileName? store).getD "" ++ ".lock") := by
  have hlength : ∀ name other : String, other.toList.length < 5 → name ++ ".lock" ≠ other := by
    rintro name _ hlt rfl
    simp at hlt
  apply Path.IsFileName.fileName?_withFileName
  constructor
  case slash =>
    rw [String.toList_append, List.mem_append, not_or]
    refine ⟨?_, by decide⟩
    cases hname : Path.fileName? store with
    | none => simp
    | some name => exact (Path.isFileName_of_fileName? hname).slash
  all_goals exact hlength _ _ (by decide)

/-- Stores with different file names have different lock files. -/
theorem fileName?_eq_of_lockPath {store other : String} (h : lockPath store = lockPath other) :
    Path.fileName? store = Path.fileName? other := by
  have hnames := congrArg Path.fileName? h
  rw [fileName?_lockPath, fileName?_lockPath, Option.some.injEq] at hnames
  have hbase : (Path.fileName? store).getD "" = (Path.fileName? other).getD "" := by
    apply String.toList_injective
    have hlists := congrArg String.toList hnames
    rw [String.toList_append, String.toList_append] at hlists
    exact List.append_cancel_right hlists
  cases hstore : Path.fileName? store with
  | none =>
      cases hother : Path.fileName? other with
      | none => rfl
      | some name =>
          rw [hstore, hother] at hbase
          exact absurd hbase.symm (Path.isFileName_of_fileName? hother).nonempty
  | some name =>
      cases hother : Path.fileName? other with
      | none =>
          rw [hstore, hother] at hbase
          exact absurd hbase (Path.isFileName_of_fileName? hstore).nonempty
      | some second =>
          rw [hstore, hother] at hbase
          exact congrArg some hbase

end Lock

end LiveTables
