import LiveTables.Proofs.ChangeOutcome
import LiveTables.Proofs.LoadOutcome
import LiveTables.Proofs.RecordLayout
import LiveTables.Proofs.RowFaults

/-!
# The lines of rows

A row is reported with the line on which the scan for it begins. That is where the record in front
of it ended: at a line feed, or at a carriage return, whose line feed is then still to come. The row
itself starts further down by as many lines as there are line feeds in between, so it starts on the
line that is reported only if there are none.
-/

namespace LiveTables.Record

open LiveTables.Files LiveTables.Table

/-! ### The layout of a file -/

def byteOrderMark : List UInt8 := [0xef, 0xbb, 0xbf]

/-- The records of the text of a file. The mark in front of a text belongs to no record. -/
inductive Laid (delimiter : UInt8) : List UInt8 → List Placed → Prop
  | plain {content : List UInt8} {placed : List Placed} (hmark : ¬ byteOrderMark <+: content)
      (hlayout : Layout delimiter [] content placed) : Laid delimiter content placed
  | marked {text : List UInt8} {placed : List Placed}
      (hlayout : Layout delimiter byteOrderMark text placed) :
      Laid delimiter (byteOrderMark ++ text) placed

theorem exists_laid (delimiter : UInt8) (content : List UInt8) :
    ∃ placed, Laid delimiter content placed := by
  by_cases hmark : byteOrderMark <+: content
  · obtain ⟨text, rfl⟩ := hmark
    obtain ⟨placed, hlayout⟩ := exists_layout delimiter byteOrderMark text
    exact ⟨placed, .marked hlayout⟩
  · obtain ⟨placed, hlayout⟩ := exists_layout delimiter [] content
    exact ⟨placed, .plain hmark hlayout⟩

/-- A piece of a text: the ends of lines of its gap, and a record behind them. -/
def Placed.StandsIn (piece : Placed) (text : List UInt8) : Prop :=
  (∀ b ∈ piece.gap, endsLine b = true) ∧
    ∃ behind, text = piece.before ++ piece.gap ++ behind ∧ StartsRecord behind

theorem Layout.standsIn {delimiter : UInt8} {before text : List UInt8} {placed : List Placed}
    (h : Layout delimiter before text placed) :
    ∀ piece ∈ placed, piece.StandsIn (before ++ text) := by
  induction h with
  | done => simp
  | record hgap hstart _ _ _ ih =>
      rw [List.forall_mem_cons]
      refine ⟨⟨hgap, _, (List.append_assoc _ _ _).symm, hstart.append _⟩, ?_⟩
      simpa using ih

section Laid

variable {delimiter : UInt8} {content : List UInt8} {placed : List Placed}
  (h : Laid delimiter content placed)
include h

theorem Laid.unique {other : List Placed} (hother : Laid delimiter content other) :
    other = placed := by
  cases h with
  | plain hmark hlayout =>
      cases hother with
      | plain _ hlayout' => exact hlayout'.unique hlayout
      | marked _ => exact absurd (List.prefix_append _ _) hmark
  | @marked text _ hlayout =>
      generalize hcontent : byteOrderMark ++ text = content at hother
      cases hother with
      | plain hmark _ => exact absurd (hcontent ▸ List.prefix_append _ _) hmark
      | marked hlayout' =>
          obtain rfl := List.append_cancel_left hcontent
          exact hlayout'.unique hlayout

theorem Laid.standsIn : ∀ piece ∈ placed, piece.StandsIn content := by
  cases h with
  | plain _ hlayout => exact hlayout.standsIn
  | marked hlayout => exact hlayout.standsIn

theorem Laid.records : List.Forall₂ Scanned.Of placed (records delimiter content) := by
  cases h with
  | plain hmark hlayout =>
      have hrecords : Record.records delimiter content = recordsFrom delimiter .start content := by
        unfold Record.records
        split
        · exact absurd (List.prefix_append byteOrderMark _) hmark
        · rfl
      rw [hrecords]
      exact hlayout.recordsFrom rfl
  | @marked text _ hlayout =>
      have hrecords : List.Forall₂ Scanned.Of placed (recordsFrom delimiter ⟨3, 1, 0⟩ text) :=
        hlayout.recordsFrom rfl
      -- the first record counts from the start of the file, and the mark has no line feed
      simp only [Record.records, byteOrderMark, List.cons_append, List.nil_append]
      generalize hscanned : recordsFrom delimiter ⟨3, 1, 0⟩ text = scanned at hrecords
      cases hrecords with
      | nil => exact .nil
      | cons hfirst hmore =>
          have hline := congrArg Position.line (position_of_recordsFrom hscanned)
          exact .cons ⟨hline.symm.trans hfirst.line, hfirst.fields⟩ hmore

end Laid

/-! ### Rows -/

theorem decodeRow_eq_ok_iff {before : Position} {record : Scanned} {row : Row} :
    decodeRow before record = .ok row ↔
      decodeFields 0 record.fields = .ok row.fields ∧ row.line = record.position.line := by
  unfold decodeRow
  cases decodeFields 0 record.fields with
  | error place => simp
  | ok fields =>
      cases row
      simp [eq_comm, and_comm]

/-- An item is the row of a record, with the line on which the text in front ends, unless the record
is not UTF-8. -/
def ReadsAs (piece : Placed) (item : Except Fault Row) : Prop :=
  ∀ row, item = .ok row ↔
    decodeFields 0 piece.fields = .ok row.fields ∧ row.line = piece.lineBefore

theorem readsAs_decodeRow {piece : Placed} {record : Scanned} (h : Scanned.Of piece record)
    (before : Position) : ReadsAs piece (decodeRow before record) := by
  intro row
  rw [decodeRow_eq_ok_iff, h.fields, h.line]

/-- The records of a file that are data rows. -/
def Format.dataPieces (format : Format) (placed : List Placed) : List Placed :=
  if format.hasHeader then placed.tail else placed

theorem forall₂_readsAs {format : Format} {content : List UInt8} {placed : List Placed}
    (h : Laid format.delimiter content placed) :
    List.Forall₂ ReadsAs (format.dataPieces placed) (format.rows content) := by
  have hmap : ∀ {placed records}, List.Forall₂ Scanned.Of placed records →
      List.Forall₂ ReadsAs placed (records.map fun record => decodeRow record.position record) := by
    intro placed records hrecords
    rw [List.forall₂_map_right_iff]
    exact hrecords.imp fun _ _ hpiece => readsAs_decodeRow hpiece _
  have hrecords := h.records
  unfold Format.dataPieces Format.rows
  dsimp only
  generalize records format.delimiter content = scanned at hrecords
  split_ifs
  · cases hrecords with
    | nil => exact .nil
    | cons _ hmore =>
        cases hmore with
        | nil => exact .nil
        | cons hfirst hmore => exact .cons (readsAs_decodeRow hfirst _) (hmap hmore)
  · exact hmap hrecords

end LiveTables.Record

namespace LiveTables

open LiveTables.Files LiveTables.Record LiveTables.Table

/-! ### Lines that are reported -/

/-- The line that a failure of a row names. -/
def Failure.line? : Failure → Option Nat
  | .schemaMismatch _ line _ _ => some line
  | .typeCoercion _ line _ _ _ => some line
  | _ => none

/-- The rows as a table reads them, each with its own failure. -/
def Record.Format.items (format : Format) (content : List UInt8) : List (Except Failure Row) :=
  (format.rows content).map fun row => row.mapError .record

theorem exists_of_forall₂ {α β : Type} {related : α → β → Prop} {first : List α} {second : List β}
    (h : List.Forall₂ related first second) {b : β} (hb : b ∈ second) :
    ∃ a ∈ first, related a b := by
  induction h with
  | nil => cases hb
  | @cons a other first second hrelated _ ih =>
      rcases List.mem_cons.1 hb with rfl | hb
      · exact ⟨a, List.mem_cons_self, hrelated⟩
      · obtain ⟨a, ha, hrelated⟩ := ih hb
        exact ⟨a, List.mem_cons_of_mem _ ha, hrelated⟩

theorem exists_piece_of_mem {format : Format} {content : List UInt8} {placed : List Placed}
    (h : Laid format.delimiter content placed) {row : Row} (hrow : .ok row ∈ format.items content) :
    ∃ piece ∈ format.dataPieces placed, decodeFields 0 piece.fields = .ok row.fields ∧
      row.line = piece.lineBefore := by
  obtain ⟨item, hitem, hok⟩ := List.mem_map.1 hrow
  rw [Cache.mapError_eq_ok_iff] at hok
  obtain ⟨piece, hpiece, hreads⟩ := exists_of_forall₂ (forall₂_readsAs h) hitem
  exact ⟨piece, hpiece, (hreads row).1 hok⟩

theorem exists_piece_of_batch {format : Format} {content : List UInt8} {placed : List Placed}
    (h : Laid format.delimiter content placed) {table : Descriptor} {failure : Failure} {line : Nat}
    (hfailure : table.batch (format.items content) = .error failure)
    (hline : failure.line? = some line) :
    ∃ piece ∈ format.dataPieces placed, piece.lineBefore = line ∧ ∃ fields,
      decodeFields 0 piece.fields = .ok fields ∧
        Table.Fault table (.ok ⟨line, fields⟩) failure := by
  obtain ⟨before, item, after, hsplit, -, hfault⟩ := Descriptor.batch_eq_error_iff.1 hfailure
  have hmem : item ∈ format.items content := by simp [hsplit]
  cases item with
  | error cause =>
      cases hfault
      obtain ⟨_ | _, _, heq⟩ := List.mem_map.1 hmem
      · obtain rfl := Except.error.inj heq
        cases hline
      · cases heq
  | ok row =>
      obtain ⟨piece, hpiece, hfields, hrow⟩ := exists_piece_of_mem h hmem
      have hreported : row.line = line := by
        cases hfault <;> exact Option.some.inj hline
      exact ⟨piece, hpiece, hrow.symm.trans hreported, row.fields, hfields, hreported ▸ hfault⟩

/-- What the lines of the rows of a file say. The line of a row, and that of a failure of it, is the
one on which the record in front ended, so it is the line of the row itself if no line feed is in
between. -/
structure RowLines (format : Format) (content : List UInt8) (placed : List Placed) : Prop where
  unique : ∀ other, Laid format.delimiter content other → other = placed
  standsIn : ∀ piece ∈ placed, piece.StandsIn content
  rows : List.Forall₂ ReadsAs (format.dataPieces placed) (format.rows content)
  onItsLine : ∀ piece ∈ placed, piece.lineBefore = piece.line ↔ lineFeed ∉ piece.gap
  opened : ∀ tree path id modified, tree.stat path = .ok (.file id content modified) →
    Cache.sourceRows format tree path = .ok (format.items content) ∧
      ∀ row, Cache.firstRow format tree path = .ok (some row) ↔
        (format.items content).head? = some (.ok row)
  faults : ∀ table failure line, Descriptor.batch table (format.items content) = .error failure →
    failure.line? = some line → ∃ piece ∈ format.dataPieces placed, piece.lineBefore = line ∧
      ∃ fields, decodeFields 0 piece.fields = .ok fields ∧
        Table.Fault table (.ok ⟨line, fields⟩) failure

/-- A file has one layout of records. Its rows are their fields, each with the line on which the
record in front ended, and that is the row's own line exactly if no line feed stands in between. -/
theorem exists_rowLines (format : Format) (content : List UInt8) :
    ∃ placed, Laid format.delimiter content placed ∧ RowLines format content placed := by
  obtain ⟨placed, h⟩ := exists_laid format.delimiter content
  refine ⟨placed, h, ?_⟩
  constructor
  case unique => exact fun other hother => h.unique hother
  case standsIn => exact h.standsIn
  case rows => exact forall₂_readsAs h
  case onItsLine =>
    intro piece _
    rw [Placed.lineBefore, Placed.line, List.count_append, ← List.count_eq_zero]
    omega
  case opened =>
    intro tree path id modified hstat
    have hrows : Cache.sourceRows format tree path = .ok (format.items content) := by
      simp [Cache.sourceRows, Format.openRows, hstat, Format.items]
    refine ⟨hrows, fun row => ?_⟩
    rw [Cache.firstRow_eq_some_iff, hrows, List.head?_eq_some_iff]
    simp
  case faults =>
    exact fun table failure line hfailure hline => exists_piece_of_batch h hfailure hline

/-- Behind a blank line, a row is reported with the number of that line. -/
theorem rows_behind_blank_line : ∃ placed, Laid 44 [49, 10, 10, 50, 10] placed ∧
    placed.map Placed.line = [1, 3] ∧ (⟨44, false⟩ : Format).rows [49, 10, 10, 50, 10] =
      [.ok ⟨1, ["1"]⟩, .ok ⟨2, ["2"]⟩] := by
  have hplain : ∀ b, b ≠ 44 ∧ endsLine b = false → IsPlain 44 [b] := by
    intro b hb
    simpa [IsPlain] using hb
  have hsecond : Layout 44 [49, 10] ([10] ++ ([50] ++ ([10] ++ []))) [⟨[49, 10], [10], [[50]]⟩] :=
    .record (by simp [endsLine, lineFeed]) ⟨50, rfl, rfl⟩
      (.last (.plain (hplain 50 (by decide)) (by decide))) (.line rfl (by decide)) (.done (by simp))
  have hfirst : Layout 44 [] ([] ++ ([49] ++ ([10] ++ [10, 50, 10])))
      [⟨[], [], [[49]]⟩, ⟨[49, 10], [10], [[50]]⟩] :=
    .record (by simp) ⟨49, rfl, rfl⟩ (.last (.plain (hplain 49 (by decide)) (by decide)))
      (.line rfl (by decide)) hsecond
  refine ⟨_, .plain (by decide) hfirst, rfl, ?_⟩
  cbv

end LiveTables
