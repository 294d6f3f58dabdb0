import LiveTables.Proofs.TextRuns
import LiveTables.Record.Scan
import Mathlib

/-!
# Where the records of a text are

A field is plain text up to a delimiter or the end of a line, or it is a quotation, in which a quote
is written twice, with plain text behind it. A record is fields with delimiters between them, up to
the end of a line or of the text; ends of lines in front of it belong to no record. Every text can
be laid out so in one way, and the scanner finds the records of that layout.
-/

namespace LiveTables.Record

/-! ### The layout of a text -/

/-- Bytes that outside quotes end neither a field nor a record. -/
def IsPlain (delimiter : UInt8) (run : List UInt8) : Prop :=
  ∀ b ∈ run, b ≠ delimiter ∧ endsLine b = false

/-- How text is written between quotes. -/
def doubled : List UInt8 → List UInt8
  | [] => []
  | b :: rest => if b = quoteMark then quoteMark :: quoteMark :: doubled rest else b :: doubled rest

/-- A field as it is written in front of `rest`. A quote that comes next would open a quotation, or
go on with one. -/
inductive FieldText (delimiter : UInt8) (rest : List UInt8) : List UInt8 → List UInt8 → Prop
  | plain {run : List UInt8} (hrun : IsPlain delimiter run)
      (hquote : (run ++ rest).head? ≠ some quoteMark) : FieldText delimiter rest run run
  | quoted {content after : List UInt8} (hafter : IsPlain delimiter after)
      (hquote : (after ++ rest).head? ≠ some quoteMark) :
      FieldText delimiter rest (quoteMark :: doubled content ++ quoteMark :: after)
        (content ++ after)
  | unclosed {content : List UInt8} (hrest : rest = []) :
      FieldText delimiter rest (quoteMark :: doubled content) content

/-- Fields as they are written in front of `rest`. -/
inductive RecordText (delimiter : UInt8) (rest : List UInt8) : List UInt8 → Fields → Prop
  | last {written field : List UInt8} (hfield : FieldText delimiter rest written field) :
      RecordText delimiter rest written [field]
  | more {written field body : List UInt8} {fields : Fields}
      (hfield : FieldText delimiter (delimiter :: body ++ rest) written field)
      (hmore : RecordText delimiter rest body fields) :
      RecordText delimiter rest (written ++ delimiter :: body) (field :: fields)

/-- What ends a record in front of `rest`: the end of a line, or that of the text. -/
inductive Ending (delimiter : UInt8) : List UInt8 → List UInt8 → Prop
  | text : Ending delimiter [] []
  | line {b : UInt8} {rest : List UInt8} (hline : endsLine b = true) (hb : b ≠ delimiter) :
      Ending delimiter [b] rest

/-- A record does not start with the end of a line, even if that is the delimiter. -/
def StartsRecord (text : List UInt8) : Prop := ∃ b, text.head? = some b ∧ endsLine b = false

/-- A record in a text: what stands before it up to the end of the record in front, the ends of
lines that follow there, and its fields. -/
structure Placed where
  before : List UInt8
  gap : List UInt8
  fields : Fields

/-- The records of a text that stands behind another. -/
inductive Layout (delimiter : UInt8) : List UInt8 → List UInt8 → List Placed → Prop
  | done {before text : List UInt8} (htext : ∀ b ∈ text, endsLine b = true) :
      Layout delimiter before text []
  | record {before gap body ending rest : List UInt8} {fields : Fields} {placed : List Placed}
      (hgap : ∀ b ∈ gap, endsLine b = true)
      (hstart : StartsRecord body)
      (hbody : RecordText delimiter (ending ++ rest) body fields)
      (hending : Ending delimiter ending rest)
      (hrest : Layout delimiter (before ++ gap ++ body ++ ending) rest placed) :
      Layout delimiter before (gap ++ (body ++ (ending ++ rest)))
        (⟨before, gap, fields⟩ :: placed)

/-! ### Every text has a layout -/

section Exists

variable (delimiter : UInt8)

/-- A field can end in front of a text. -/
def EndsField (rest : List UInt8) : Prop :=
  ∀ b, rest.head? = some b → b = delimiter ∨ endsLine b = true

theorem exists_plain (text : List UInt8) :
    ∃ run rest, text = run ++ rest ∧ IsPlain delimiter run ∧ EndsField delimiter rest := by
  set plain : UInt8 → Bool := fun b => b != delimiter && !endsLine b with hplain
  refine ⟨text.takeWhile plain, text.dropWhile plain, List.takeWhile_append_dropWhile.symm, ?_, ?_⟩
  · intro b hb
    simpa [hplain] using List.mem_takeWhile_imp hb
  · intro b hb
    have hnot := List.head?_dropWhile_not plain text
    rw [hb] at hnot
    by_contra hnone
    rw [not_or] at hnone
    simp [hplain, hnone] at hnot

theorem exists_quotation : ∀ text : List UInt8, ∃ content, text = doubled content ∨
    ∃ after, text = doubled content ++ quoteMark :: after ∧ after.head? ≠ some quoteMark
  | [] => ⟨[], Or.inl rfl⟩
  | b :: rest => by
    by_cases hb : b = quoteMark
    · subst hb
      -- the quotation ends here, unless this is the first quote of two
      match rest with
      | [] => exact ⟨[], Or.inr ⟨[], rfl, by simp⟩⟩
      | c :: rest =>
        by_cases hc : c = quoteMark
        · subst hc
          obtain ⟨content, hcontent⟩ := exists_quotation rest
          refine ⟨quoteMark :: content, hcontent.imp (fun h => ?_) fun ⟨after, h, hafter⟩ => ?_⟩
          · simp [doubled, h]
          · exact ⟨after, by simp [doubled, h], hafter⟩
        · exact ⟨[], Or.inr ⟨c :: rest, rfl, by simpa using hc⟩⟩
    · obtain ⟨content, hcontent⟩ := exists_quotation rest
      refine ⟨b :: content, hcontent.imp (fun h => ?_) fun ⟨after, h, hafter⟩ => ?_⟩
      · simp [doubled, hb, h]
      · exact ⟨after, by simp [doubled, hb, h], hafter⟩

theorem exists_fieldText (text : List UInt8) : ∃ written field rest, text = written ++ rest ∧
    FieldText delimiter rest written field ∧ EndsField delimiter rest := by
  by_cases hquote : text.head? = some quoteMark
  · obtain ⟨inside, rfl⟩ := List.head?_eq_some_iff.1 hquote
    obtain ⟨content, rfl | ⟨behind, rfl, hbehind⟩⟩ := exists_quotation inside
    · exact ⟨_, _, [], (List.append_nil _).symm, .unclosed rfl, by simp [EndsField]⟩
    · obtain ⟨after, rest, rfl, hafter, hrest⟩ := exists_plain delimiter behind
      exact ⟨quoteMark :: doubled content ++ quoteMark :: after, content ++ after, rest, by simp,
        .quoted hafter hbehind, hrest⟩
  · obtain ⟨run, rest, rfl, hrun, hrest⟩ := exists_plain delimiter text
    exact ⟨run, run, rest, rfl, .plain hrun hquote, hrest⟩

theorem exists_recordText (text : List UInt8) : ∃ body fields ending rest,
    text = body ++ (ending ++ rest) ∧ RecordText delimiter (ending ++ rest) body fields ∧
      Ending delimiter ending rest := by
  -- behind a delimiter there is a shorter text, which the rest of the record is taken from
  induction hlength : text.length using Nat.strong_induction_on generalizing text with
  | _ length ih =>
      obtain ⟨written, field, rest, rfl, hfield, hrest⟩ := exists_fieldText delimiter text
      cases rest with
      | nil => exact ⟨written, [field], [], [], by simp, .last hfield, .text⟩
      | cons b rest =>
          by_cases hb : b = delimiter
          · subst hb
            have hlt : rest.length < length := by
              rw [← hlength, List.length_append, List.length_cons]
              omega
            obtain ⟨body, fields, ending, rest, rfl, hbody, hending⟩ := ih _ hlt rest rfl
            exact ⟨_, _, ending, rest, by simp, .more hfield hbody, hending⟩
          · have hline : endsLine b = true := (hrest b rfl).resolve_left hb
            exact ⟨written, [field], [b], rest, by simp, .last hfield, .line hline hb⟩

theorem exists_layout (before text : List UInt8) :
    ∃ placed, Layout delimiter before text placed := by
  induction hlength : text.length using Nat.strong_induction_on generalizing before text with
  | _ length ih =>
      have hsplit : text.takeWhile endsLine ++ text.dropWhile endsLine = text :=
        List.takeWhile_append_dropWhile
      have hgap : ∀ b ∈ text.takeWhile endsLine, endsLine b = true := fun b hb =>
        List.mem_takeWhile_imp hb
      cases hdrop : text.dropWhile endsLine with
      | nil => exact ⟨[], .done (List.dropWhile_eq_nil_iff.1 hdrop)⟩
      | cons b behind =>
          have hb : endsLine b = false := by
            have hnot := List.head?_dropWhile_not endsLine text
            simpa [hdrop] using hnot
          obtain ⟨body, fields, ending, rest, hbehind, hbody, hending⟩ :=
            exists_recordText delimiter (b :: behind)
          have hstart : body.head? = some b := by
            cases body with
            | cons c body => simpa using (List.cons.inj hbehind).1.symm
            | nil =>
                cases hending with
                | text => cases hbehind
                | line hline => simp_all
          have hlt : rest.length < length := by
            have hbodyLength : 0 < body.length :=
              List.length_pos_of_mem (List.mem_of_mem_head? hstart)
            have htotal := congrArg List.length hsplit
            rw [hdrop, hbehind] at htotal
            simp only [List.length_append] at htotal
            omega
          obtain ⟨placed, hplaced⟩ :=
            ih _ hlt (before ++ text.takeWhile endsLine ++ body ++ ending) rest rfl
          have hlayout := Layout.record hgap ⟨b, hstart, hb⟩ hbody hending hplaced
          rw [← hbehind, ← hdrop, hsplit] at hlayout
          exact ⟨_, hlayout⟩

end Exists

/-! ### The scanner on a layout -/

namespace Position

def past (position : Position) (text : List UInt8) : Position := text.foldl after position

variable (position : Position)

@[simp]
theorem past_nil : position.past [] = position :=
  rfl

@[simp]
theorem past_cons (b : UInt8) (text : List UInt8) :
    position.past (b :: text) = (position.after b).past text :=
  rfl

@[simp]
theorem past_append (first second : List UInt8) :
    position.past (first ++ second) = (position.past first).past second :=
  List.foldl_append

theorem line_past (text : List UInt8) :
    (position.past text).line = position.line + text.count lineFeed := by
  induction text generalizing position with
  | nil => rfl
  | cons b text ih =>
      rw [past_cons, ih, List.count_cons, after]
      by_cases hb : b = lineFeed
      · simp [hb]
        omega
      · simp [hb]

end Position

section Scan

variable {delimiter b : UInt8} {phase next : Phase} {field run rest : List UInt8} {fields : Fields}
  {position : Position}

theorem scan_of_pass (h : step delimiter phase b = .pass next) :
    scan delimiter phase field fields position (b :: rest) =
      scan delimiter next field fields (position.after b) rest := by
  rw [scan, h]

theorem scan_of_take (h : step delimiter phase b = .take next) :
    scan delimiter phase field fields position (b :: rest) =
      scan delimiter next (b :: field) fields (position.after b) rest := by
  rw [scan, h]

/-- What the scanner does where a field has ended. -/
def scanBehind (delimiter : UInt8) (field : List UInt8) (fields : Fields) (position : Position) :
    List UInt8 → Option Fields × Position × List UInt8
  | [] => (some (field :: fields).reverse, position.afterRecord, [])
  | b :: rest =>
    if b = delimiter then scan delimiter .fieldStart [] (field :: fields) (position.after b) rest
    else (some (field :: fields).reverse, (position.after b).afterRecord, rest)

theorem step_fieldStart (hb : b ≠ quoteMark) :
    step delimiter .fieldStart b = stepInField delimiter b .plain := by
  simp [step, hb]

theorem step_quoteSeen (hb : b ≠ quoteMark) :
    step delimiter .quoteSeen b = stepInField delimiter b .plain := by
  simp [step, hb]

theorem step_recordStart (hb : endsLine b = false) :
    step delimiter .recordStart b = step delimiter .fieldStart b := by
  simp [step, hb]

theorem scan_run (hphase : phase ≠ .recordStart)
    (hstep : ∀ b, (run ++ rest).head? = some b →
      step delimiter phase b = stepInField delimiter b .plain)
    (hrun : IsPlain delimiter run) (hrest : EndsField delimiter rest) :
    scan delimiter phase field fields position (run ++ rest) =
      scanBehind delimiter (field.reverse ++ run) fields (position.past run) rest := by
  -- only the first byte is scanned in `phase`, and the bytes behind it in the phase of plain text
  induction run generalizing phase field position with
  | nil =>
      cases rest with
      | nil => cases phase <;> simp_all [scan, scanBehind]
      | cons b rest =>
          rw [List.nil_append, scan, hstep b rfl]
          by_cases hb : b = delimiter
          · simp [stepInField, scanBehind, hb]
          · have hline := (hrest b rfl).resolve_left hb
            simp [stepInField, scanBehind, hb, hline]
  | cons b run ih =>
      obtain ⟨hb, hline⟩ := hrun b List.mem_cons_self
      have htake : step delimiter phase b = .take .plain := by
        rw [hstep b rfl]
        simp [stepInField, hb, hline]
      rw [List.cons_append, scan_of_take htake, ih (by simp) (fun _ _ => rfl)
        fun other hother => hrun other (List.mem_cons_of_mem _ hother)]
      simp

theorem scan_doubled (content : List UInt8) :
    scan delimiter .quoted field fields position (doubled content ++ rest) =
      scan delimiter .quoted (content.reverse ++ field) fields (position.past (doubled content))
        rest := by
  induction content generalizing field position with
  | nil => rfl
  | cons b content ih =>
      by_cases hb : b = quoteMark
      · subst hb
        simp only [doubled, ↓reduceIte, List.cons_append]
        rw [scan_of_pass rfl, scan_of_take rfl, ih]
        simp
      · simp only [doubled, hb, ↓reduceIte, List.cons_append]
        have htake : step delimiter .quoted b = .take .quoted := by simp [step, hb]
        rw [scan_of_take htake, ih]
        simp

theorem FieldText.scan_eq {written found : List UInt8}
    (h : FieldText delimiter rest written found) (hrest : EndsField delimiter rest) :
    scan delimiter .fieldStart [] fields position (written ++ rest) =
      scanBehind delimiter found fields (position.past written) rest := by
  cases h with
  | plain hrun hquote =>
      exact scan_run (by simp) (fun b hb => step_fieldStart fun heq => hquote (heq ▸ hb)) hrun hrest
  | @quoted content after hafter hquote =>
      have hstep : ∀ b, (after ++ rest).head? = some b →
          step delimiter .quoteSeen b = stepInField delimiter b .plain := fun b hb =>
        step_quoteSeen fun heq => hquote (heq ▸ hb)
      rw [List.append_assoc, List.cons_append, List.cons_append, scan_of_pass rfl, scan_doubled,
        scan_of_pass rfl, scan_run (by simp) hstep hafter hrest]
      simp
  | unclosed hrest' =>
      subst hrest'
      rw [List.cons_append, scan_of_pass rfl, scan_doubled]
      simp [scan, scanBehind]

theorem RecordText.scan_eq {behind body ending : List UInt8} {found : Fields}
    (h : RecordText delimiter behind body found) (hbehind : behind = ending ++ rest)
    (hending : Ending delimiter ending rest) :
    scan delimiter .fieldStart [] fields position (body ++ behind) =
      (some (fields.reverse ++ found), (position.past (body ++ ending)).afterRecord, rest) := by
  induction h generalizing fields position with
  | last hfield =>
      subst hbehind
      cases hending with
      | text =>
          rw [hfield.scan_eq (by simp [EndsField])]
          simp [scanBehind]
      | line hline hb =>
          rw [hfield.scan_eq (by simp [EndsField, hline])]
          simp [scanBehind, hb]
  | @more written field body found hfield hmore ih =>
      have hdelimiter : EndsField delimiter (delimiter :: body ++ behind) := by
        rintro b hb
        exact Or.inl (Option.some.inj hb).symm
      rw [List.append_assoc, hfield.scan_eq hdelimiter, List.cons_append, scanBehind, if_pos rfl,
        ih]
      simp

theorem scan_gap {gap text : List UInt8} (hgap : ∀ b ∈ gap, endsLine b = true) :
    scan delimiter .recordStart [] [] position (gap ++ text) =
      scan delimiter .recordStart [] [] (position.past gap) text := by
  induction gap generalizing position with
  | nil => rfl
  | cons b gap ih =>
      have hpass : step delimiter .recordStart b = .pass .recordStart := by
        simp [step, hgap b List.mem_cons_self]
      rw [List.cons_append, scan_of_pass hpass, ih fun c hc => hgap c (List.mem_cons_of_mem _ hc)]
      rfl

theorem StartsRecord.scan_eq {text : List UInt8} (h : StartsRecord text) :
    scan delimiter .recordStart field fields position text =
      scan delimiter .fieldStart field fields position text := by
  obtain ⟨b, hb, hline⟩ := h
  obtain ⟨text, rfl⟩ := List.head?_eq_some_iff.1 hb
  rw [scan, step_recordStart hline, scan]

theorem StartsRecord.append {text : List UInt8} (h : StartsRecord text) (behind : List UInt8) :
    StartsRecord (text ++ behind) := by
  obtain ⟨b, hb, hline⟩ := h
  exact ⟨b, by rw [List.head?_append, hb, Option.some_or], hline⟩

theorem scan_record {gap body ending : List UInt8} {found : Fields}
    (hgap : ∀ b ∈ gap, endsLine b = true) (hstart : StartsRecord body)
    (hbody : RecordText delimiter (ending ++ rest) body found)
    (hending : Ending delimiter ending rest) (position : Position) :
    scan delimiter .recordStart [] [] position (gap ++ (body ++ (ending ++ rest))) =
      (some found, (position.past (gap ++ (body ++ ending))).afterRecord, rest) := by
  rw [scan_gap hgap, (hstart.append _).scan_eq, hbody.scan_eq rfl hending]
  simp

end Scan

section Records

variable {delimiter : UInt8} {position next : Position} {before text rest : List UInt8}

theorem recordsFrom_of_some {fields : Fields}
    (h : scan delimiter .recordStart [] [] position text = (some fields, next, rest)) :
    recordsFrom delimiter position text =
      ⟨position, fields⟩ :: recordsFrom delimiter next rest := by
  rw [recordsFrom]
  split
  · next hnone => simp [h] at hnone
  · next hsome =>
      obtain ⟨hfields, hnext, hrest⟩ := by simpa using h.symm.trans hsome
      rw [hfields, hnext, hrest]

theorem recordsFrom_of_none (h : (scan delimiter .recordStart [] [] position text).1 = none) :
    recordsFrom delimiter position text = [] := by
  rw [recordsFrom]
  split
  · rfl
  · next hsome => simp [hsome] at h

theorem position_of_recordsFrom {first : Scanned} {more : List Scanned}
    (h : recordsFrom delimiter position text = first :: more) : first.position = position := by
  rw [recordsFrom] at h
  split at h
  · cases h
  · exact (congrArg Scanned.position (List.cons.inj h).1).symm

/-- The line on which the text in front of a record ends, before the ends of lines that follow
there. -/
def Placed.lineBefore (piece : Placed) : Nat := 1 + piece.before.count lineFeed

/-- The line of the first byte of a record: lines end with line feeds and are counted from one. -/
def Placed.line (piece : Placed) : Nat := 1 + (piece.before ++ piece.gap).count lineFeed

/-- A scanned record is one of a layout. -/
structure Scanned.Of (piece : Placed) (record : Scanned) : Prop where
  line : record.position.line = piece.lineBefore
  fields : record.fields = piece.fields

theorem Layout.recordsFrom {placed : List Placed} (h : Layout delimiter before text placed)
    (hline : position.line = 1 + before.count lineFeed) :
    List.Forall₂ Scanned.Of placed (recordsFrom delimiter position text) := by
  induction h generalizing position with
  | @done before text htext =>
      have hgap : scan delimiter .recordStart [] [] position (text ++ []) =
          scan delimiter .recordStart [] [] (position.past text) [] := scan_gap htext
      rw [List.append_nil] at hgap
      rw [recordsFrom_of_none (congrArg Prod.fst hgap)]
      exact .nil
  | @record before gap body ending rest fields placed hgap hstart hbody hending hrest ih =>
      rw [recordsFrom_of_some (scan_record hgap hstart hbody hending position)]
      refine .cons ⟨hline, rfl⟩ (ih ?_)
      rw [Position.afterRecord, Position.line_past, hline]
      simp only [List.count_append]
      omega

theorem StartsRecord.not_forall {gap behind : List UInt8} (h : StartsRecord behind) :
    ¬ ∀ b ∈ gap ++ behind, endsLine b = true := by
  intro hall
  obtain ⟨b, hb, hline⟩ := h
  have hmem := List.mem_append_right gap (List.mem_of_mem_head? hb)
  simp [hall b hmem] at hline

theorem StartsRecord.gap_unique {gap gap' behind behind' : List UInt8}
    (hgap : ∀ b ∈ gap, endsLine b = true) (hgap' : ∀ b ∈ gap', endsLine b = true)
    (h : StartsRecord behind) (h' : StartsRecord behind') (heq : gap ++ behind = gap' ++ behind') :
    gap = gap' ∧ behind = behind' := by
  have hhead : ∀ {behind}, StartsRecord behind →
      ∀ b, behind.head? = some b → endsLine b = false := by
    rintro behind ⟨c, hc, hline⟩ b hb
    obtain rfl := Option.some.inj (hc.symm.trans hb)
    exact hline
  constructor
  · rw [← Text.takeWhile_append_of_head hgap (hhead h), heq,
      Text.takeWhile_append_of_head hgap' (hhead h')]
  · rw [← Text.dropWhile_append_of_head hgap (hhead h), heq,
      Text.dropWhile_append_of_head hgap' (hhead h')]

/-- There is one way to lay a text out. -/
theorem Layout.unique {placed other : List Placed} (h : Layout delimiter before text placed)
    (hother : Layout delimiter before text other) : placed = other := by
  induction h generalizing other with
  | done htext =>
      cases hother with
      | done => rfl
      | record _ hstart => exact absurd htext (hstart.append _).not_forall
  | @record before gap body ending rest fields placed hgap hstart hbody hending hrest ih =>
      generalize hsplit : gap ++ (body ++ (ending ++ rest)) = text at hother
      cases hother with
      | done htext => exact absurd (hsplit ▸ htext) (hstart.append _).not_forall
      | record hgap' hstart' hbody' hending' hrest' =>
          obtain ⟨rfl, hbehind⟩ :=
            StartsRecord.gap_unique hgap hgap' (hstart.append _) (hstart'.append _) hsplit
          -- one scan finds both records, so they have the same fields and leave the same text
          have hscan := scan_record hgap hstart hbody hending .start
          rw [hsplit, scan_record hgap hstart' hbody' hending' .start] at hscan
          simp only [Prod.mk.injEq, Option.some.injEq] at hscan
          obtain ⟨rfl, -, rfl⟩ := hscan
          rw [← List.append_assoc, ← List.append_assoc] at hbehind
          have hconsumed := List.append_cancel_right hbehind
          rw [List.append_assoc _ _ _, ← hconsumed, ← List.append_assoc] at hrest'
          rw [ih hrest']

end Records

end LiveTables.Record
