import LiveTables.NameMap
import LiveTables.Number.Word
import LiveTables.Sql.Statement
import LiveTables.Text.Word
import LiveTables.Value

/-!
# The store

Tables and views by name, without regard to the case of ASCII letters. A statement that changes the
store either gives the changed store or the reason why it is rejected.
-/

namespace LiveTables.Engine

open LiveTables.Sql LiveTables.Text

inductive Rejection where
  | unreadable
  | notAQuery
  | unboundValues
  | unknownRelation (name : String)
  | unknownColumn (name : String)
  | repeatedColumn (name : String)
  | nameTaken (name : String)
  | notATable (name : String)
  | rowWidth (expected found : Nat)
  | missingValue (column : String)
  | unsuitableValue (column : String) (value : Value)
  | transactionOpen
  | noTransaction
  | unusableFile (path : String)
  /-- A reason that is not in the tables and views, in the words of the engine. -/
  | internal (reason : String)
  deriving Repr

def Rejection.message : Rejection → String
  | unreadable => "the text is no statement that the store runs"
  | notAQuery => "the text is not one query"
  | unboundValues => "the statement has another number of placeholders than values"
  | unknownRelation name => "there is no table " ++ quoted name
  | unknownColumn name => "there is no column " ++ quoted name
  | repeatedColumn name => "column " ++ quoted name ++ " is named twice"
  | nameTaken name => quoted name ++ " exists already"
  | notATable name => quoted name ++ " is not a table"
  | rowWidth expected found =>
    "a row has " ++ toString found ++ " values for " ++ toString expected ++ " columns"
  | missingValue column => "column " ++ quoted column ++ " needs a value"
  | unsuitableValue column value =>
    "column " ++ quoted column ++ " cannot hold " ++ value.render
  | transactionOpen => "a transaction is open"
  | noTransaction => "no transaction is open"
  | unusableFile path => "cannot open " ++ quoted path
  | internal reason => reason
where
  quoted (name : String) : String := "\"" ++ name ++ "\""

/-- A stored table, or a view of fixed values. -/
inductive Relation where
  | table (columns : List ColumnDef) (rows : List (List Value))
  | view (labels : List String) (row : List Value)
  deriving DecidableEq, Repr

namespace Relation

def labels : Relation → List String
  | table columns _ => columns.map (·.name)
  | view labels _ => labels

def rows : Relation → List (List Value)
  | table _ rows => rows
  | view _ row => [row]

end Relation

/-- The relations of a store by the lower-case form of their names. -/
abbrev Store := NameMap Relation

structure Answer where
  columns : List String
  rows : List (List Value)
  deriving DecidableEq, Repr

/-- The value that a column of a type holds for a value, if it can. -/
def storedAs? : SqlType → Value → Option Value
  | _, .null => some .null
  | .bigint, .integer n => if Number.isWord n then some (.integer n) else none
  | .double, .real x => some (.real x)
  | .double, .integer n => some (.real (Number.Binary.ofInt n))
  | .varchar, .text content => some (.text content)
  | .varchar, .integer n => some (.text (toString n))
  | .varchar, .boolean b => some (.text (if b then "true" else "false"))
  | .blob, .blob bytes => some (.blob bytes)
  | .boolean, .boolean b => some (.boolean b)
  | _, _ => none

def storeValue (column : ColumnDef) (value : Value) : Except Rejection Value :=
  match storedAs? column.type value with
  | none => .error (.unsuitableValue column.name value)
  | some .null => if column.required then .error (.missingValue column.name) else .ok .null
  | some value => .ok value

/-- The row that a table holds for one value per column. -/
def storeRow : List ColumnDef → List Value → Except Rejection (List Value)
  | [], [] => .ok []
  | column :: columns, value :: values => do
    let stored ← storeValue column value
    let rest ← storeRow columns values
    .ok (stored :: rest)
  | columns, values => .error (.rowWidth columns.length values.length)

def findColumn? (columns : List ColumnDef) (name : String) : Option Nat :=
  columns.findIdx? fun column => equalIgnoringCase column.name name

/-- The first name in a list that stands in it again, without regard to case. -/
def repeated? : List String → Option String
  | [] => none
  | name :: rest => if rest.any (equalIgnoringCase name) then some name else repeated? rest

/-- The value that a list of named values has for a column; a column that it leaves out is null. -/
def valueFor (listed : List (String × Value)) (column : ColumnDef) : Value :=
  ((listed.find? fun entry => equalIgnoringCase entry.1 column.name).map (·.2)).getD .null

/-- A row of values for the listed columns as a row for all of them. -/
def arrangeRow (columns : List ColumnDef) (listed : List String) (values : List Value) :
    Except Rejection (List Value) :=
  if values.length != listed.length then .error (.rowWidth listed.length values.length)
  else storeRow columns (columns.map (valueFor (listed.zip values)))

/-- Whether the listed columns are columns of the table, each named once. -/
def checkListed (columns : List ColumnDef) (listed : List String) : Except Rejection Unit :=
  match listed.find? fun name => (findColumn? columns name).isNone with
  | some name => .error (.unknownColumn name)
  | none => match repeated? listed with
    | some name => .error (.repeatedColumn name)
    | none => .ok ()

namespace Store

def relation (store : Store) (name : String) : Except Rejection Relation :=
  match store.find? (lower name) with
  | some relation => .ok relation
  | none => .error (.unknownRelation name)

/-- The columns and rows of the table of a name. -/
def tableOf (store : Store) (name : String) :
    Except Rejection (List ColumnDef × List (List Value)) :=
  match store.find? (lower name) with
  | some (.table columns rows) => .ok (columns, rows)
  | some (.view ..) => .error (.notATable name)
  | none => .error (.unknownRelation name)

def addRows (store : Store) (name : String) (columns : List ColumnDef)
    (rows added : List (List Value)) : Store :=
  store.insert (lower name) (.table columns (rows ++ added))

/-- Insert rows, given by position or for listed columns. -/
def insertRows (store : Store) (name : String) (listed : Option (List String))
    (values : List (List Value)) : Except Rejection Store := do
  let (columns, rows) ← store.tableOf name
  let added ← match listed with
    | none => values.mapM (storeRow columns)
    | some listed => do
      checkListed columns listed
      values.mapM (arrangeRow columns listed)
  .ok (store.addRows name columns rows added)

def dropTable (store : Store) (lenient : Bool) (name : String) : Except Rejection Store :=
  match store.find? (lower name) with
  | some (.table ..) => .ok (store.erase (lower name))
  | some (.view ..) => .error (.notATable name)
  | none => if lenient then .ok store else .error (.unknownRelation name)

def createTable (store : Store) (name : String) (columns : List ColumnDef) :
    Except Rejection Store :=
  if store.contains (lower name) then .error (.nameTaken name)
  else match repeated? (columns.map (·.name)) with
    | some column => .error (.repeatedColumn column)
    | none => .ok (store.insert (lower name) (.table columns []))

end Store

/-- The value of an operand, and the values that are left for the placeholders behind it. -/
def operandValue? (values : List Value) : Operand → Option (Value × List Value)
  | .null => some (.null, values)
  | .integer n => some (.integer n, values)
  | .text content => some (.text content, values)
  | .placeholder => match values with
    | [] => none
    | value :: values => some (value, values)

/-- The values of operands in order, and the values that are left. -/
def bindOperands (values : List Value) : List Operand → Option (List Value × List Value)
  | [] => some ([], values)
  | operand :: rest => do
    let (value, values) ← operandValue? values operand
    let (bound, values) ← bindOperands values rest
    some (value :: bound, values)

/-- The values of rows of operands, and the values that are left. -/
def bindRows (values : List Value) : List (List Operand) → Option (List (List Value) × List Value)
  | [] => some ([], values)
  | row :: rest => do
    let (bound, values) ← bindOperands values row
    let (rows, values) ← bindRows values rest
    some (bound :: rows, values)

/-- The label of a listed operand that is given none. -/
def defaultLabel (position : Nat) : Operand → String
  | .null => "NULL"
  | .integer n => toString n
  | .text content => "'" ++ content ++ "'"
  | .placeholder => "$" ++ toString (position + 1)

def labelsOf (items : List (Operand × Option String)) : List String :=
  items.zipIdx.map fun (item, position) => item.2.getD (defaultLabel position item.1)

/-- One row of values that takes every value given for its placeholders. -/
def bindAll (values : List Value) (operands : List Operand) : Except Rejection (List Value) :=
  match bindOperands values operands with
  | some (row, []) => .ok row
  | _ => .error .unboundValues

namespace Store

/-- What a query answers with `values` in its placeholders. -/
def answer (store : Store) (values : List Value) : Query → Except Rejection Answer
  | .allColumns name => do
    let relation ← store.relation name
    .ok ⟨relation.labels, relation.rows⟩
  | .columns names name => do
    let relation ← store.relation name
    let positions ← names.mapM fun column =>
      match relation.labels.findIdx? (equalIgnoringCase column) with
      | some position => .ok position
      | none => .error (.unknownColumn column)
    .ok {
      columns := positions.map fun position => relation.labels.getD position ""
      rows := relation.rows.map fun row => positions.map fun position => row.getD position .null }
  | .rowCount name => do
    let relation ← store.relation name
    .ok ⟨["count_star()"], [[.integer relation.rows.length]]⟩
  | .operands items => do
    .ok ⟨labelsOf items, [← bindAll values (items.map (·.1))]⟩

def createView (store : Store) (values : List Value) (name : String) : Query →
    Except Rejection Store
  | .operands items => do
    if store.contains (lower name) then throw (.nameTaken name)
    let row ← bindAll values (items.map (·.1))
    .ok (store.insert (lower name) (.view (labelsOf items) row))
  | _ => .error .unreadable

end Store

end LiveTables.Engine
