import LiveTables.Number.Decimal
import LiveTables.Sql.Statement
import LiveTables.Sql.Token

/-!
# Reading statements

The statements that a text consists of. Keywords are read in any letter case, names bare or quoted;
statements are separated by semicolons, and nothing may stand between two of them. A text with a
part that is no statement has none.
-/

namespace LiveTables.Sql

open LiveTables.Text

/-- The words that are not names unless they are quoted. -/
def reservedWords : List String :=
  ["all", "analyse", "analyze", "and", "anti", "any", "array", "as", "asc", "asof", "asymmetric",
   "authorization", "binary", "both", "case", "cast", "check", "collate", "collation", "column",
   "columns", "concurrently", "constraint", "create", "cross", "default", "deferrable", "desc",
   "describe", "distinct", "do", "else", "end", "except", "false", "fetch", "for", "foreign",
   "freeze", "from", "full", "generated", "glob", "group", "having", "ilike", "in", "initially",
   "inner", "intersect", "into", "is", "isnull", "join", "lambda", "lateral", "leading", "left",
   "like", "limit", "map", "natural", "not", "notnull", "null", "offset", "on", "only", "or",
   "order", "outer", "overlaps", "pivot", "pivot_longer", "pivot_wider", "placing", "positional",
   "primary", "qualify", "references", "returning", "right", "select", "semi", "show", "similar",
   "some", "struct", "summarize", "symmetric", "table", "tablesample", "then", "to", "trailing",
   "true", "try_cast", "union", "unique", "unpack", "unpivot", "using", "variadic", "verbose",
   "when", "where", "window", "with"]

namespace Token

def isKeyword (token : Token) (keyword : String) : Bool :=
  match token with
  | word text => lower text == keyword
  | _ => false

/-- The name that a token is: a quotation, or a word that is not reserved. -/
def name? : Token → Option String
  | word text => if reservedWords.contains (lower text) then none else some text
  | quoted name => some name
  | _ => none

/-- The name that a token is where only a name can stand. -/
def label? : Token → Option String
  | word text => some text
  | quoted name => some name
  | _ => none

def operand? : Token → Option Operand
  | symbol '?' => some .placeholder
  | literal text => some (.text text)
  | number digits => some (.integer (Number.digitsValue digits.toList))
  | word text => if lower text == "null" then some .null else none
  | _ => none

def sqlType? : Token → Option SqlType
  | word text => match lower text with
    | "bigint" | "int8" | "long" => some .bigint
    | "double" | "float8" => some .double
    | "varchar" | "text" | "string" => some .varchar
    | "blob" | "bytea" => some .blob
    | "boolean" | "bool" => some .boolean
    | _ => none
  | _ => none

end Token

/-- What follows a row of keywords. -/
def afterKeywords? : List String → List Token → Option (List Token)
  | [], tokens => some tokens
  | keyword :: keywords, token :: tokens =>
    if token.isKeyword keyword then afterKeywords? keywords tokens else none
  | _ :: _, [] => none

/-- The names of a parenthesised list, and what follows it. -/
def readNames : List Token → Option (List String × List Token)
  | token :: .symbol ',' :: rest => do
    let name ← token.name?
    let (names, rest) ← readNames rest
    some (name :: names, rest)
  | token :: .symbol ')' :: rest => token.name?.map fun name => ([name], rest)
  | _ => none

/-- The columns of a definition that ends the statement. -/
def readColumns : List Token → Option (List ColumnDef)
  | name :: type :: .symbol ',' :: rest => do
    let column := ⟨← name.name?, ← type.sqlType?, false⟩
    some (column :: (← readColumns rest))
  | [name, type, .symbol ')'] => do
    some [⟨← name.name?, ← type.sqlType?, false⟩]
  | name :: type :: no :: null :: .symbol ',' :: rest => do
    if no.isKeyword "not" && null.isKeyword "null" then
      let column := ⟨← name.name?, ← type.sqlType?, true⟩
      some (column :: (← readColumns rest))
    else none
  | [name, type, no, null, .symbol ')'] => do
    if no.isKeyword "not" && null.isKeyword "null" then
      some [⟨← name.name?, ← type.sqlType?, true⟩]
    else none
  | _ => none

/-- The rows that end an insert, of which the first has begun with `row`, last operand first. -/
def readRows (row : List Operand) : List Token → Option (List (List Operand))
  | token :: .symbol ',' :: rest => do
    let operand ← token.operand?
    readRows (operand :: row) rest
  | [token, .symbol ')'] => token.operand?.map fun operand => [(operand :: row).reverse]
  | token :: .symbol ')' :: .symbol ',' :: .symbol '(' :: rest => do
    let operand ← token.operand?
    let rows ← readRows [] rest
    some ((operand :: row).reverse :: rows)
  | _ => none

/-- The operands that a query lists, each with its label. -/
def readItems : List Token → Option (List (Operand × Option String))
  | [token] => token.operand?.map fun operand => [(operand, none)]
  | token :: .symbol ',' :: rest => do
    some ((← token.operand?, none) :: (← readItems rest))
  | [token, as, label] => do
    if as.isKeyword "as" then some [(← token.operand?, some (← label.label?))] else none
  | token :: as :: label :: .symbol ',' :: rest => do
    if as.isKeyword "as" then
      some ((← token.operand?, some (← label.label?)) :: (← readItems rest))
    else none
  | _ => none

/-- The columns that a query lists, up to the word that ends them, and what follows it. -/
def readSelected : List Token → Option (List String × List Token)
  | token :: .symbol ',' :: rest => do
    let name ← token.name?
    let (names, rest) ← readSelected rest
    some (name :: names, rest)
  | token :: source :: rest =>
    if source.isKeyword "from" then token.name?.map fun name => ([name], rest) else none
  | _ => none

/-- What a query says behind its first word. -/
def readQuery (tokens : List Token) : Option Query :=
  match readItems tokens with
  | some items => some (.operands items)
  | none => match tokens with
    | [.symbol '*', source, table] =>
      if source.isKeyword "from" then table.name?.map .allColumns else none
    | [count, .symbol '(', .symbol '*', .symbol ')', source, table] =>
      if count.isKeyword "count" && source.isKeyword "from" then table.name?.map .rowCount else none
    | tokens => match readSelected tokens with
      | some (names, [table]) => table.name?.map (.columns names)
      | _ => none

def readSelect (tokens : List Token) : Option Query := do
  readQuery (← afterKeywords? ["select"] tokens)

def readInsert (tokens : List Token) : Option Statement := do
  match ← afterKeywords? ["insert", "into"] tokens with
  | table :: .symbol '(' :: rest =>
    let (columns, rest) ← readNames rest
    match ← afterKeywords? ["values"] rest with
    | .symbol '(' :: rest => some (.insert (← table.name?) (some columns) (← readRows [] rest))
    | _ => none
  | table :: rest => match ← afterKeywords? ["values"] rest with
    | .symbol '(' :: rest => some (.insert (← table.name?) none (← readRows [] rest))
    | _ => none
  | [] => none

def readDrop (tokens : List Token) : Option Statement :=
  match afterKeywords? ["drop", "table", "if", "exists"] tokens with
  | some [table] => table.name?.map (.dropTable true)
  | some _ => none
  | none => match afterKeywords? ["drop", "table"] tokens with
    | some [table] => table.name?.map (.dropTable false)
    | _ => none

def readCreate (tokens : List Token) : Option Statement :=
  match afterKeywords? ["create", "table"] tokens with
  | some (table :: .symbol '(' :: rest) => do
    some (.createTable (← table.name?) (← readColumns rest))
  | some _ => none
  | none => match afterKeywords? ["create", "view"] tokens with
    | some (view :: rest) => do
      some (.createView (← view.name?) (← readSelect (← afterKeywords? ["as"] rest)))
    | _ => none

/-- What a word that begins or ends a transaction says. -/
def readTransactionWord (token : Token) : Option Statement :=
  if token.isKeyword "begin" || token.isKeyword "start" then some .begin
  else if token.isKeyword "commit" || token.isKeyword "end" then some .commit
  else if token.isKeyword "rollback" || token.isKeyword "abort" then some .rollback
  else none

def readTransaction : List Token → Option Statement
  | [token] => readTransactionWord token
  | [token, noise] =>
    if noise.isKeyword "transaction" || noise.isKeyword "work" then readTransactionWord token
    else none
  | _ => none

def readStatement (tokens : List Token) : Option Statement :=
  (readTransaction tokens).or <| ((readSelect tokens).map .select).or <| (readInsert tokens).or <|
    (readDrop tokens).or (readCreate tokens)

/-- Tokens split at semicolons, without the empty parts. -/
def splitStatements (current : List Token) : List Token → List (List Token)
  | [] => if current.isEmpty then [] else [current.reverse]
  | .symbol ';' :: rest =>
    if current.isEmpty then splitStatements [] rest
    else current.reverse :: splitStatements [] rest
  | token :: rest => splitStatements (token :: current) rest

/-- The statements of a text, if every part of it is one. -/
def readStatements (text : String) : Option (List Statement) := do
  (splitStatements [] (← tokens text.toList)).mapM readStatement

end LiveTables.Sql
