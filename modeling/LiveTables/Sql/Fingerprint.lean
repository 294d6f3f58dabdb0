import LiveTables.Text.Blank
import LiveTables.Text.Escaped

/-!
# How a statement is named in a trace

A traced statement shows its first word and a hash of its text in place of the text.
-/

namespace LiveTables.Sql

open LiveTables.Text

/-- The first word of a statement, if it has one. -/
def verb (statement : String) : String :=
  let word := (firstWord statement.toList).1
  if word.isEmpty then "unknown" else String.ofList word

/-- One step of the 64-bit hash of Fowler, Noll and Vo, in the order that mixes before it
multiplies. -/
def hashStep (hash : UInt64) (byte : UInt8) : UInt64 := (hash ^^^ byte.toUInt64) * 0x100000001b3

/-- The hash of a statement's bytes, in sixteen hexadecimal digits. -/
def fingerprint (statement : String) : String :=
  let hash := statement.toUTF8.toList.foldl hashStep 0xcbf29ce484222325
  String.ofList (paddedHex 16 hash.toNat)

end LiveTables.Sql
