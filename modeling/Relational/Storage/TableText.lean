import Relational.Query.Statement
import Relational.Storage.Lines
import Relational.Table.Basic

/-!
# Tables as text

A table is written as its header line and a line of literals for each row, every line ended by a line
feed. Reading stops at the first blank line or at the end. Every row that is read is inserted like any
other row.
-/
namespace Relational.Table

/-- The error of a stream, which has no name. -/
def streamError (why : FileFault) : Error := .file "" why

def decodeLine (line : Bytes) : Except Error String :=
  match line.toText? with
  | some s => .ok s
  | none => .error (streamError .invalidText)

/-- Inserts the rows of the lines, up to the first blank line. -/
def readRows (t : Table) : List Bytes → Except Error Table
  | [] => .ok t
  | line :: rest => do
    let s ← decodeLine line
    if Text.isBlankText s then return t
    else
      let values ← (Query.readLiterals s).mapError .malformed
      readRows (← t.insert values) rest

/-- The header line. A stream without lines has an empty one. -/
def readHeader (lines : List Bytes) : Except Error Schema := do
  let s ← (lines.head?.map decodeLine).getD (.ok "")
  if Text.isBlankText s then throw (.malformed .missingHeader)
  else return ⟨← (Query.readAttributes s).mapError .malformed⟩

def ofLines (lines : List Bytes) : Except Error Table := do
  readRows (empty (← readHeader lines)) lines.tail

def ofBytes (bytes : Bytes) : Except Error Table := ofLines bytes.lines

def toBytes (t : Table) : Bytes := Bytes.ofText (t.text ++ "\n")

/-- Writes a table to a stream that has room for so many bytes. -/
def writeWithin (t : Table) (room : Nat) : Except Error Bytes :=
  if t.toBytes.length ≤ room then .ok t.toBytes else .error (streamError .noRoom)

end Relational.Table
