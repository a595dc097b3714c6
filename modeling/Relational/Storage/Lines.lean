/-!
# Lines of a stream

A stream of bytes is cut into lines after every line feed. A carriage return before the line feed is
no part of the line. What follows the last line feed is a line too, unless it is empty. A line is text
if it is encoded as UTF-8.
-/
namespace Relational

abbrev Bytes := List UInt8

namespace Bytes

def ofText (s : String) : Bytes := s.toUTF8.data.toList

def toText? (bytes : Bytes) : Option String := String.fromUTF8? ⟨bytes.toArray⟩

theorem toText?_ofText (s : String) : toText? (ofText s) = some s := by
  have valid : (⟨s.toByteArray.data.toList.toArray⟩ : ByteArray).IsValidUTF8 := s.isValidUTF8
  exact dif_pos valid

def lineFeed : UInt8 := 10

def carriageReturn : UInt8 := 13

/-- A line that ended with a line feed, from its bytes in reverse order. -/
def endedLine : Bytes → Bytes
  | [] => []
  | b :: reversed => if b = carriageReturn then reversed.reverse else (b :: reversed).reverse

/-- The lines of what follows, when `reversed` holds the bytes of the first line so far in reverse
order. -/
def linesAfter (reversed : Bytes) : Bytes → List Bytes
  | [] => if reversed.isEmpty then [] else [reversed.reverse]
  | b :: rest =>
    if b = lineFeed then endedLine reversed :: linesAfter [] rest
    else linesAfter (b :: reversed) rest

def lines (bytes : Bytes) : List Bytes := linesAfter [] bytes

@[simp] theorem lines_nil : lines [] = [] := rfl

end Bytes
end Relational
