import Relational.Unicode.DefaultIgnorable
import Relational.Unicode.GraphemeExtend
import Relational.Unicode.Unprintable

/-!
# Quoting in messages

A message shows a piece of text between quotes. The quote itself, the backslash and whatever would
not be seen on the page are written as escapes.
-/
namespace Relational.Text

/-- The escape that names a character by its code point. -/
def codePointEscape (c : Char) : List Char :=
  ['\\', 'u', '\x7b'] ++ Nat.toDigits 16 c.toNat ++ ['\x7d']

/-- A character that would not be seen as one of its own: it has no form, or it hangs on another. -/
def isUnseen (c : Char) : Bool :=
  Unicode.isUnprintable c || Unicode.isDefaultIgnorable c || Unicode.isAttachedMark c

/-- One character as it stands between two copies of `quote`. -/
def escape (quote c : Char) : List Char :=
  if c = quote ∨ c = '\\' then ['\\', c]
  else if c = '\x00' then ['\\', '0']
  else if c = '\t' then ['\\', 't']
  else if c = '\r' then ['\\', 'r']
  else if c = '\n' then ['\\', 'n']
  else if isUnseen c then codePointEscape c
  else [c]

def quoted (s : String) : String :=
  String.ofList (['"'] ++ s.toList.flatMap (escape '"') ++ ['"'])

def quotedChar (c : Char) : String :=
  String.ofList (['\''] ++ escape '\'' c ++ ['\''])

end Relational.Text
