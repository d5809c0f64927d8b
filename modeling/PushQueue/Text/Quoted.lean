import PushQueue.Text.Extender
import PushQueue.Text.Unprintable

/-!
Quoted text, as error messages show it: the delimiter, the backslash and every character that would
not show by itself are escaped, so a message is one line and its quotes are unambiguous.
-/

namespace PushQueue.Text

/-- The code point in lower case hexadecimal, in braces. -/
def escapeCode (c : Char) : List Char :=
  ['\\', 'u', '\x7b'] ++ Nat.toDigits 16 c.toNat ++ ['\x7d']

/-- One character between two `delimiter`s. -/
def escapeChar (delimiter c : Char) : List Char :=
  if c = '\x00' then ['\\', '0']
  else if c = '\t' then ['\\', 't']
  else if c = '\n' then ['\\', 'n']
  else if c = '\r' then ['\\', 'r']
  else if c = '\\' ∨ c = delimiter then ['\\', c]
  else if isExtender c || isUnprintable c then escapeCode c
  else [c]

def quote (s : String) : String :=
  String.ofList (['\x22'] ++ s.toList.flatMap (escapeChar '\x22') ++ ['\x22'])

def quoteChar (c : Char) : String :=
  String.ofList (['\x27'] ++ escapeChar '\x27' c ++ ['\x27'])

end PushQueue.Text
