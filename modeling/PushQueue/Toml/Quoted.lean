import PushQueue.Text.Numeral

/-!
Quoted TOML strings: with escapes between double quotes, without between single ones, on one line
or, between tripled quotes, on several. Every reader gets the text after the opening quotes.
-/

namespace PushQueue.Toml

open Text

def isSpace (c : Char) : Bool := c = ' ' || c = '\t'

/-- A character that may stand on a line by itself: a tab, or any that is no ASCII control. -/
def isPlain (c : Char) : Bool := c = '\t' || (0x20 ≤ c.toNat && c.toNat ≠ 0x7F)

def escaped? (c : Char) : Option Char :=
  if c = '\x22' ∨ c = '\\' then some c
  else if c = 'b' then some '\x08'
  else if c = 'f' then some '\x0c'
  else if c = 'n' then some '\n'
  else if c = 'r' then some '\r'
  else if c = 't' then some '\t'
  else none

/-- The character of a code point in hexadecimal digits; surrogates are none. -/
def scalar? (digits : List Char) : Option Char :=
  (readHex? digits).bind fun n => if n.isValidChar then some (Char.ofNat n) else none

/-- What follows `'` on one line. -/
def readLiteral (done : List Char) : List Char → Option (String × List Char)
  | '\'' :: rest => some (String.ofList done.reverse, rest)
  | c :: rest => if isPlain c then readLiteral (c :: done) rest else none
  | [] => none

/-- What follows `'''`; up to two quotes may stand before the closing ones. -/
def readLiteralLines (done : List Char) : List Char → Option (String × List Char)
  | '\'' :: '\'' :: '\'' :: '\'' :: '\'' :: rest =>
    some (String.ofList ('\'' :: '\'' :: done).reverse, rest)
  | '\'' :: '\'' :: '\'' :: '\'' :: rest => some (String.ofList ('\'' :: done).reverse, rest)
  | '\'' :: '\'' :: '\'' :: rest => some (String.ofList done.reverse, rest)
  | c :: rest => if isPlain c ∨ c = '\n' then readLiteralLines (c :: done) rest else none
  | [] => none

/-- What follows a double quote on one line. -/
def readBasic (done : List Char) : List Char → Option (String × List Char)
  | '\x22' :: rest => some (String.ofList done.reverse, rest)
  | '\\' :: 'u' :: a :: b :: c :: d :: rest =>
    match scalar? [a, b, c, d] with
    | some e => readBasic (e :: done) rest
    | none => none
  | '\\' :: 'U' :: a :: b :: c :: d :: e :: f :: g :: h :: rest =>
    match scalar? [a, b, c, d, e, f, g, h] with
    | some e => readBasic (e :: done) rest
    | none => none
  | '\\' :: c :: rest =>
    match escaped? c with
    | some e => readBasic (e :: done) rest
    | none => none
  | c :: rest => if isPlain c then readBasic (c :: done) rest else none
  | [] => none

/-- Where the reading of a string on several lines stands. -/
inductive Place where
  | text
  /-- After a backslash and blanks: the line must end. -/
  | lineEnd
  /-- After such a line: blanks and line ends are left out. -/
  | margin

def startsMargin : List Char → Bool
  | c :: _ => isSpace c || c = '\n'
  | [] => false

def placeAfterMargin (rest : List Char) : Place := if startsMargin rest then .margin else .text

/-- What follows three double quotes; up to two quotes may stand before the closing ones. -/
def readBasicLines : Place → List Char → List Char → Option (String × List Char)
  | .lineEnd, done, c :: rest =>
    if isSpace c then readBasicLines .lineEnd done rest
    else if c = '\n' then readBasicLines (placeAfterMargin rest) done rest
    else none
  | .margin, done, _ :: rest => readBasicLines (placeAfterMargin rest) done rest
  | .text, done, '\x22' :: '\x22' :: '\x22' :: '\x22' :: '\x22' :: rest =>
    some (String.ofList ('\x22' :: '\x22' :: done).reverse, rest)
  | .text, done, '\x22' :: '\x22' :: '\x22' :: '\x22' :: rest =>
    some (String.ofList ('\x22' :: done).reverse, rest)
  | .text, done, '\x22' :: '\x22' :: '\x22' :: rest => some (String.ofList done.reverse, rest)
  | .text, done, '\\' :: 'u' :: a :: b :: c :: d :: rest =>
    match scalar? [a, b, c, d] with
    | some e => readBasicLines .text (e :: done) rest
    | none => none
  | .text, done, '\\' :: 'U' :: a :: b :: c :: d :: e :: f :: g :: h :: rest =>
    match scalar? [a, b, c, d, e, f, g, h] with
    | some e => readBasicLines .text (e :: done) rest
    | none => none
  | .text, done, '\\' :: c :: rest =>
    if isSpace c then readBasicLines .lineEnd done rest
    else if c = '\n' then readBasicLines (placeAfterMargin rest) done rest
    else
      match escaped? c with
      | some e => readBasicLines .text (e :: done) rest
      | none => none
  | .text, done, c :: rest =>
    if isPlain c ∨ c = '\n' then readBasicLines .text (c :: done) rest else none
  | _, _, [] => none

/-- A line end right after the opening quotes is not part of the string. -/
def dropFirstLineEnd : List Char → List Char
  | '\n' :: rest => rest
  | cs => cs

def readQuoted : List Char → Option (String × List Char)
  | '\x22' :: '\x22' :: '\x22' :: rest => readBasicLines .text [] (dropFirstLineEnd rest)
  | '\x22' :: rest => readBasic [] rest
  | '\'' :: '\'' :: '\'' :: rest => readLiteralLines [] (dropFirstLineEnd rest)
  | '\'' :: rest => readLiteral [] rest
  | _ => none

end PushQueue.Toml
