import PushQueue.Toml.Moment
import PushQueue.Toml.Number
import PushQueue.Toml.Quoted

/-!
Reading TOML documents. Lines end with a line feed, alone or after a carriage return, which stands
nowhere else; dotted keys have fewer than `maxNesting` parts, and values nest less deep than that.
-/

namespace PushQueue.Toml

open Text

def maxNesting : Nat := 80

/-- All line ends as line feeds, unless a carriage return is left over. -/
def unifyLineEnds : List Char → Option (List Char)
  | '\r' :: '\n' :: rest => (unifyLineEnds rest).map ('\n' :: ·)
  | c :: rest => if c = '\r' then none else (unifyLineEnds rest).map (c :: ·)
  | [] => some []

def skipSpace (cs : List Char) : List Char := cs.dropWhile isSpace

/-- Past a comment, if one starts here, up to the end of its line. -/
def skipComment : List Char → List Char
  | '#' :: rest => rest.dropWhile isPlain
  | cs => cs

/-- Past the end of a line: blanks, a comment and the line feed; the last line needs none. -/
def endLine? (cs : List Char) : Option (List Char) :=
  match skipComment (skipSpace cs) with
  | '\n' :: rest => some rest
  | [] => some []
  | _ => none

/-- Past blanks, line feeds and whole comment lines; `inComment` says that a comment is open. -/
def skipLines (inComment : Bool) : List Char → Option (List Char)
  | [] => some []
  | c :: rest =>
    if c = '\n' then skipLines false rest
    else if inComment then if isPlain c then skipLines true rest else none
    else if isSpace c then skipLines false rest
    else if c = '#' then skipLines true rest
    else some (c :: rest)

def isBareKeyChar (c : Char) : Bool :=
  c.isDigit || ('a' ≤ c && c ≤ 'z') || ('A' ≤ c && c ≤ 'Z') || c = '_' || c = '-'

def readKeyPart : List Char → Option (String × List Char)
  | '\x22' :: rest => readBasic [] rest
  | '\'' :: rest => readLiteral [] rest
  | cs =>
    let bare := cs.takeWhile isBareKeyChar
    if bare.isEmpty then none else some (String.ofList bare, cs.dropWhile isBareKeyChar)

/-- The parts of a dotted key, with blanks around each, and the rest; at most `limit` parts. -/
def readKeyParts : Nat → List Char → Option (List String × List Char)
  | 0, _ => none
  | limit + 1, cs =>
    (readKeyPart (skipSpace cs)).bind fun (part, rest) =>
      match skipSpace rest with
      | '.' :: rest => (readKeyParts limit rest).map fun r => (part :: r.1, r.2)
      | rest => some ([part], rest)

def readKey (cs : List Char) : Option ((List String × String) × List Char) :=
  (readKeyParts (maxNesting - 1) cs).bind fun (parts, rest) =>
    parts.getLast?.map fun name => ((parts.dropLast, name), rest)

mutual

/-- A value that starts here; `depth` levels of nesting remain. -/
def readValue (fuel depth : Nat) (cs : List Char) : Option (Value × List Char) :=
  match fuel with
  | 0 => none
  | fuel + 1 =>
    match cs with
    | '[' :: rest =>
      if depth ≤ 1 then none
      else
        (skipLines false rest).bind fun rest =>
          match rest with
          | ']' :: after => some (.array [], after)
          | rest => readItems fuel (depth - 1) [] rest
    | '\x7b' :: rest =>
      if depth ≤ 1 then none
      else
        match skipSpace rest with
        | '\x7d' :: after => some (.table .braces [], after)
        | rest => readMembers fuel (depth - 1) [] rest
    | '\x22' :: _ | '\'' :: _ => (readQuoted cs).map fun r => (.string r.1, r.2)
    | 't' :: _ => (after? ['t', 'r', 'u', 'e'] cs).map fun rest => (.boolean true, rest)
    | 'f' :: _ => (after? ['f', 'a', 'l', 's', 'e'] cs).map fun rest => (.boolean false, rest)
    | _ => (readMoment cs).orElse fun _ => readNumber cs

/-- The items of an array; `done` holds those read so far, backwards. -/
def readItems (fuel depth : Nat) (done : List Value) (cs : List Char) :
    Option (Value × List Char) :=
  match fuel with
  | 0 => none
  | fuel + 1 =>
    (readValue fuel depth cs).bind fun (item, rest) =>
      (skipLines false rest).bind fun rest =>
        match rest with
        | ',' :: rest =>
          (skipLines false rest).bind fun rest =>
            match rest with
            | ']' :: rest => some (.array (item :: done).reverse, rest)
            | rest => readItems fuel depth (item :: done) rest
        | ']' :: rest => some (.array (item :: done).reverse, rest)
        | _ => none

/-- The members of a table in braces, added to those in `done`. -/
def readMembers (fuel depth : Nat) (done : Members) (cs : List Char) :
    Option (Value × List Char) :=
  match fuel with
  | 0 => none
  | fuel + 1 =>
    (readKey cs).bind fun ((path, name), rest) =>
      (skip? '=' rest).bind fun rest =>
        (readValue fuel depth (skipSpace rest)).bind fun (value, rest) =>
          (Members.enter path name value .braces done).bind fun done =>
            match skipSpace rest with
            | ',' :: rest => readMembers fuel depth done rest
            | '\x7d' :: rest => some (.table .braces done, rest)
            | _ => none

end

/-- The key of a header whose opening brackets are read, and the text after the closing ones. -/
def readHeader (closing : List Char) (cs : List Char) :
    Option ((List String × String) × List Char) :=
  (readKey cs).bind fun (key, rest) => (after? closing rest).map fun rest => (key, rest)

def readLine (d : Document) (cs : List Char) : Option (Document × List Char) :=
  match cs with
  | '[' :: '[' :: rest =>
    (readHeader [']', ']'] rest).bind fun ((path, name), rest) =>
      (d.openNext path name).map fun d => (d, rest)
  | '[' :: rest =>
    (readHeader [']'] rest).bind fun ((path, name), rest) =>
      (d.openTable path name).map fun d => (d, rest)
  | _ =>
    (readKey cs).bind fun ((path, name), rest) =>
      (skip? '=' rest).bind fun rest =>
        (readValue (2 * cs.length + 1) maxNesting (skipSpace rest)).bind fun (value, rest) =>
          (d.enter path name value).map fun d => (d, rest)

def readLines (fuel : Nat) (d : Document) (cs : List Char) : Option Members :=
  match fuel with
  | 0 => none
  | fuel + 1 =>
    (skipLines false cs).bind fun rest =>
      if rest.isEmpty then some d.root
      else
        (readLine d rest).bind fun (d, rest) =>
          (endLine? rest).bind fun rest => readLines fuel d rest

/-- The members of a whole document; a byte order mark may come first. -/
def parse? (s : String) : Option Members :=
  let cs :=
    match s.toList with
    | '\uFEFF' :: rest => rest
    | cs => cs
  (unifyLineEnds cs).bind fun cs => readLines (cs.length + 1) Document.empty cs

end PushQueue.Toml
