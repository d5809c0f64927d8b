import PushQueue.Calendar.Month
import PushQueue.KeyError
import PushQueue.Text.Fields

/-!
Table names: which are allowed, and the names of the monthly tables, `stem_year_month`, with their
reading. A name is read back only where the year fills four characters and the month two.
-/

namespace PushQueue.TableName

open Text

def isLower (c : Char) : Bool := 'a' ≤ c && c ≤ 'z'

/-- A lower case letter, followed by lower case letters, digits and underscores. -/
def isValid (name : String) : Bool :=
  match name.toList with
  | [] => false
  | c :: cs => isLower c && cs.all fun c => isLower c || c.isDigit || c = '_'

def check (name : String) : Except KeyError Unit :=
  if isValid name then .ok () else .error (.invalidTableName name)

/-- The table of a month, among those that share a stem. -/
def ofMonth (stem : String) (m : Month) : String :=
  stem ++ "_" ++ String.ofList (m.digits ['_'])

/-- Year and month fields of four and two characters. -/
def readMonth? (year month : List Char) : Option Month :=
  if year.length = 4 ∧ month.length = 2 then
    match readInt? year, readUnsigned? month with
    | some y, some n => if h : 1 ≤ n ∧ n ≤ 12 then some ⟨y, n, h⟩ else none
    | _, _ => none
  else none

def month (stem name : String) : Except KeyError Month :=
  let found := do
    let rest ← after? (stem.toList ++ ['_']) name.toList
    let (year, number) ← cut? '_' rest
    readMonth? year number
  match found with
  | some m => .ok m
  | none => .error (.invalidTableName name)

end PushQueue.TableName
