import PushQueue.Ident

/-!
What can be wrong with a key: a sort key, the key material of the partition digest, a table name.
-/

namespace PushQueue

inductive HexError where
  | oddLength
  | badDigit (byte : UInt8) (index : Nat)
deriving DecidableEq

/-- A byte that is no digit is shown as the Latin-1 character it encodes. -/
def HexError.message : HexError → String
  | .oddLength => "Odd number of digits"
  | .badDigit byte index =>
    "Invalid character " ++ Text.quoteChar (Char.ofNat byte.toNat) ++ " at position " ++
      toString index

inductive KeyError where
  /-- The text has the layout of no key version. -/
  | malformedSortKey (key : String)
  /-- The position field is not a decimal number of 64 bits. -/
  | malformedPosition (field : String)
  /-- The position is wider than its field. -/
  | positionOutOfRange (position : UInt64)
  | invalidTopic (topic : String)
  | invalidMessageId (messageId : String)
  | missingPosition
  | invalidIdent (reason : IdentError)
  | invalidHashKey (reason : HexError)
  | invalidTableName (name : String)
deriving DecidableEq

def KeyError.message : KeyError → String
  | .malformedSortKey key => "invalid sort key: " ++ Text.quote key
  | .malformedPosition field => "invalid sort key timestamp: " ++ Text.quote field
  | .positionOutOfRange position =>
    "timestamp " ++ toString position ++ " does not fit the sort key field"
  | .invalidTopic topic => "invalid topic: " ++ Text.quote topic
  | .invalidMessageId messageId => "invalid message id: " ++ Text.quote messageId
  | .missingPosition => "notification has no sortkey timestamp"
  | .invalidIdent reason => reason.message
  | .invalidHashKey reason => "invalid hash key: " ++ reason.message
  | .invalidTableName name => "invalid table name: " ++ Text.quote name

end PushQueue
