import PushQueue.KeyError
import PushQueue.Text.ByteOrder

/-!
Sort keys: the address of a row within its subscriber's partition. The start of a key selects its
layout; the position of a timestamped key has a fixed width, so that byte order is queue order.
-/

namespace PushQueue

inductive SortKey where
  /-- A row of the oldest layout, `channel:messageId`; read and deleted, never written. -/
  | legacy (channel : ChannelId) (messageId : String)
  /-- `01:channel:topic`; one row for each channel and topic. -/
  | topic (channel : ChannelId) (topic : String)
  /-- `02:position:channel`; the queue in order of position. -/
  | timestamped (position : UInt64) (channel : ChannelId)
deriving DecidableEq

namespace SortKey

open Text

/-- The key of the row that holds a subscriber's channels; it sorts before every version. -/
def metadata : String := " "

def topicVersion : String := "01"

def timestampVersion : String := "02"

/-- The version reported for keys that name none. -/
def legacyVersion : String := "00"

def positionWidth : Nat := 19

/-- The largest position that fits its field. -/
def maxPosition : UInt64 := 9999999999999999999

/-- A wider position would break the order of the keys. -/
def checkPosition (position : UInt64) : Except KeyError UInt64 :=
  if position > maxPosition then .error (.positionOutOfRange position) else .ok position

/-- Texts that can stand in a key: not empty, no colon, no blank. -/
def isSegment (text : String) : Bool :=
  !text.toList.isEmpty && text.toList.all fun c => c ≠ ':' && !isBlank c

def ofTopic (channel : ChannelId) (name : String) : Except KeyError SortKey :=
  if isSegment name then .ok (.topic channel name) else .error (.invalidTopic name)

def ofPosition (channel : ChannelId) (position : UInt64) : Except KeyError SortKey :=
  (checkPosition position).map fun p => .timestamped p channel

def ofMessageId (channel : ChannelId) (messageId : String) : Except KeyError SortKey :=
  if isSegment messageId then .ok (.legacy channel messageId)
  else .error (.invalidMessageId messageId)

def positionField (position : UInt64) : String :=
  String.ofList (padded 10 positionWidth position.toNat)

def encode : SortKey → String
  | .legacy channel messageId => channel.text ++ ":" ++ messageId
  | .topic channel name => topicVersion ++ ":" ++ channel.text ++ ":" ++ name
  | .timestamped position channel =>
    timestampVersion ++ ":" ++ positionField position ++ ":" ++ channel.text

def readChannel (field : List Char) : Except KeyError ChannelId :=
  match Ident.parse (String.ofList field) with
  | .ok channel => .ok channel
  | .error reason => .error (.invalidIdent reason)

def readPosition (field : List Char) : Except KeyError UInt64 :=
  match readNat? field with
  | some n =>
    if n < UInt64.size then .ok (UInt64.ofNat n)
    else .error (.malformedPosition (String.ofList field))
  | none => .error (.malformedPosition (String.ofList field))

def parse (key : String) : Except KeyError SortKey :=
  match fields ':' key.toList with
  | [version, first, second] =>
    if version = topicVersion.toList then
      if first.isEmpty || second.isEmpty then .error (.malformedSortKey key)
      else (readChannel first).map fun channel => .topic channel (String.ofList second)
    else if version = timestampVersion.toList then
      (readPosition first).bind fun position =>
        (readChannel second).map fun channel => .timestamped position channel
    else .error (.malformedSortKey key)
  | [first, second] =>
    if first = topicVersion.toList ∨ first = timestampVersion.toList then
      .error (.malformedSortKey key)
    else if first.isEmpty || second.isEmpty then .error (.malformedSortKey key)
    else (readChannel first).map fun channel => .legacy channel (String.ofList second)
  | _ => .error (.malformedSortKey key)

/-- Every timestamped key after the watermark is above this bound; without one, every timestamped
key is, and no topic key. -/
def timestampLowerBound (watermark : Option UInt64) : Except KeyError String :=
  match watermark with
  | some position =>
    (checkPosition position).map fun p => timestampVersion ++ ":" ++ positionField p ++ ":z"
  | none => .ok (topicVersion ++ ";")

/-- Every topic key is below this bound. -/
def topicUpperBound : String := timestampVersion

def version : SortKey → String
  | .legacy .. => legacyVersion
  | .topic .. => topicVersion
  | .timestamped .. => timestampVersion

def channel : SortKey → ChannelId
  | .legacy channel _ | .topic channel _ | .timestamped _ channel => channel

def topicName : SortKey → Option String
  | .topic _ name => some name
  | _ => none

def messageId : SortKey → Option String
  | .legacy _ messageId => some messageId
  | _ => none

def position : SortKey → Option UInt64
  | .timestamped position _ => some position
  | _ => none

def isLegacy : SortKey → Bool
  | .legacy .. => true
  | _ => false

end SortKey

end PushQueue
