import PushQueue.Digest.Hmac
import PushQueue.KeyError
import PushQueue.Text.ByteOrder

/-!
Partition keys. With key material the partition of a subscriber is the keyed digest of its undashed
id, so that no stored row names the subscriber; without it the partition is the undashed id.
-/

namespace PushQueue

/-- Key material; the empty list leaves partition values as they are. -/
structure Pseudonym where
  key : List UInt8
deriving DecidableEq, Inhabited

namespace Pseudonym

def disabled : Pseudonym := ⟨[]⟩

def enabled (p : Pseudonym) : Bool := !p.key.isEmpty

def digit? (byte : UInt8) : Option UInt8 :=
  (Text.hexValue? (Char.ofNat byte.toNat)).map UInt8.ofNat

/-- Pairs of digits from `index` on, the more significant digit first. -/
def decodePairs (index : Nat) : List UInt8 → Except HexError (List UInt8)
  | [] => .ok []
  | [_] => .error .oddLength
  | high :: low :: rest =>
    match digit? high, digit? low with
    | none, _ => .error (.badDigit high index)
    | some _, none => .error (.badDigit low (index + 1))
    | some h, some l => (decodePairs (index + 2) rest).map fun bytes => (16 * h + l) :: bytes

/-- The bytes written by pairs of digits; an odd number of bytes is refused before any digit is. -/
def decodeHex (bytes : List UInt8) : Except HexError (List UInt8) :=
  if bytes.length % 2 = 1 then .error .oddLength else decodePairs 0 bytes

/-- Key material in hexadecimal, blanks around it dropped. -/
def ofHex (text : String) : Except KeyError Pseudonym :=
  match decodeHex (Text.utf8 (Text.trim text)) with
  | .ok key => .ok ⟨key⟩
  | .error reason => .error (.invalidHashKey reason)

def encodeHex (bytes : List UInt8) : String :=
  String.ofList (bytes.flatMap fun b => Text.padded 16 2 b.toNat)

def apply (p : Pseudonym) (value : String) : String :=
  if p.enabled then encodeHex (Digest.hmac p.key (Text.utf8 value)) else value

/-- The partition that holds every row of a subscriber. -/
def partition (p : Pseudonym) (subscriber : SubscriberId) : String := p.apply subscriber.simple

/-- What may be shown of it: whether it is in use, never the key. -/
def summary (p : Pseudonym) : String :=
  "UaidHasher \x7b enabled: " ++ toString p.enabled ++ " \x7d"

end Pseudonym

end PushQueue
