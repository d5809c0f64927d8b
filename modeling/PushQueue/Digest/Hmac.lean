import PushQueue.Digest.Sha256

/-!
Keyed digests: HMAC over SHA-256. A key longer than a block is digested first; a shorter one is
filled with zeros.
-/

namespace PushQueue.Digest

def blockSize : Nat := 64

def blockKey (key : List UInt8) : List UInt8 :=
  let short := if key.length > blockSize then Sha256.digest key else key
  short ++ List.replicate (blockSize - short.length) 0

def hmac (key message : List UInt8) : List UInt8 :=
  let block := blockKey key
  let inner := Sha256.digest (block.map (· ^^^ 0x36) ++ message)
  Sha256.digest (block.map (· ^^^ 0x5c) ++ inner)

@[simp] theorem length_hmac (key message : List UInt8) : (hmac key message).length = 32 := rfl

end PushQueue.Digest
