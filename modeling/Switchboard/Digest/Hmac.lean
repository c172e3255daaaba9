import Switchboard.Digest.Sha256

/-!
# Keyed digests

HMAC over SHA-256: two digests, each under its own masking of the key.
-/

namespace Switchboard.Digest

/-- The number of octets in a block of the digest. -/
def blockSize : Nat := 64

/-- A key brought to the size of one block. -/
def blockKey (key : List UInt8) : List UInt8 :=
  let key := if blockSize < key.length then sha256 key else key
  key ++ List.replicate (blockSize - key.length) 0

def hmacSha256 (key message : List UInt8) : List UInt8 :=
  let key := blockKey key
  let inner := sha256 (key.map (· ^^^ 0x36) ++ message)
  sha256 (key.map (· ^^^ 0x5c) ++ inner)

end Switchboard.Digest
