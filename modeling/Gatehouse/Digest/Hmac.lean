import Gatehouse.Digest.Sha256

/-!
# Keyed digests

HMAC over SHA-256: the digest of a message that only holders of the key can compute.
-/

namespace Gatehouse.Hmac

/-- The key filled with zeros to one block; a longer key is replaced by its digest first. -/
def blockKey (key : List UInt8) : List UInt8 :=
  let short := if key.length > Sha256.blockSize then Sha256.digest key else key
  short ++ List.replicate (Sha256.blockSize - short.length) 0

/-- The keyed digest of a message. -/
def sign (key message : List UInt8) : List UInt8 :=
  let k := blockKey key
  Sha256.digest (k.map (· ^^^ 0x5C) ++ Sha256.digest (k.map (· ^^^ 0x36) ++ message))

end Gatehouse.Hmac
