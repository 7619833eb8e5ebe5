import Roster.Digest.Sha256

/-!
# Keyed digests

HMAC with SHA-256: a key of one block is mixed into the message twice, under two
different masks. A longer key is replaced by its digest.
-/

namespace Roster.Hmac

/-- A key of one block under a mask. -/
def maskedKey (key : List UInt8) (mask : UInt8) : List UInt8 :=
  let key := if 64 < key.length then Sha256.digest key else key
  (key ++ List.replicate (64 - key.length) 0).map (· ^^^ mask)

/-- The digest of a message under a key. -/
def digest (key message : List UInt8) : List UInt8 :=
  Sha256.digest (maskedKey key 0x5c ++ Sha256.digest (maskedKey key 0x36 ++ message))

end Roster.Hmac
