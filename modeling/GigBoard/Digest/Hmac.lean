import GigBoard.Digest.Sha256

/-!
# Keyed hashes

HMAC with SHA-256 by RFC 2104: the message is hashed behind the inner pad of the key, and the result
once more behind the outer pad.
-/

set_option autoImplicit false

namespace GigBoard.Digest.Hmac

/-- A key as one block of sixty-four octets: filled up with zeros, or hashed first if longer. -/
def blockOf (key : List UInt8) : List UInt8 :=
  let short := if 64 < key.length then Sha256.hash key else key
  short ++ List.replicate (64 - short.length) 0

def code (key message : List UInt8) : List UInt8 :=
  let block := blockOf key
  Sha256.hash (block.map (· ^^^ 0x5c) ++ Sha256.hash (block.map (· ^^^ 0x36) ++ message))

end GigBoard.Digest.Hmac
