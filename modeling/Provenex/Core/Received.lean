import Provenex.Core.Signature
import Provenex.Py.JsonVal

/-! `core/receipt.py` and `core/ed25519.py`: the check of a signature, on a receipt as
`json.loads` reads it from a text of unknown origin. The escape of half a surrogate pair
is read too, as a code point that UTF-8 has no bytes for. -/

namespace Provenex

/-- `json.dumps(d, sort_keys=True, …).encode("utf-8")`. An integer with too many digits raises
`ValueError` in the one, half of a surrogate pair in the other: the text that is encoded holds
every code point of `d` as it is. -/
def canonicalObject (py : Stdlib) (d : JsonObject) : Except PyErr Bytes :=
  match pyEntries? d with
  | some e => canonicalBytes py (.dict e)
  | none => .error (.valueError none)

/-! ## The signers -/

/-- The signers of the package, by what they check a signature with. -/
inductive Signer
  /-- `HmacSha256Signer` -/
  | hmacSha256 (secret : Bytes)
  /-- `Ed25519Signer`, by whether `public_key.verify(sig_bytes, payload)` returns -/
  | ed25519 (verifies : Bytes → Bytes → Bool)

namespace Signer

def algorithm : Signer → String
  | .hmacSha256 _ => "hmac-sha256"
  | .ed25519 _ => "ed25519"

/-- `ReceiptSigner.verify` and `Ed25519Signer.verify` -/
def verify (py : Stdlib) (signer : Signer) (payload : Bytes) (signature : JsonVal) :
    Except PyErr Bool :=
  match signer, signature with
  | .hmacSha256 secret, .text s =>
    match s.string? with
    | some value => compareDigest ((hmacSha256Signer py secret).sign payload) value
    | none => .error (.typeError none)
  | .ed25519 verifies, .text s =>
    -- `bytes.fromhex`, which raises `ValueError` on half a pair as on anything but digits
    match s.chars?.bind unhex with
    | some bytes => .ok (verifies bytes payload)
    | none => .ok false
  | _, _ => .error (.typeError none)

end Signer

/-- `verify_receipt_signature`, on what `json.loads` reads. -/
def verifyReceived (py : Stdlib) (receipt : JsonObject) (signer : Signer) : Except PyErr Bool :=
  if ¬ (receipt.get "signature").truthy then .ok false
  else
    match receipt.get "signature" with
    | .dict sig =>
      if ¬ (JsonObject.get sig "algorithm").isText signer.algorithm then .ok false
      else do
        let payload ← canonicalObject py (receipt.filter fun e => e.1 ≠ PyText.of "signature")
        signer.verify py payload (JsonObject.get sig "value").orEmpty
    | _ => .error .attributeError

end Provenex
