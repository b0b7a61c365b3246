import Provenex.Core.Received
import Provenex.Index.Sqlite

/-! `_canonical_payload` of `index/sqlite_index.py`, of any `str` a caller may pass. One with half of
a surrogate pair goes through the checks, and cannot be encoded. -/

namespace Provenex

/-- `t.encode("utf-8")`. -/
def PyText.encode (t : PyText) : Except PyErr Bytes :=
  match t.string? with
  | some s => .ok (encodeUtf8 s)
  | none => .error (.valueError none)

/-- `sep.join(parts)`. -/
def PyText.join (sep : CodePoint) : List PyText → PyText
  | [] => []
  | [t] => t
  | t :: rest => t ++ sep :: join sep rest

namespace Sqlite

/-- The arguments of `_canonical_payload`. -/
structure SigningFields where
  fingerprint : PyText
  documentId : PyText
  documentVersion : PyText
  ingestedAt : PyText
  chunkOffset : ℤ
  chunkLength : ℤ

namespace SigningFields

def validateSigningField (name : String) (value : PyText) : Except PyErr Unit :=
  Guard.raiseIf (forbiddenFieldChars.any fun c => .char c ∈ value)
    (.valueError (some (name ++ " must not contain newline, carriage return, or " ++
      "null byte; these would create signing-payload ambiguity")))

def canonicalPayload (f : SigningFields) : Except PyErr Bytes := do
  validateSigningField "fingerprint" f.fingerprint
  validateSigningField "document_id" f.documentId
  validateSigningField "document_version" f.documentVersion
  validateSigningField "ingested_at" f.ingestedAt
  let offset ← intText f.chunkOffset
  let length ← intText f.chunkLength
  (PyText.join (.char '\n') [f.fingerprint, f.documentId, f.documentVersion, f.ingestedAt,
    .of offset, .of length]).encode

end SigningFields

end Sqlite

end Provenex
