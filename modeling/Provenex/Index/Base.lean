import Provenex.Py.Value

/-! `index/base.py`: outcomes, entries, and the interface that the verifier reads. -/

namespace Provenex

inductive VerificationOutcome
  | verified
  | stale
  | unauthorized
  | unverified
  | tampered
  deriving DecidableEq, Repr

/-- The value each member serialises to. -/
def VerificationOutcome.value : VerificationOutcome → String
  | .verified => "VERIFIED"
  | .stale => "STALE"
  | .unauthorized => "UNAUTHORIZED"
  | .unverified => "UNVERIFIED"
  | .tampered => "TAMPERED"

structure IndexEntry where
  fingerprint : String
  documentId : String
  documentVersion : String
  ingestedAt : String
  chunkOffset : ℤ
  chunkLength : ℤ
  authorized : Bool
  superseded : Bool
  signature : String
  deriving DecidableEq, Repr

/-- The two reading methods of `ProvenanceIndex`, over the states of an index. -/
structure ProvenanceIndex (σ : Type) where
  verify : String → EStateM PyErr σ VerificationOutcome
  lookup : String → EStateM PyErr σ (Option IndexEntry)

/-- A read that returns leaves the index as it was. -/
def ProvenanceIndex.ReadOnly {σ : Type} (index : ProvenanceIndex σ) : Prop :=
  ∀ fp s, (∀ o t, index.verify fp s = .ok o t → t = s) ∧
    ∀ e t, index.lookup fp s = .ok e t → t = s

end Provenex
