import Provenex.Index.Base

/-! `policy/policy.py`. -/

namespace Provenex

structure VerificationPolicy where
  blockStale : Bool
  blockUnauthorized : Bool
  blockUnverified : Bool
  blockTampered : Bool
  flagStale : Bool
  flagUnauthorized : Bool
  flagUnverified : Bool
  flagTampered : Bool
  deriving DecidableEq, Repr

/-- `VerificationPolicy()`. The unset `block_unverified` becomes `False`, with a warning. -/
def VerificationPolicy.default : VerificationPolicy :=
  ⟨false, true, false, true, true, true, true, true⟩

def VerificationPolicy.shouldBlock (p : VerificationPolicy) : VerificationOutcome → Bool
  | .verified => false
  | .stale => p.blockStale
  | .unauthorized => p.blockUnauthorized
  | .unverified => p.blockUnverified
  | .tampered => p.blockTampered

def VerificationPolicy.shouldFlag (p : VerificationPolicy) : VerificationOutcome → Bool
  | .verified => false
  | .stale => p.flagStale
  | .unauthorized => p.flagUnauthorized
  | .unverified => p.flagUnverified
  | .tampered => p.flagTampered

/-- `overall_status`. -/
def overallStatus (outcomes : List VerificationOutcome) (p : VerificationPolicy) : String :=
  if outcomes.isEmpty then "PASS"
  else if outcomes.any p.shouldBlock then "FAIL"
  else if outcomes.any fun o => o ≠ .verified then "PARTIAL"
  else "PASS"

end Provenex
