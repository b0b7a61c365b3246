import Provenex.Core.Receipt
import Provenex.Policy.Rules
import Provenex.Py.Convert
import Provenex.Py.Loads

/-! `core/receipt.py`: a receipt as JSON text, and the check of its signature. -/

namespace Provenex

/-- `to_json` -/
def ProvenanceReceipt.toJson (py : Stdlib) (indent : Option ℕ) (r : ProvenanceReceipt) :
    Except PyErr String :=
  dumpsIndent py indent (.dict r.toDict)

/-- A signer, with its `verify`. -/
structure VerifyingSigner extends ReceiptSigner where
  verify : Bytes → PyVal → Except PyErr Bool

/-- The default `verify`: sign again, and compare. -/
def ReceiptSigner.resigning (s : ReceiptSigner) : VerifyingSigner where
  toReceiptSigner := s
  verify := fun payload signature =>
    match signature with
    | .str value => compareDigest (s.sign payload) value
    | _ => .error (.typeError none)

/-- `verify_receipt_signature` -/
def verifyReceiptSignature (py : Stdlib) (receipt : PyDict) (signer : VerifyingSigner) :
    Except PyErr Bool :=
  if ¬ (getOrNone receipt "signature").truthy then .ok false
  else do
    let sig ← asMapping (getOrNone receipt "signature") .attributeError
    if ¬ (getOrNone sig "algorithm").eq (.str signer.algorithm) then .ok false
    else do
      let payload ← canonicalBytes py (.dict (receipt.filter fun e => ! e.1.eq (.str "signature")))
      signer.verify payload ((getOrNone sig "value").orElse (.str ""))

end Provenex
