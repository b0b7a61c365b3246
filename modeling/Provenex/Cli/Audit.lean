import Provenex.Core.Merkle
import Provenex.Index.Sqlite
import Provenex.Policy.Rules
import Provenex.Py.Convert

/-! `cli/main.py`: the audit of the inclusion proofs on a receipt. `reprExc` is
`repr` of an exception. -/

namespace Provenex.Cli

section

variable (py : Stdlib) (reprExc : PyErr → String)

/-- `_canonical_leaf` -/
def canonicalLeaf (source : PyDict) : Except PyErr Bytes := do
  let fingerprint ← subscript source "fingerprint"
  let documentId ← subscript source "document_id"
  let documentVersion ← subscript source "document_version"
  let ingestedAt ← subscript source "ingested_at"
  let chunkOffset ← subscript source "chunk_offset" >>= toInt py
  let chunkLength ← subscript source "chunk_length" >>= toInt py
  Sqlite.canonicalPayload (py.format fingerprint) (py.format documentId) (py.format documentVersion)
    (py.format ingestedAt) chunkOffset chunkLength

/-- `s.split(":", 1)[1]`, of a text with a colon. -/
def afterColon (s : String) : String := String.ofList (s.toList.dropWhile fun c => c ≠ ':').tail

/-- `_hex_of`. Containers have an `in`, and fail at what comes after it. -/
def hexOf : PyVal → Except PyErr Bytes
  | .atom (.str s) => if ':' ∈ s.toList then fromhex (afterColon s) else fromhex s
  | .list xs => .error (if inList (.str ":") xs then .attributeError else .typeError none)
  | .dict d => .error (if hasKey d ":" then .attributeError else .typeError none)
  | .atom _ => .error (.typeError none)

/-- The `try` block: the verdict, and the number of hashes. -/
def checkProof (treeSize treeRoot : PyVal) (source : PyDict) (proof leafIndex : PyVal) :
    Except PyErr (Bool × ℕ) := do
  let leaf ← canonicalLeaf py source
  let proofBytes ← (← iterate proof).mapM hexOf
  let rootBytes ← hexOf treeRoot
  let leafIndex ← toInt py leafIndex
  let size ← toInt py treeSize
  .ok (Merkle.verifyInclusionProof py.sha256 leaf leafIndex size proofBytes rootBytes,
    proofBytes.length)

/-- One turn of the loop: the entry for the source, unless it is skipped. -/
def auditSource (treeSize treeRoot : PyVal) (i : ℕ) (source : PyVal) :
    Except PyErr (Option (ℕ × Bool × String)) := do
  let source ← asMapping source .attributeError
  match getOrNone source "inclusion_proof", getOrNone source "leaf_index" with
  | .none, _ => .ok none
  | _, .none => .ok none
  | proof, leafIndex =>
    match treeRoot.truthy, treeSize with
    | false, _ =>
      .ok (some (i, false, "source has inclusion_proof but no transparency_log on receipt"))
    | true, .none =>
      .ok (some (i, false, "source has inclusion_proof but no transparency_log on receipt"))
    | true, treeSize =>
      match checkProof py treeSize treeRoot source proof leafIndex with
      | .ok (ok, hashes) =>
        .ok (some (i, ok, toString hashes ++ " hashes against tree_size=" ++ py.format treeSize ++
          ": " ++ if ok then "valid" else "INVALID"))
      | .error e => .ok (some (i, false, "could not verify: " ++ reprExc e))

def auditSources (treeSize treeRoot : PyVal) : ℕ → List PyVal →
    Except PyErr (List (ℕ × Bool × String))
  | _, [] => .ok []
  | i, source :: rest => do
    let entry ← auditSource py reprExc treeSize treeRoot i source
    let out ← auditSources treeSize treeRoot (i + 1) rest
    .ok (entry.toList ++ out)

/-- `_audit_inclusion_proofs` -/
def auditInclusionProofs (receipt : PyDict) : Except PyErr (List (ℕ × Bool × String)) := do
  let log ← asMapping ((getOrNone receipt "transparency_log").orElse (.dict [])) .attributeError
  let treeSize := getOrNone log "tree_size"
  let treeRoot := getOrNone log "tree_root"
  let sources ← iterate ((getOrNone receipt "sources").orElse (.list []))
  auditSources py reprExc treeSize treeRoot 0 sources

end

end Provenex.Cli
