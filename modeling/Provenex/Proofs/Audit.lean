import Provenex.Cli.Audit
import Provenex.Proofs.Fields
import Provenex.Proofs.LogCrash

/-! The audit of a receipt that was built from the log. The proof is that of the
fingerprint's last row; the source is filled from the row that `lookup` picks. -/

namespace Provenex.Cli

open MerkleSqlite (hex LeafRow lastRow)
open Sqlite (FingerprintRow DocumentRow orderedBefore orderedBefore_total orderedBefore_trans)

/-! ## Hexadecimal -/

theorem hexDigit_not_space : ∀ n < 16, isAsciiSpace (Json.hexDigit n) = false := by decide

theorem unhex_digits (b : Bytes) :
    unhex (b.flatMap fun x => [Json.hexDigit (x.toNat / 16), Json.hexDigit (x.toNat % 16)]) =
      some b := by
  induction b with
  | nil => rfl
  | cons x b ih =>
    have hhigh : x.toNat / 16 < 16 := by
      have := x.toNat_lt
      omega
    have hlow : x.toNat % 16 < 16 := Nat.mod_lt _ (by decide)
    have hbyte : UInt8.ofNat (16 * (x.toNat / 16) + x.toNat % 16) = x := by
      rw [Nat.div_add_mod, UInt8.ofNat_toNat]
    rw [List.flatMap_cons, List.cons_append, List.cons_append, List.nil_append, unhex,
      hexDigit_not_space _ hhigh, Json.hexValue_hexDigit _ hhigh, Json.hexValue_hexDigit _ hlow]
    simp [ih, hbyte]

theorem fromhex_hexdigest (b : Bytes) : fromhex (hexdigest b) = .ok b := by
  rw [fromhex, hexdigest, String.toList_ofList, unhex_digits]

/-- A hash is read back from the form in which the log writes it. -/
theorem hexOf_hex (b : Bytes) : hexOf (.str (hex b)) = .ok b := by
  have hlist : (hex b).toList = "sha256:".toList ++ (hexdigest b).toList := String.toList_append ..
  have hafter : afterColon (hex b) = hexdigest b := by
    rw [afterColon, hlist]
    exact String.ofList_toList
  have hcolon : ':' ∈ (hex b).toList := by
    rw [hlist]
    exact List.mem_append_left _ (by decide)
  rw [hexOf, if_pos hcolon, hafter, fromhex_hexdigest]

theorem hexOf_path (proof : List Bytes) :
    ((proof.map hex).map PyVal.str).mapM hexOf = .ok proof := by
  induction proof with
  | nil => rfl
  | cons p proof ih =>
    rw [List.map_cons, List.map_cons, List.mapM_cons, hexOf_hex, ih]
    rfl

theorem hex_truthy (b : Bytes) : (PyVal.str (hex b)).truthy = true := by
  have hne : hex b ≠ "" := by
    intro h
    have := congrArg String.toList h
    rw [hex, String.toList_append] at this
    exact absurd this (by simp)
  simpa [PyVal.truthy] using hne

/-! ## The sources of a receipt -/

section

variable {py : Stdlib} {reprExc : PyErr → String} {treeSize treeRoot : PyVal} {i : ℕ}

variable (py reprExc treeSize treeRoot i) in
/-- A source that is a mapping has at most one entry, under its own index. -/
theorem auditSource_dict (source : PyDict) :
    ∃ entry, auditSource py reprExc treeSize treeRoot i (.dict source) = .ok entry ∧
      ∀ x ∈ entry, x.1 = i := by
  simp only [auditSource, asMapping, bind, Except.bind]
  split
  · exact ⟨none, rfl, by simp⟩
  · exact ⟨none, rfl, by simp⟩
  · split
    · exact ⟨_, rfl, by simp⟩
    · exact ⟨_, rfl, by simp⟩
    · split
      · exact ⟨_, rfl, by simp⟩
      · exact ⟨_, rfl, by simp⟩

variable (py reprExc treeSize treeRoot) in
/-- The entries of the audit are those of the sources. -/
theorem auditSources_mem (i : ℕ) (sources : List PyDict) :
    ∃ out, auditSources py reprExc treeSize treeRoot i (sources.map .dict) = .ok out ∧
      ∀ x, x ∈ out ↔ ∃ j source, sources[j]? = some source ∧ x.1 = i + j ∧
        auditSource py reprExc treeSize treeRoot (i + j) (.dict source) = .ok (some x) := by
  induction sources generalizing i with
  | nil => exact ⟨[], rfl, by simp⟩
  | cons source sources ih =>
    obtain ⟨entry, hentry, hindex⟩ := auditSource_dict py reprExc treeSize treeRoot i source
    obtain ⟨out, hout, hmem⟩ := ih (i + 1)
    refine ⟨entry.toList ++ out, ?_, ?_⟩
    · rw [List.map_cons, auditSources, hentry]
      simp only [bind, Except.bind, hout]
    · intro x
      rw [List.mem_append, Option.mem_toList, hmem]
      constructor
      · rintro (hx | ⟨j, source', hj, hxj, haudit⟩)
        · refine ⟨0, source, rfl, hindex x hx, ?_⟩
          rw [Nat.add_zero, hentry, hx]
        · refine ⟨j + 1, source', hj, by omega, ?_⟩
          rwa [show i + (j + 1) = i + 1 + j by omega]
      · rintro ⟨j, source', hj, hxj, haudit⟩
        cases j with
        | zero =>
          obtain rfl : source = source' := Option.some.inj hj
          rw [Nat.add_zero, hentry] at haudit
          exact .inl (Except.ok.inj haudit)
        | succ j =>
          refine .inr ⟨j, source', hj, by omega, ?_⟩
          rwa [show i + 1 + j = i + (j + 1) by omega]

/-! ## A source that was added with its proof -/

section

variable {entry : IndexEntry} {b : ReceiptBuilder} {outcome : VerificationOutcome}
  {normalization : List String} {leafIndex : ℤ} {proof : List Bytes} {claims : Option (List Claim)}
  {contentSource : Option String} {leaf root : Bytes} {size : ℤ}

/-- The record that `add_source` appends for an entry and its proof. -/
def recordOf (b : ReceiptBuilder) (entry : IndexEntry) (outcome : VerificationOutcome)
    (normalization : List String) (leafIndex : ℤ) (proof : List Bytes)
    (claims : Option (List Claim)) (contentSource : Option String) : SourceRecord where
  chunkIndex := b.sources.length
  fingerprint := entry.fingerprint
  documentId := some entry.documentId
  documentVersion := some entry.documentVersion
  ingestedAt := some entry.ingestedAt
  chunkOffset := some entry.chunkOffset
  chunkLength := some entry.chunkLength
  authorized := some entry.authorized
  verificationOutcome := outcome
  normalizationApplied := normalization
  leafIndex := some leafIndex
  inclusionProof := some (proof.map hex)
  claims := claims.filter fun cs => ! cs.isEmpty
  contentSource := contentSource

/-- What a leaf is made of. -/
theorem record_fields {k : String} {v : PyVal}
    (h : (.str k, v) ∈ ([(.str "fingerprint", .str entry.fingerprint),
      (.str "document_id", .str entry.documentId),
      (.str "document_version", .str entry.documentVersion),
      (.str "ingested_at", .str entry.ingestedAt), (.str "chunk_offset", .int entry.chunkOffset),
      (.str "chunk_length", .int entry.chunkLength)] : PyDict)) :
    subscript (recordOf b entry outcome normalization leafIndex proof claims contentSource).toDict k
      = .ok v := by
  simp only [List.mem_cons, Prod.mk.injEq, PyAtom.str.injEq, List.not_mem_nil, or_false] at h
  rcases h with ⟨rfl, rfl⟩ | ⟨rfl, rfl⟩ | ⟨rfl, rfl⟩ | ⟨rfl, rfl⟩ | ⟨rfl, rfl⟩ | ⟨rfl, rfl⟩ <;>
    simp [recordOf, SourceRecord.toDict, subscript, getKey_cons, orNull, PyVal.ofOption]

theorem canonicalLeaf_record : canonicalLeaf py (recordOf b entry outcome normalization leafIndex
      proof claims contentSource).toDict =
    Sqlite.canonicalPayload entry.fingerprint entry.documentId entry.documentVersion
      entry.ingestedAt entry.chunkOffset entry.chunkLength := by
  unfold canonicalLeaf
  rw [record_fields (k := "fingerprint") (v := .str entry.fingerprint) (by simp),
    record_fields (k := "document_id") (v := .str entry.documentId) (by simp),
    record_fields (k := "document_version") (v := .str entry.documentVersion) (by simp),
    record_fields (k := "ingested_at") (v := .str entry.ingestedAt) (by simp),
    record_fields (k := "chunk_offset") (v := .int entry.chunkOffset) (by simp),
    record_fields (k := "chunk_length") (v := .int entry.chunkLength) (by simp)]
  rfl

theorem record_leafIndex : getOrNone (recordOf b entry outcome normalization leafIndex proof claims
    contentSource).toDict "leaf_index" = .int leafIndex := by
  simp [recordOf, SourceRecord.toDict, getOrNone, getKey_cons, orNull, optionalItem]

theorem record_inclusionProof : getOrNone (recordOf b entry outcome normalization leafIndex proof
    claims contentSource).toDict "inclusion_proof" = .list ((proof.map hex).map .str) := by
  simp [recordOf, SourceRecord.toDict, getOrNone, getKey_cons, orNull, optionalItem, strList]

variable (reprExc i b outcome normalization leafIndex proof claims contentSource root size) in
/-- The entry of such a source is the verifier's word on the payload of its row. -/
theorem auditSource_record (hleaf : Sqlite.canonicalPayload entry.fingerprint entry.documentId
      entry.documentVersion entry.ingestedAt entry.chunkOffset entry.chunkLength = .ok leaf) :
    ∃ msg, auditSource py reprExc (.int size) (.str (hex root)) i (.dict (recordOf b entry outcome
        normalization leafIndex proof claims contentSource).toDict) =
      .ok (some (i, Merkle.verifyInclusionProof py.sha256 leaf leafIndex size proof root, msg)) := by
  have hcheck : checkProof py (.int size) (.str (hex root)) (recordOf b entry outcome normalization
      leafIndex proof claims contentSource).toDict (.list ((proof.map hex).map .str))
        (.int leafIndex) =
      .ok (Merkle.verifyInclusionProof py.sha256 leaf leafIndex size proof root, proof.length) := by
    simp only [checkProof, canonicalLeaf_record, hleaf, iterate, hexOf_path, hexOf_hex, toInt, bind,
      Except.bind]
  simp only [auditSource, asMapping, bind, Except.bind, record_inclusionProof, record_leafIndex,
    hex_truthy, hcheck]
  exact ⟨_, rfl⟩

/-! ## The receipt -/

theorem receipt_log {r : ProvenanceReceipt} {log : PyDict} (h : r.transparencyLog = some log) :
    getOrNone r.toDict "transparency_log" = .dict log := by
  rw [r.get_transparencyLog, h]
  rfl

variable (reprExc entry) in
/-- On a receipt with the head of the log, the entry of a source that was added with its proof. -/
theorem audit_record {r : ProvenanceReceipt} {later : List SourceRecord}
    (hsources : r.sources = (b.addSource entry.fingerprint outcome (some entry) normalization
      (some leafIndex) (some (proof.map hex)) claims contentSource).sources ++ later)
    (hlog : r.transparencyLog =
      some [(.str "tree_size", .int size), (.str "tree_root", .str (hex root))])
    (hleaf : Sqlite.canonicalPayload entry.fingerprint entry.documentId entry.documentVersion
      entry.ingestedAt entry.chunkOffset entry.chunkLength = .ok leaf) :
    ∃ out, auditInclusionProofs py reprExc r.toDict = .ok out ∧
      ((∃ msg, (b.sources.length, true, msg) ∈ out) ↔
        Merkle.verifyInclusionProof py.sha256 leaf leafIndex size proof root = true) := by
  have hdicts : r.sources.map (fun s => PyVal.dict s.toDict) =
      (r.sources.map SourceRecord.toDict).map .dict := by
    rw [List.map_map]
    rfl
  have horElse (xs : List PyVal) : (PyVal.list xs).orElse (.list []) = .list xs := by
    cases xs <;> rfl
  obtain ⟨out, hout, hmem⟩ := auditSources_mem py reprExc (.int size)
    (.str (hex root)) 0 (r.sources.map SourceRecord.toDict)
  have hat : (r.sources.map SourceRecord.toDict)[b.sources.length]? = some (recordOf b entry outcome
      normalization leafIndex proof claims contentSource).toDict := by
    rw [List.getElem?_map, hsources]
    simp [ReceiptBuilder.addSource, recordOf]
  obtain ⟨msg, hrecord⟩ := auditSource_record reprExc (0 + b.sources.length) b outcome normalization
    leafIndex proof claims contentSource root size hleaf
  refine ⟨out, ?_, ?_⟩
  · rw [auditInclusionProofs, receipt_log hlog, ProvenanceReceipt.get_sources, hdicts, horElse]
    exact hout
  · constructor
    · rintro ⟨msg', hin⟩
      obtain ⟨j, source, hj, hxj, haudit⟩ := (hmem _).mp hin
      obtain rfl : j = b.sources.length := by simpa using hxj.symm
      rw [hat] at hj
      rw [← Option.some.inj hj, hrecord] at haudit
      simp only [Except.ok.injEq, Option.some.injEq, Prod.mk.injEq] at haudit
      exact haudit.2.1
    · intro hverify
      rw [hverify] at hrecord
      refine ⟨msg, (hmem _).mpr ⟨b.sources.length, _, hat, by simp, ?_⟩⟩
      simpa using hrecord

end

end

/-! ## Which row is picked -/

/-- Of the rows of the fingerprint, in the order in which the query visits them, the one that was
inserted last is the first in `ORDER BY superseded ASC, ingested_at DESC`. -/
def LastIsFirst (plan : Sqlite.QueryPlan) (t : Sqlite.Tables) (fp : String) : Prop :=
  ∃ r d, lastRow t.fingerprints fp = some r ∧
    Rows.First orderedBefore (plan.scan (t.joined fp)) (r, d)

/-- The row that the query returns is the first. -/
theorem lookup_first {plan : Sqlite.QueryPlan} {conn : Sqlite.Connection} {fp : String}
    {entry : IndexEntry} (h : Sqlite.lookup plan conn fp = some entry) :
    ∃ row, Rows.First orderedBefore (plan.scan (conn.tables.joined fp)) row ∧
      entry = Sqlite.entryOf row := by
  obtain ⟨row, hrow, heq⟩ := Option.map_eq_some_iff.mp h
  exact ⟨row, (Rows.head?_insertionSort orderedBefore_total orderedBefore_trans).mp hrow, heq.symm⟩

theorem first_unique {l : List (FingerprintRow × DocumentRow)} {x y : FingerprintRow × DocumentRow}
    (hx : Rows.First orderedBefore l x) (hy : Rows.First orderedBefore l y) : x = y := by
  have hsort (z : FingerprintRow × DocumentRow) :
      (l.insertionSort orderedBefore).head? = some z ↔ Rows.First orderedBefore l z :=
    Rows.head?_insertionSort orderedBefore_total orderedBefore_trans
  exact Option.some.inj (((hsort x).mpr hx).symm.trans ((hsort y).mpr hy))

/-- The byte strings that are hashed for the leaves of the log and for the audit of one source. -/
def hashedInputs (py : Stdlib) (leaves : List LeafRow) (payload : Bytes) (i : ℕ)
    (proof : List Bytes) : Set Bytes :=
  {b | b ∈ Merkle.treeInputs py.sha256 (leaves.map (·.leafBytes)) ∨
    b ∈ Merkle.verifierInputs py.sha256 payload i leaves.length proof}

section

variable {py : Stdlib} {secret : Bytes} {s : MerkleSqlite.Index} {row : FingerprintRow × DocumentRow}
  {last : FingerprintRow} {payload leaf : Bytes} {plan : Sqlite.QueryPlan}

/-- Two rows of the table have the same bytes only if they are one. -/
theorem lastIsFirst_iff (h : MerkleSqlite.Inv py secret s)
    (hfirst : Rows.First orderedBefore (plan.scan (s.conn.tables.joined row.1.fingerprint)) row)
    (hheld : row.1 ∈ s.conn.tables.fingerprints) (hpay : row.1.payload = .ok payload)
    (hlast : lastRow s.conn.tables.fingerprints row.1.fingerprint = some last)
    (hlastHeld : last ∈ s.conn.tables.fingerprints) (hpayLast : last.payload = .ok leaf) :
    LastIsFirst plan s.conn.tables row.1.fingerprint ↔ payload = leaf := by
  constructor
  · rintro ⟨r, d, hr, hrd⟩
    obtain rfl : (r, d) = row := first_unique hrd hfirst
    obtain rfl : last = r := Option.some.inj (hlast.symm.trans hr)
    exact Except.ok.inj (hpay.symm.trans hpayLast)
  · rintro rfl
    have hkey : last.key = row.1.key := MerkleSqlite.payload_key hpayLast hpay
    have heq : last = row.1 := List.inj_on_of_nodup_map h.consistent.keys hlastHeld hheld hkey
    rw [heq] at hlast
    exact ⟨row.1, row.2, hlast, hfirst⟩

/-- The verifier's word on a payload under the path to another leaf. -/
theorem verify_payload (hlen : ∀ b, (py.sha256 b).length = 32) {leaves : List LeafRow} {i : ℕ}
    (hleaf : (leaves.map (·.leafBytes))[i]? = some leaf) (payload : Bytes) :
    let path := HashTree.path (Merkle.hashNode py.sha256) []
      (leaves.map fun l => Merkle.hashLeaf py.sha256 l.leafBytes) i
    let valid := Merkle.verifyInclusionProof py.sha256 payload i leaves.length path
      (HashTree.root (Merkle.hashNode py.sha256) []
        (leaves.map fun l => Merkle.hashLeaf py.sha256 l.leafBytes)) = true
    (payload = leaf → valid) ∧
      (Set.InjOn py.sha256 (hashedInputs py leaves payload i path) → (valid ↔ payload = leaf)) := by
  have hi : i < (leaves.map (·.leafBytes)).length := (List.getElem?_eq_some_iff.mp hleaf).1
  have hpath := Merkle.verify_path py.sha256 hleaf
  rw [List.length_map, List.map_map] at hpath
  refine ⟨?_, ?_⟩
  · rintro rfl
    exact hpath
  · intro hinj
    have hinj' : Set.InjOn py.sha256 {x | x ∈ Merkle.treeInputs py.sha256 (leaves.map (·.leafBytes)) ∨
        x ∈ Merkle.verifierInputs py.sha256 payload i (leaves.map (·.leafBytes)).length
          (HashTree.path (Merkle.hashNode py.sha256) []
            (leaves.map fun l => Merkle.hashLeaf py.sha256 l.leafBytes) i)} := by
      rw [List.length_map]
      exact hinj
    have hiff := Merkle.verify_iff py.sha256 hlen hi hinj'
    rw [List.length_map, List.map_map] at hiff
    refine hiff.trans ?_
    rw [hleaf]
    constructor
    · rintro ⟨heq, -⟩
      exact (Option.some.inj heq).symm
    · rintro rfl
      exact ⟨rfl, rfl⟩

end

/-- A receipt with the head of the log, and a source that was added from `lookup` with the proof of
`inclusion_proof`: the audit reports it valid if the two are about one row, and, where SHA-256 does
not collide on what was hashed, only then. -/
theorem audit_from_log {py : Stdlib} {secret : Bytes} (reprExc : PyErr → String)
    (hlen : ∀ b, (py.sha256 b).length = 32) (plan : Sqlite.QueryPlan)
    (events : List MerkleSqlite.Event)
    (hsafe : MerkleSqlite.EachSafe py secret (.init py) events) (fp : String) (entry : IndexEntry)
    (hentry : Sqlite.lookup plan (MerkleSqlite.afterAll py secret events (.init py)).conn fp =
      some entry) :
    let s := MerkleSqlite.afterAll py secret events (.init py)
    ∃ (leaf : Bytes) (i : ℕ) (proof : List Bytes) (payload root : Bytes)
      (s₁ s₂ : MerkleSqlite.Index),
      s.inclusionProof py fp = .ok ((leaf, i, proof.map hex), s₁) ∧
      s₁.treeRoot py = .ok (hex root, s₂) ∧
      Sqlite.canonicalPayload entry.fingerprint entry.documentId entry.documentVersion
        entry.ingestedAt entry.chunkOffset entry.chunkLength = .ok payload ∧
      ∀ (b : ReceiptBuilder) outcome normalization claims contentSource later
        (r : ProvenanceReceipt),
        r.sources = (b.addSource fp outcome (some entry) normalization (some (i : ℤ))
          (some (proof.map hex)) claims contentSource).sources ++ later →
        r.transparencyLog =
          some [(.str "tree_size", .int s₂.treeSize), (.str "tree_root", .str (hex root))] →
        ∃ out, auditInclusionProofs py reprExc r.toDict = .ok out ∧
          (LastIsFirst plan s.conn.tables fp → ∃ msg, (b.sources.length, true, msg) ∈ out) ∧
          (Set.InjOn py.sha256 (hashedInputs py s.leaves payload i proof) →
            ((∃ msg, (b.sources.length, true, msg) ∈ out) ↔ LastIsFirst plan s.conn.tables fp)) := by
  have h : MerkleSqlite.Inv py secret (MerkleSqlite.afterAll py secret events (.init py)) :=
    MerkleSqlite.init_inv.afterAll hsafe
  generalize MerkleSqlite.afterAll py secret events (.init py) = s at h hentry
  obtain ⟨row, hfirst, rfl⟩ := lookup_first hentry
  have hjoined := hfirst.mem
  rw [(plan.perm _).mem_iff, Sqlite.mem_joined] at hjoined
  obtain ⟨hheld, rfl, -⟩ := hjoined
  obtain ⟨last, hlast, hlastHeld, -⟩ := MerkleSqlite.lastRow_held ⟨row.1, hheld, rfl⟩
  obtain ⟨i, leaf, s₁, s₂, hleaf, hpayLast, hproof, hroot, hsize⟩ := h.inclusionProof hlast
  obtain ⟨payload, hpay, -⟩ := h.consistent.signed row.1 hheld
  have hpicked := lastIsFirst_iff h hfirst hheld hpay hlast hlastHeld hpayLast
  obtain ⟨hif, hiff⟩ := verify_payload hlen hleaf payload
  refine ⟨leaf, i, _, payload, _, s₁, s₂, hproof, hroot, hpay, ?_⟩
  intro b outcome normalization claims contentSource later r hsources hlog
  obtain ⟨out, hout, hvalid⟩ := audit_record reprExc (Sqlite.entryOf row) hsources hlog
    hpay
  rw [hsize] at hvalid
  refine ⟨out, hout, ?_, ?_⟩
  · intro hpick
    exact hvalid.mpr (hif (hpicked.mp hpick))
  · intro hinj
    exact hvalid.trans ((hiff hinj).trans hpicked.symm)

open Sqlite.Sample (secret plan)
open MerkleSqlite.Sample (first firstLeaf)

namespace Sample

def macOther : Bytes :=
  [66, 225, 13, 51, 67, 133, 86, 50, 94, 210, 186, 72, 223, 37, 171, 51, 203, 70, 231, 113, 192, 232,
   5, 0, 73, 147, 163, 226, 66, 119, 174, 73]

def otherLeaf : Bytes :=
  [176, 27, 123, 240, 169, 79, 55, 49, 47, 79, 106, 14, 74, 170, 181, 173, 7, 147, 123, 46, 114, 89,
   195, 69, 123, 73, 7, 255, 137, 250, 181, 55]

/-- The root of the two leaves, and of the first one twice. -/
def root : Bytes :=
  [250, 12, 100, 189, 144, 220, 28, 234, 91, 161, 199, 230, 119, 236, 170, 130, 14, 88, 238, 60, 49,
   87, 22, 128, 230, 38, 85, 203, 3, 37, 249, 180]

def wrongRoot : Bytes :=
  [254, 112, 178, 186, 255, 154, 59, 183, 128, 90, 72, 218, 129, 0, 57, 40, 141, 126, 69, 167, 158,
   54, 113, 156, 97, 54, 214, 104, 4, 120, 246, 175]

def firstPayload : Bytes :=
  encodeUtf8 "sha256:aa\ndoc\nsha256:01\n2024-01-01T00:00:00.000Z\n0\n5"

def otherPayload : Bytes :=
  encodeUtf8 "sha256:aa\nother\nsha256:01\n2024-01-02T00:00:00.000Z\n0\n5"

def digests : List (Bytes × Bytes) :=
  [(Merkle.leafInput firstPayload, firstLeaf), (Merkle.leafInput otherPayload, otherLeaf),
    (Merkle.nodeInput (firstLeaf, otherLeaf), root),
    (Merkle.nodeInput (firstLeaf, firstLeaf), wrongRoot)]

def py : Stdlib :=
  { Stdlib.blank with
    sha256 := fun b => (digests.lookup b).getD (List.replicate 32 0)
    hmacSha256 := fun _ payload =>
      (([(firstPayload, Sqlite.Sample.macFirst), (otherPayload, macOther)] : List (Bytes × Bytes)).lookup
        payload).getD (List.replicate 32 0)
    str := fun v => match v with
      | .int i => toString i
      | _ => "" }

def reprExc (_ : PyErr) : String := ""

/-- One chunk, in two documents. -/
def shared : List MerkleSqlite.Op :=
  [.call (.add "2024-01-01T00:00:00.000Z" first),
    .call (.add "2024-01-02T00:00:00.000Z" ⟨"sha256:aa", "other", "sha256:01", 0, 5, true⟩)]

/-- The second document goes on to another version. -/
def superseded : List MerkleSqlite.Op := shared ++ [.call (.supersede "other" "sha256:02")]

def after (ops : List MerkleSqlite.Op) : MerkleSqlite.Index :=
  MerkleSqlite.afterAll py secret (ops.map .op) (.init py)

def receipt (sources : List SourceRecord) (size : ℤ) (root : String) : ProvenanceReceipt where
  receiptId := "id"
  issuedAt := "2024-01-03T00:00:00.000Z"
  outputHash := ""
  sources := sources
  policy := .default
  summary := []
  signature := none
  transparencyLog := some [(.str "tree_size", .int size), (.str "tree_root", .str root)]
  trajectory := none
  accessControl := none
  actions := []
  toolCallControl := none
  callerHash := none

def source (entry : IndexEntry) (i : ℤ) (proof : List String) : List SourceRecord :=
  ((ReceiptBuilder.init .default).addSource "sha256:aa" .verified (some entry) [] (some i)
    (some proof) none none).sources

def otherEntry : IndexEntry :=
  ⟨"sha256:aa", "other", "sha256:01", "2024-01-02T00:00:00.000Z", 0, 5, true, false,
    hexdigest macOther⟩

def firstEntry : IndexEntry :=
  ⟨"sha256:aa", "doc", "sha256:01", "2024-01-01T00:00:00.000Z", 0, 5, true, false,
    hexdigest Sqlite.Sample.macFirst⟩

end Sample

theorem audit_from_log_sample :
    ∃ (leaf : Bytes) (i : ℕ) (proof : List Bytes) (root : Bytes) (s₁ s₂ : MerkleSqlite.Index) (out : _)
      (msg : _),
      (Sample.after Sample.shared).inclusionProof Sample.py "sha256:aa" =
        .ok ((leaf, i, proof.map hex), s₁) ∧ s₁.treeRoot Sample.py = .ok (hex root, s₂) ∧
      auditInclusionProofs Sample.py Sample.reprExc (Sample.receipt (Sample.source Sample.otherEntry i
        (proof.map hex)) s₂.treeSize (hex root)).toDict = .ok out ∧ (0, true, msg) ∈ out := by
  have hlen (b : Bytes) : (Sample.py.sha256 b).length = 32 :=
    Merkle.Sample.lookup_length (show ∀ p ∈ Sample.digests, p.2.length = 32 by decide +kernel) b
  have hentry : Sqlite.lookup plan (Sample.after Sample.shared).conn "sha256:aa" =
      some Sample.otherEntry := by decide +kernel
  obtain ⟨leaf, i, proof, payload, root, s₁, s₂, hproof, hroot, -, haudit⟩ :=
    audit_from_log Sample.reprExc hlen plan (Sample.shared.map .op)
      (MerkleSqlite.eachSafe_ops _ Sample.shared) "sha256:aa" Sample.otherEntry hentry
  have hpick : LastIsFirst plan (Sample.after Sample.shared).conn.tables "sha256:aa" := by
    refine ⟨⟨"sha256:aa", "other", "sha256:01", "2024-01-02T00:00:00.000Z", 0, 5, 0,
      hexdigest Sample.macOther⟩, ⟨"other", 1, "sha256:01"⟩, by decide +kernel, ?_⟩
    rw [← Rows.head?_insertionSort orderedBefore_total orderedBefore_trans]
    decide +kernel
  obtain ⟨out, hout, hvalid, -⟩ := haudit (.init .default) .verified [] none none []
    (Sample.receipt (Sample.source Sample.otherEntry i (proof.map hex)) s₂.treeSize (hex root))
    (List.append_nil _).symm rfl
  obtain ⟨msg, hmsg⟩ := hvalid hpick
  exact ⟨leaf, i, proof, root, s₁, s₂, out, msg, hproof, hroot, hout, hmsg⟩

/-- The chunk's last leaf is of the row that was superseded; `lookup` picks the other one. -/
theorem audit_rejects_own_log :
    let s := Sample.after Sample.superseded
    Sqlite.lookup plan s.conn "sha256:aa" = some Sample.firstEntry ∧
      (s.inclusionProof Sample.py "sha256:aa").map Prod.fst =
        .ok (Sample.otherPayload, 1, [hex firstLeaf]) ∧
      s.treeSize = 2 ∧ (s.treeRoot Sample.py).map Prod.fst = .ok (hex Sample.root) ∧
      auditInclusionProofs Sample.py Sample.reprExc (Sample.receipt (Sample.source Sample.firstEntry 1
        [hex firstLeaf]) 2 (hex Sample.root)).toDict =
          .ok [(0, false, "1 hashes against tree_size=2: INVALID")] := by
  refine ⟨?_, ?_, ?_, ?_, ?_⟩ <;> decide +kernel

end Provenex.Cli
