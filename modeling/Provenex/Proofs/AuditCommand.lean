import Provenex.Cli.Commands
import Provenex.Proofs.AppendOnly
import Provenex.Proofs.Audit
import Provenex.Proofs.Binding

/-! What the exit code of `audit` stands for. A receipt that passes was signed with
the key at hand, and each of its sources that has a proof is a leaf of the log
whose head the receipt names, now and at every later time. -/

namespace Provenex.Cli

open Guard
open MerkleSqlite (Access accessed hex)

/-! ## The signature -/

section

variable {py : Stdlib} {env : Environment} {args : AuditArgs} {receipt : PyDict}
  {reprExc : PyErr → String} {parseFloat : String → PyFloat}
  {addFloat : Total → Total → Except PyErr PyFloat}

/-- The signature on the receipt is that of the rest of it, under the key of the audit. -/
def Authentic (py : Stdlib) (env : Environment) (args : AuditArgs) (receipt : PyDict) : Prop :=
  ∃ sig payload value, getOrNone receipt "signature" = .dict sig ∧
    canonicalBytes py (.dict (withoutSignature receipt)) = .ok payload ∧
    (getOrNone sig "value").orElse (.str "") = .str value ∧
    ((∃ verifies bytes, args.publicKey = some (.loaded verifies) ∧ unhex value.toList = some bytes ∧
        verifies bytes payload = true) ∨
      args.publicKey = none ∧ ∃ secret, env.resolveReceiptSecret = .ok secret ∧
        value = hexdigest (py.hmacSha256 secret payload))

/-- What a signature that verifies is of. -/
theorem verified_payload {signer : VerifyingSigner}
    (h : verifyReceiptSignature py receipt signer = .ok true) :
    ∃ sig payload, getOrNone receipt "signature" = .dict sig ∧
      canonicalBytes py (.dict (withoutSignature receipt)) = .ok payload ∧
      signer.verify payload ((getOrNone sig "value").orElse (.str "")) = .ok true := by
  obtain ⟨sig, hsig, halg⟩ := verified_signed h
  rw [verify_signed hsig halg] at h
  obtain ⟨payload, hpayload, hverify⟩ := bind_ok.mp h
  exact ⟨sig, payload, hsig, hpayload, hverify⟩

theorem ed25519_true {verifies : Bytes → Bytes → Bool} {payload : Bytes} {v : PyVal}
    (h : (ed25519Verifier verifies).verify payload v = .ok true) :
    ∃ value bytes, v = .str value ∧ unhex value.toList = some bytes ∧
      verifies bytes payload = true := by
  unfold ed25519Verifier at h
  dsimp only at h
  split at h
  · next value =>
    split at h
    · next bytes hbytes => exact ⟨value, bytes, rfl, hbytes, Except.ok.inj h⟩
    · cases h
  · cases h

theorem authentic_of (hunsigned : args.unsigned = false) {msg : String}
    (h : auditSignature py env args receipt = .ok (true, msg)) : Authentic py env args receipt := by
  unfold auditSignature at h
  simp only [hunsigned, Bool.false_eq_true, if_false] at h
  by_cases htruthy : (getOrNone receipt "signature").truthy = true
  · rw [if_neg (not_not.mpr htruthy)] at h
    obtain ⟨sig, -, h⟩ := bind_ok.mp h
    split at h
    · cases h
    · cases h
    · next verifies hkey =>
      by_cases halg : (getOrNone sig "algorithm").eq (.str "ed25519") = true
      · rw [if_neg (not_not.mpr halg)] at h
        obtain ⟨ok, hverify, hok⟩ := map_ok.mp h
        obtain ⟨rfl, -⟩ := Prod.mk.inj hok
        obtain ⟨sig', payload, hsig', hpayload, hverify⟩ := verified_payload hverify
        obtain ⟨value, bytes, hvalue, hbytes, haccepts⟩ := ed25519_true hverify
        exact ⟨sig', payload, value, hsig', hpayload, hvalue,
          .inl ⟨verifies, bytes, hkey, hbytes, haccepts⟩⟩
      · rw [if_pos halg] at h
        cases h
    · next hkey =>
      split at h
      · next secret _ hsecret =>
        by_cases halg : (getOrNone sig "algorithm").eq (.str "hmac-sha256") = true
        · rw [if_neg (not_not.mpr halg)] at h
          obtain ⟨ok, hverify, hok⟩ := map_ok.mp h
          obtain ⟨rfl, -⟩ := Prod.mk.inj hok
          obtain ⟨sig', payload, hsig', hpayload, hverify⟩ := verified_payload hverify
          have hascii : ∀ payload, isAscii ((hmacSha256Signer py secret).sign payload) = true :=
            fun payload => hexdigest_ascii (py.hmacSha256 secret payload)
          have hvalue := (resigning_true hascii).mp hverify
          exact ⟨sig', payload, _, hsig', hpayload, hvalue, .inr ⟨hkey, secret, hsecret, rfl⟩⟩
        · rw [if_pos halg] at h
          cases h
      · cases h
  · rw [if_pos htruthy] at h
    cases h

/-! ## The sources -/

/-- A source with its proof, on a receipt. -/
def Proven (receipt source : PyDict) : Prop :=
  ∃ sources, (getOrNone receipt "sources").orElse (.list []) = .list sources ∧
    .dict source ∈ sources ∧ getOrNone source "inclusion_proof" ≠ .none ∧
    getOrNone source "leaf_index" ≠ .none

/-- The head that a receipt names. -/
def Names (py : Stdlib) (receipt : PyDict) (size : ℤ) (root : Bytes) : Prop :=
  ∃ log, (getOrNone receipt "transparency_log").orElse (.dict []) = .dict log ∧
    toInt py (getOrNone log "tree_size") = .ok size ∧ hexOf (getOrNone log "tree_root") = .ok root

/-- The hashes of a source's proof. -/
def proofPath (source : PyDict) : Except PyErr (List Bytes) := do
  (← iterate (getOrNone source "inclusion_proof")).mapM hexOf

/-- The verifier's word on a source. -/
def Accepted (py : Stdlib) (size : ℤ) (root : Bytes) (source : PyDict) : Prop :=
  ∃ leaf i path, canonicalLeaf py source = .ok leaf ∧
    toInt py (getOrNone source "leaf_index") = .ok i ∧ proofPath source = .ok path ∧
    Merkle.verifyInclusionProof py.sha256 leaf i size path root = true

theorem checkProof_true {treeSize treeRoot : PyVal} {source : PyDict} {n : ℕ} {size : ℤ} {root : Bytes}
    (hsize : toInt py treeSize = .ok size) (hroot : hexOf treeRoot = .ok root)
    (h : checkProof py treeSize treeRoot source (getOrNone source "inclusion_proof")
      (getOrNone source "leaf_index") = .ok (true, n)) : Accepted py size root source := by
  unfold checkProof at h
  obtain ⟨leaf, hleaf, h⟩ := bind_ok.mp h
  obtain ⟨hashes, hhashes, h⟩ := bind_ok.mp h
  obtain ⟨path, hpath, h⟩ := bind_ok.mp h
  obtain ⟨root', hroot', h⟩ := bind_ok.mp h
  obtain ⟨i, hi, h⟩ := bind_ok.mp h
  obtain ⟨size', hsize', h⟩ := bind_ok.mp h
  obtain rfl := Except.ok.inj (hroot.symm.trans hroot')
  obtain rfl := Except.ok.inj (hsize.symm.trans hsize')
  exact ⟨leaf, i, path, hleaf, hi, bind_ok.mpr ⟨hashes, hhashes, hpath⟩,
    (Prod.mk.inj (Except.ok.inj h)).1⟩

/-- The entry of a source with a proof, on a receipt whose head can be read. -/
theorem auditSource_proven {treeSize treeRoot : PyVal} {source : PyDict} {j : ℕ}
    {entry : Option (ℕ × Bool × String)} {size : ℤ} {root : Bytes}
    (hproof : getOrNone source "inclusion_proof" ≠ .none)
    (hindex : getOrNone source "leaf_index" ≠ .none) (hsize : toInt py treeSize = .ok size)
    (hroot : hexOf treeRoot = .ok root)
    (h : auditSource py reprExc treeSize treeRoot j (.dict source) = .ok entry) :
    ∃ ok msg, entry = some (j, ok, msg) ∧ (ok = true → Accepted py size root source) := by
  simp only [auditSource, asMapping, bind, Except.bind] at h
  split at h
  · obtain rfl := Except.ok.inj h
    exact ⟨false, _, rfl, by simp⟩
  · obtain rfl := Except.ok.inj h
    exact ⟨false, _, rfl, by simp⟩
  · split at h
    · next ok hashes hcheck =>
      obtain rfl := Except.ok.inj h
      refine ⟨ok, _, rfl, fun hok => ?_⟩
      rw [hok] at hcheck
      exact checkProof_true hsize hroot hcheck
    · obtain rfl := Except.ok.inj h
      exact ⟨false, _, rfl, by simp⟩

/-- If no entry says that a proof is invalid, every source with a proof was accepted. -/
theorem auditSources_accepted {treeSize treeRoot : PyVal} {size : ℤ} {root : Bytes}
    (hsize : toInt py treeSize = .ok size) (hroot : hexOf treeRoot = .ok root) {sources : List PyVal}
    {j : ℕ} {out : List (ℕ × Bool × String)}
    (h : auditSources py reprExc treeSize treeRoot j sources = .ok out)
    (hall : out.all (·.2.1) = true) {source : PyDict} (hmem : .dict source ∈ sources)
    (hproof : getOrNone source "inclusion_proof" ≠ .none)
    (hindex : getOrNone source "leaf_index" ≠ .none) : Accepted py size root source := by
  induction sources generalizing j out with
  | nil => cases hmem
  | cons v sources ih =>
    rw [auditSources] at h
    obtain ⟨entry, hentry, h⟩ := bind_ok.mp h
    obtain ⟨rest, hrest, h⟩ := bind_ok.mp h
    obtain rfl := Except.ok.inj h
    rw [List.all_append, Bool.and_eq_true] at hall
    rcases List.mem_cons.mp hmem with rfl | hmem
    · obtain ⟨ok, msg, rfl, haccepted⟩ := auditSource_proven hproof hindex hsize hroot hentry
      exact haccepted (by simpa using hall.1)
    · exact ih hrest hall.2 hmem

theorem inclusionProofs_accepted {out : List (ℕ × Bool × String)} {size : ℤ} {root : Bytes}
    (hnames : Names py receipt size root) (h : auditInclusionProofs py reprExc receipt = .ok out)
    (hall : out.all (·.2.1) = true) {source : PyDict} (hproven : Proven receipt source) :
    Accepted py size root source := by
  obtain ⟨log, hlog, hsize, hroot⟩ := hnames
  obtain ⟨sources, hsources, hmem, hproof, hindex⟩ := hproven
  unfold auditInclusionProofs at h
  obtain ⟨log', hlog', h⟩ := bind_ok.mp h
  obtain ⟨sources', hsources', h⟩ := bind_ok.mp h
  rw [hlog, asMapping, Except.ok.injEq] at hlog'
  rw [hsources, iterate, Except.ok.injEq] at hsources'
  subst hlog' hsources'
  exact auditSources_accepted hsize hroot h hall hmem hproof hindex

/-! ## The files -/

/-- The files that are audited. -/
def AuditArgs.files (args : AuditArgs) : List File := args.trajectory.getD args.receiptFile.toList

/-- The file holds the text of a JSON object. -/
def Holds (parseFloat : String → PyFloat) (file : File) (d : PyDict) : Prop :=
  ∃ raw, file.text = .ok raw ∧ loads parseFloat raw = .ok (.dict d)

/-- The file holds a JSON object, and its report is good. -/
def Passes (py : Stdlib) (env : Environment) (reprExc : PyErr → String)
    (parseFloat : String → PyFloat) (args : AuditArgs) (file : File) : Prop :=
  ∃ raw receipt report, file.text = .ok raw ∧ loads parseFloat raw = .ok (.dict receipt) ∧
    auditReceipt py env reprExc args receipt = .ok report ∧ report.ok = true

theorem auditFile_of (args : AuditArgs) {file : File} {d : PyDict} (h : Holds parseFloat file d) :
    (auditFile py env reprExc parseFloat args file).map Prod.fst =
      (auditReceipt py env reprExc args d).map fun report => if report.ok then 0 else 1 := by
  obtain ⟨raw, hraw, hloads⟩ := h
  unfold auditFile
  rw [hraw]
  simp only [bind, Except.bind, hloads, asMapping]
  cases auditReceipt py env reprExc args d <;> rfl

theorem zero_of {ok : Bool} (h : (if ok then 0 else 1) = 0) : ok = true := by
  cases ok with
  | true => rfl
  | false => cases h

theorem auditFile_zero {file : File} {report : Option ReceiptReport}
    (h : auditFile py env reprExc parseFloat args file = .ok (0, report)) :
    Passes py env reprExc parseFloat args file := by
  obtain ⟨raw, hraw, h⟩ := bind_ok.mp h
  split at h
  · cases h
  · next v hloads =>
    obtain ⟨receipt, hreceipt, h⟩ := bind_ok.mp h
    obtain ⟨report', hreport, h⟩ := bind_ok.mp h
    rw [asMapping_ok.mp hreceipt] at hloads
    refine ⟨raw, receipt, report', hraw, hloads, hreport, ?_⟩
    exact zero_of (Prod.mk.inj (Except.ok.inj h)).1

/-- Where all files are JSON, each is read with its path. -/
theorem readReceipts_ok {files : List File} {parsed : List (String × PyVal)}
    (h : readReceipts parseFloat files = .ok (some parsed)) :
    List.Forall₂ (fun file p => p.1 = file.path ∧
      ∃ raw, file.text = .ok raw ∧ loads parseFloat raw = .ok p.2) files parsed := by
  induction files generalizing parsed with
  | nil =>
    obtain rfl := Option.some.inj (Except.ok.inj h)
    exact .nil
  | cons file files ih =>
    obtain ⟨raw, hraw, h⟩ := bind_ok.mp h
    split at h
    · cases h
    · next v hloads =>
      obtain ⟨rest, hrest, hcons⟩ := map_ok.mp h
      obtain ⟨vs, rfl, rfl⟩ := Option.map_eq_some_iff.mp hcons
      exact .cons ⟨rfl, raw, hraw, hloads⟩ (ih hrest)

theorem auditTrajectory_zero {files : List File} {report : Option TrajectoryReport}
    (h : auditTrajectory py env reprExc parseFloat addFloat args files = .ok (0, report)) :
    ∀ file ∈ files, Passes py env reprExc parseFloat args file := by
  unfold auditTrajectory at h
  split_ifs at h
  · cases h
  obtain ⟨read, hread, h⟩ := bind_ok.mp h
  cases read with
  | none => cases h
  | some parsed =>
    obtain ⟨steps, hsteps, h⟩ := bind_ok.mp h
    obtain ⟨dag, -, h⟩ := bind_ok.mp h
    obtain ⟨summary, -, h⟩ := bind_ok.mp h
    have hok := zero_of (Prod.mk.inj (Except.ok.inj h)).1
    rw [TrajectoryReport.ok, Bool.and_eq_true, List.all_eq_true] at hok
    intro file hfile
    obtain ⟨p, hp, -, raw, hraw, hloads⟩ := Rows.mem_forall₂ (readReceipts_ok hread) hfile
    obtain ⟨step, hstep, haudit⟩ := Rows.mem_forall₂ (buildAll_ok.mp hsteps) hp
    obtain ⟨receipt, hreceipt, haudit⟩ := bind_ok.mp haudit
    obtain ⟨report', hreport, haudit⟩ := bind_ok.mp haudit
    obtain ⟨trajectory, -, haudit⟩ := bind_ok.mp haudit
    obtain rfl := Except.ok.inj haudit
    rw [asMapping_ok.mp hreceipt] at hloads
    exact ⟨raw, receipt, report', hraw, hloads, hreport,
      hok.1 _ (List.mem_map_of_mem (f := Prod.snd) hstep)⟩

theorem cmdAudit_zero (h : cmdAudit py env reprExc parseFloat addFloat args = .ok 0) :
    ∀ file ∈ args.files, Passes py env reprExc parseFloat args file := by
  unfold cmdAudit at h
  unfold AuditArgs.files
  split at h
  · cases h
  · next files htrajectory hfile =>
    obtain ⟨⟨code, report⟩, hrun, rfl⟩ := map_ok.mp h
    rw [htrajectory, Option.getD_some]
    exact auditTrajectory_zero hrun
  · cases h
  · next htrajectory hfile =>
    obtain ⟨⟨code, report⟩, hrun, rfl⟩ := map_ok.mp h
    rw [htrajectory, hfile]
    simpa using auditFile_zero hrun

/-! ## The log -/

/-- The leaf of a source is the payload of its fields. -/
theorem canonicalLeaf_fingerprint {source : PyDict} {leaf : Bytes}
    (h : canonicalLeaf py source = .ok leaf) : ∃ fp d v t o l, getKey source "fingerprint" = some fp ∧
      Sqlite.canonicalPayload (py.format fp) d v t o l = .ok leaf := by
  unfold canonicalLeaf at h
  obtain ⟨fp, hfp, h⟩ := bind_ok.mp h
  obtain ⟨d, -, h⟩ := bind_ok.mp h
  obtain ⟨v, -, h⟩ := bind_ok.mp h
  obtain ⟨t, -, h⟩ := bind_ok.mp h
  obtain ⟨o, -, h⟩ := bind_ok.mp h
  obtain ⟨l, -, h⟩ := bind_ok.mp h
  refine ⟨fp, _, _, _, _, _, ?_, h⟩
  unfold subscript at hfp
  split at hfp
  · next heq => rw [heq, Except.ok.inj hfp]
  · cases hfp

/-- A source that was accepted against the head of a log is a leaf of every later log. -/
theorem accepted_logged (hlen : ∀ b, (py.sha256 b).length = 32) {secret : Bytes}
    {before after : List Access} {root : Bytes} {s₁ : MerkleSqlite.Index} {source : PyDict}
    (hroot : (accessed py secret before).treeRoot py = .ok (hex root, s₁))
    (h : Accepted py (accessed py secret before).treeSize root source) :
    ∃ (n : ℕ) (fp : PyVal) (leaf : Bytes) (path : List Bytes),
      toInt py (getOrNone source "leaf_index") = .ok n ∧ getKey source "fingerprint" = some fp ∧
      canonicalLeaf py source = .ok leaf ∧ proofPath source = .ok path ∧
      ((accessed py secret (before ++ after)).durableLeaves[n]? = some ⟨n, py.format fp, leaf⟩ ∨
        let inputs := Merkle.treeInputs py.sha256 (accessed py secret before).logged ++
          Merkle.verifierInputs py.sha256 leaf n (accessed py secret before).tree.size path
        Merkle.Collide py.sha256 inputs inputs) := by
  obtain ⟨leaf, i, path, hleaf, hi, hpath, hverify⟩ := h
  have hs := MerkleSqlite.accessed_held py secret before
  obtain ⟨_, hhead, -⟩ := hs.treeRoot
  have hroot' := MerkleSqlite.hex_inj (Prod.mk.inj (Except.ok.inj (hroot.symm.trans hhead))).1
  obtain ⟨fp, d, v, t, o, l, hfp, hpayload⟩ := canonicalLeaf_fingerprint hleaf
  have hlogged : Merkle.verifyInclusionProof py.sha256 leaf i
      (accessed py secret before).logged.length path
      (Merkle.head py.sha256 (accessed py secret before).logged) = true := by
    rw [hs.logged_length]
    exact hroot' ▸ hverify
  obtain ⟨n, rfl, hn⟩ := Merkle.accepted_leaf hlen hlogged
  refine ⟨n, fp, leaf, path, hi, hfp, hleaf, hpath, ?_⟩
  rcases hn with hn | hcollide
  · left
    obtain ⟨row, hrow, hindex, rfl, r, hr, hpay⟩ := hs.logged_leaf hn
    have hname : py.format fp = row.fingerprint := by
      rw [← hr]
      exact (Sqlite.canonicalPayload_inj hpayload hpay).1
    rw [hname, ← hindex]
    have hlt := (List.getElem?_eq_some_iff.mp hrow).1
    have hgrows := (MerkleSqlite.accessed_grows py secret before after).durable
    rw [List.prefix_iff_getElem?.mp hgrows n hlt, ← List.getElem?_eq_getElem hlt, hrow]
  · right
    rw [hs.logged_length] at hcollide
    exact hcollide

end

/-! A receipt on a log of one leaf, signed under the key `k`; the digests are those of SHA-256. -/

namespace Sample

open MerkleSqlite.Sample (firstLeaf first)
open Provenex.Sample (noFloat)

def loggedSource : PyDict :=
  [(.str "fingerprint", .str "sha256:aa"), (.str "document_id", .str "doc"),
    (.str "document_version", .str "sha256:01"), (.str "ingested_at", .str "2024-01-01T00:00:00.000Z"),
    (.str "chunk_offset", .int 0), (.str "chunk_length", .int 5), (.str "leaf_index", .int 0),
    (.str "inclusion_proof", .list [])]

def receiptMac : Bytes :=
  [217, 19, 183, 23, 231, 219, 155, 28, 184, 34, 104, 40, 50, 79, 164, 151, 210, 251, 87, 156, 145,
   132, 134, 163, 39, 144, 201, 135, 104, 222, 230, 174]

def loggedReceipt : PyDict :=
  [(.str "transparency_log",
      .dict [(.str "tree_size", .int 1), (.str "tree_root", .str (hex firstLeaf))]),
    (.str "sources", .list [.dict loggedSource]),
    (.str "signature",
      .dict [(.str "algorithm", .str "hmac-sha256"), (.str "value", .str (hexdigest receiptMac))])]

/-- The digest of the row under the key of the index. -/
def rowMac : Bytes :=
  [204, 233, 45, 4, 27, 80, 228, 27, 170, 225, 88, 193, 69, 66, 135, 116, 220, 73, 146, 175, 25, 79, 59,
   245, 240, 136, 226, 24, 46, 73, 150, 87]

/-- Each key has one payload. -/
def auditorPy : Stdlib :=
  { MerkleSqlite.Sample.py with
    hmacSha256 := fun key _ =>
      (([([107], receiptMac), ([1], rowMac)] : List (Bytes × Bytes)).lookup key).getD [] }

theorem auditorPy_digest (b : Bytes) : (auditorPy.sha256 b).length = 32 :=
  Merkle.Sample.lookup_length
    (by decide : ∀ p ∈ MerkleSqlite.Sample.digests, p.2.length = 32) b

def auditor : Environment := ⟨none, none, some "k"⟩

def auditOf (file : File) : AuditArgs := ⟨none, false, some file, none⟩

def receiptFile : File := ⟨"receipt.json", dumpsIndent auditorPy (some 2) (.dict loggedReceipt)⟩

def firstAdded : List Access := [.event (.op (.call (.add "2024-01-01T00:00:00.000Z" first)))]

theorem loggedReceipt_of {P : PyVal → Prop} (hP : Hereditary P) : P (.dict loggedReceipt) := by
  have hsourceKeys : Named ["fingerprint", "document_id", "document_version", "ingested_at",
      "chunk_offset", "chunk_length", "leaf_index", "inclusion_proof"] loggedSource := .of_keys rfl
  have hreceiptKeys : Named ["transparency_log", "sources", "signature"] loggedReceipt := .of_keys rfl
  have hpair {k k' : String} {v v' : PyVal} (hne : k ≠ k') (hv : P v) (hv' : P v') :
      P (.dict [(.str k, v), (.str k', v')]) := by
    have hkeys : Named [k, k'] [(.str k, v), (.str k', v')] := .of_keys rfl
    rw [hP.named hkeys (by simpa using hne)]
    simp [hv, hv']
  have hsource : P (.dict loggedSource) := by
    rw [hP.named hsourceKeys (by decide)]
    simp [loggedSource, hP.str, hP.int, hP.list]
  rw [hP.named hreceiptKeys (by decide)]
  simp only [loggedReceipt, List.mem_cons, List.not_mem_nil, or_false, forall_eq_or_imp, forall_eq,
    hP.list, hsource, true_and]
  exact ⟨hpair (by decide) (hP.int 1) (hP.str _), hpair (by decide) (hP.str _) (hP.str _)⟩

theorem receiptFile_reads : ∃ text, receiptFile.text = .ok text ∧
    loads noFloat text = .ok (.dict loggedReceipt) :=
  loads_dumpsIndent (some 2) (loggedReceipt_of floatFree_hereditary)
    (by decide +kernel)

theorem loggedReceipt_passes : (auditReceipt auditorPy auditor reprExc (auditOf receiptFile)
    loggedReceipt).map (fun report => if report.ok then 0 else 1) = .ok 0 := by decide +kernel

theorem receiptFile_passes : cmdAudit auditorPy auditor reprExc noFloat (fun _ _ => .ok .nan)
    (auditOf receiptFile) = .ok 0 := by
  have hfile : (auditFile auditorPy auditor reprExc noFloat (auditOf receiptFile) receiptFile).map
      Prod.fst = .ok 0 := (auditFile_of _ receiptFile_reads).trans loggedReceipt_passes
  rw [cmdAudit, auditOf]
  exact hfile

theorem receiptFile_audited : receiptFile ∈ (auditOf receiptFile).files := by
  simp only [AuditArgs.files, auditOf, Option.getD_none, Option.toList_some, List.mem_singleton]

end Sample

end Provenex.Cli
