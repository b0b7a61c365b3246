import Provenex.Proofs.ReceiptCommand
import Provenex.Proofs.Summary
import Provenex.Proofs.Trajectories

/-! A trajectory from the program that issues it to `audit --trajectory`: its receipts
go to files, in any order, and the exit code is 0 for a part that is closed
under parents and whose files pass one by one, and for no other part. -/

namespace Provenex

open Guard Relation

/-! ## Every receipt of a program -/

section

variable {σ : Type} {py : Stdlib} {s s' : RunState σ}

theorem begins_receipts (h : Begins s) : s.receipts = [] := by
  cases h with
  | started => rfl
  | session => rfl

theorem sessionVerify_issued {c c' : ProvenexCrewSession σ} {chunks : Chunks}
    {stepKind outputText : String} {agentId : Option String} {issue : Issue} {st st' : σ}
    {out : VerifiedChunks}
    (h : c.verifyChunks py chunks stepKind agentId outputText issue st = .ok (out, c') st') :
    Issued py out.receipt := by
  obtain ⟨result, u, hresult, h⟩ := Effect.bind_ok.mp h
  obtain ⟨heq, -⟩ := Effect.pure_ok.mp h
  obtain ⟨rfl, -⟩ := Prod.mk.inj heq
  exact .verified hresult

theorem sessionAdmit_issued {c c' : ProvenexCrewSession σ} {tool : ToolCallContext}
    {request : RequestContext} {stepKind outputText : String} {agentId : Option String}
    {redactParameters redactInputs : Bool} {issue : Issue} {result : AdmissionResult}
    (h : c.admissionCheck py tool request stepKind agentId outputText redactParameters redactInputs
      issue = .ok (result, c')) : Issued py result.receipt := by
  obtain ⟨result', hresult, h⟩ := bind_ok.mp h
  obtain ⟨rfl, -⟩ := Prod.mk.inj (Except.ok.inj h)
  exact .admitted hresult

theorem calls_issued (h : ∀ r ∈ s.receipts, Issued py r) (hcall : Calls py s s') :
    ∀ r ∈ s'.receipts, Issued py r := by
  have hsnoc {receipt : ProvenanceReceipt} (hr : Issued py receipt) :
      ∀ r ∈ s.receipts ++ [receipt], Issued py r :=
    List.forall_mem_append.mpr ⟨h, List.forall_mem_singleton.mpr hr⟩
  cases hcall with
  | verifyChunks _ _ hout => exact hsnoc (.verified hout)
  | admissionCheck _ _ hresult => exact hsnoc (.admitted hresult)
  | nextStep => exact h
  | sessionVerify _ hout => exact hsnoc (sessionVerify_issued hout)
  | sessionAdmit _ hresult => exact hsnoc (sessionAdmit_issued hresult)
  | sessionAdvance => exact h

theorem run_issued (h : ∀ r ∈ s.receipts, Issued py r) (hrun : ReflTransGen (Calls py) s s') :
    ∀ r ∈ s'.receipts, Issued py r := by
  induction hrun with
  | refl => exact h
  | tail _ hcall ih => exact calls_issued ih hcall

end

/-! ## A receipt that is read back -/

section

variable {py : Stdlib} {r : ProvenanceReceipt}

theorem getKey_coerce {d : PyDict} (h : StrKeys d) (k : String) :
    getKey (coerceEntries py d) k = (getKey d k).map (coerce py) := by
  have hmap : coerceEntries py d = d.map fun e => (e.1, coerce py e.2) := by
    rw [coerceEntries_eq]
    refine List.map_congr_left fun e he => ?_
    obtain ⟨s, hs⟩ := h e.1 (List.mem_map_of_mem he)
    rw [hs, token]
  have hkey : ∀ e : PyAtom × PyVal, (e.1, coerce py e.2).1 = e.1 := fun _ => rfl
  rw [hmap, getKey_map_value hkey, getKey, dictGet, Option.map_map]
  rfl

theorem read_key {v : PyVal} {k : String} (h : getKey r.toDict k = some v) (hv : JsonShaped v) :
    getKey (coerceEntries py r.toDict) k = some v := by
  rw [getKey_coerce (toDict_named r).strKeys, h, Option.map_some, coerce_shaped hv]

theorem Issued.summary_shaped (h : Issued py r) : JsonShaped (.dict r.summary) := by
  cases h with
  | verified h =>
    obtain ⟨policy, texts, gathered, -, -, -, -, h⟩ := verifyChunks_ok.mp h
    obtain ⟨callerHash, hreceipt⟩ := (emitReceipt_ok h).receipt
    rw [finalize_summary hreceipt]
    exact jsonShaped_hereditary.summary _ _
  | admitted h =>
    obtain ⟨policy, d, hash, callerHash, hadmitted⟩ := admissionCheck_ok h
    rw [finalize_summary hadmitted.receipt]
    exact jsonShaped_hereditary.summary _ _

end

/-! ## The structural checks -/

/-- What the structural checks look at. -/
def SameSteps (d d' : PyDict) : Prop :=
  getKey d "trajectory" = getKey d' "trajectory" ∧ getKey d "receipt_id" = getKey d' "receipt_id"

section

variable {py : Stdlib} {d d' : PyDict} {ds ds' : List PyDict}

theorem SameSteps.block (h : SameSteps d d') : trajectoryBlock d = trajectoryBlock d' := by
  rw [trajectoryBlock, trajectoryBlock, subscript, subscript, h.1]

theorem SameSteps.trajectoryId (h : SameSteps d d') : trajectoryIdOf d = trajectoryIdOf d' := by
  rw [trajectoryIdOf, trajectoryIdOf, h.block]

theorem SameSteps.parents (h : SameSteps d d') : parentStepIdsOf d = parentStepIdsOf d' := by
  rw [parentStepIdsOf, parentStepIdsOf, h.block]

theorem SameSteps.receiptId (h : SameSteps d d') : receiptIdOf d = receiptIdOf d' := by
  rw [receiptIdOf, receiptIdOf, subscript, subscript, h.2]

/-- The receipts that lack a block, by their ids. -/
theorem missing_same (h : List.Forall₂ SameSteps ds ds') :
    (ds.filter fun r => ! (getOrNone r "trajectory").truthy).map
        (fun r => (getKey r "receipt_id").getD (.str "(no id)")) =
      (ds'.filter fun r => ! (getOrNone r "trajectory").truthy).map
        (fun r => (getKey r "receipt_id").getD (.str "(no id)")) := by
  induction h with
  | nil => rfl
  | @cons d d' ds ds' hd _ ih =>
    have htruthy : (getOrNone d "trajectory").truthy = (getOrNone d' "trajectory").truthy := by
      rw [getOrNone, getOrNone, hd.1]
    rw [List.filter_cons, List.filter_cons, htruthy]
    split_ifs
    · rw [List.map_cons, List.map_cons, ih, hd.2]
    · exact ih

theorem blockCheck_same (h : List.Forall₂ SameSteps ds ds') : blockCheck py ds = blockCheck py ds' := by
  have hmissing := missing_same h
  unfold blockCheck
  rw [h.length_eq]
  cases hd : ds.filter fun r => ! (getOrNone r "trajectory").truthy with
  | nil =>
    rw [hd, List.map_nil, eq_comm, List.map_eq_nil_iff] at hmissing
    rw [hmissing]
  | cons x xs =>
    rw [hd, List.map_cons] at hmissing
    obtain ⟨x', xs', hd', hx', hxs'⟩ := List.map_eq_cons_iff.mp hmissing.symm
    have hlength : xs.length = xs'.length := by
      have hlengths := congrArg List.length hxs'
      rwa [List.length_map, List.length_map, eq_comm] at hlengths
    simp only [hd', List.map_cons, hx', hxs', List.length_cons, hlength]

/-- Receipts with the same ids and blocks audit alike. -/
theorem audit_same (h : List.Forall₂ SameSteps ds ds') :
    auditTrajectoryDag py ds = auditTrajectoryDag py ds' := by
  unfold auditTrajectoryDag
  rw [blockCheck_same h, h.length_eq,
    buildAll_related (h.imp fun _ _ => SameSteps.trajectoryId),
    buildAll_related (h.imp fun _ _ => SameSteps.receiptId),
    buildAll_related (h.imp fun _ _ => SameSteps.parents)]

end

namespace Cli

/-! ## The loop of the command -/

section

variable {py : Stdlib} {env : Environment} {args : AuditArgs} {reprExc : PyErr → String}
  {parseFloat : String → PyFloat} {addFloat : Total → Total → Except PyErr PyFloat}

/-- The paths, with what the files hold. -/
def readings (files : List File) (ds : List PyDict) : List (String × PyVal) :=
  List.zipWith (fun file d => (file.path, .dict d)) files ds

theorem readReceipts_of {files : List File} {ds : List PyDict}
    (h : List.Forall₂ (Holds parseFloat) files ds) :
    readReceipts parseFloat files = .ok (some (readings files ds)) := by
  induction h with
  | nil => rfl
  | cons hfile _ ih =>
    obtain ⟨raw, hraw, hloads⟩ := hfile
    rw [readReceipts, hraw]
    simp only [bind, Except.bind, hloads, ih, Except.map]
    rfl

/-- Where no report raises, the loop goes through all receipts. -/
theorem auditSteps_of {files : List File} {ds : List PyDict} {reports : List ReceiptReport}
    (hfiles : List.Forall₂ (Holds parseFloat) files ds)
    (hreports : List.Forall₂ (fun d report => auditReceipt py env reprExc args d = .ok report) ds
      reports)
    (hblocks : ∀ d ∈ ds, ∃ t, asMapping ((getOrNone d "trajectory").orElse (.dict []))
      .attributeError = .ok t) :
    ∃ steps, buildAll (readings files ds) (auditStep py env reprExc args) = .ok steps ∧
      steps.map (·.1) = ds ∧ (steps.map (·.2)).map (·.2.2) = reports := by
  induction hreports generalizing files with
  | nil =>
    cases hfiles
    exact ⟨[], rfl, rfl, rfl⟩
  | @cons d report ds reports hreport _ ih =>
    cases hfiles with
    | @cons file _ files _ hfile hfiles =>
      rw [List.forall_mem_cons] at hblocks
      obtain ⟨t, ht⟩ := hblocks.1
      obtain ⟨steps, hsteps, hds, hrs⟩ := ih hfiles hblocks.2
      have hstep : auditStep py env reprExc args (file.path, .dict d) =
          .ok (d, file.path, getOrNone t "step_index", report) := by
        simp only [auditStep, asMapping, bind, Except.bind, hreport]
        simp only [asMapping] at ht
        rw [ht]
      refine ⟨(d, file.path, getOrNone t "step_index", report) :: steps,
        bind_ok.mpr ⟨_, hstep, bind_ok.mpr ⟨_, hsteps, rfl⟩⟩, ?_, ?_⟩
      · rw [List.map_cons, hds]
      · rw [List.map_cons, List.map_cons, hrs]

/-- The exit code, where no report raises. -/
theorem auditTrajectory_of {files : List File} {ds : List PyDict} {reports : List ReceiptReport}
    {dag : TrajectoryAuditResult} {summary : PyDict} (hne : files ≠ [])
    (hfiles : List.Forall₂ (Holds parseFloat) files ds)
    (hreports : List.Forall₂ (fun d report => auditReceipt py env reprExc args d = .ok report) ds
      reports)
    (hblocks : ∀ d ∈ ds, ∃ t, asMapping ((getOrNone d "trajectory").orElse (.dict []))
      .attributeError = .ok t)
    (hdag : auditTrajectoryDag py ds = .ok dag)
    (hsummary : aggregateTrajectorySummary addFloat ds = .ok summary) :
    (auditTrajectory py env reprExc parseFloat addFloat args files).map Prod.fst =
      .ok (if reports.all (·.ok) && dag.ok then 0 else 1) := by
  obtain ⟨steps, hsteps, hds, hrs⟩ := auditSteps_of hfiles hreports hblocks
  have hempty : files.isEmpty = false := by
    rw [Bool.eq_false_iff, ne_eq, List.isEmpty_iff]
    exact hne
  have hall : (steps.map (·.2)).all (·.2.2.ok) = reports.all (·.ok) := by
    rw [← hrs, List.all_map, List.all_map, List.all_map]
    rfl
  unfold auditTrajectory
  rw [hempty, if_neg Bool.false_ne_true, readReceipts_of hfiles]
  simp only [bind, Except.bind, hsteps, hds, hdag, hsummary, Except.map, TrajectoryReport.ok, hall]

end

section

variable {py : Stdlib} {env : Environment} {args : AuditArgs} {reprExc : PyErr → String}
  {parseFloat : String → PyFloat}

/-- Where each file's own audit returns, so do the reports, with the same codes. -/
theorem reports_of {files : List File} {ds : List PyDict} {P : ℕ → Prop}
    (hfiles : List.Forall₂ (Holds parseFloat) files ds)
    (h : ∀ file ∈ files, ∃ code, (auditFile py env reprExc parseFloat args file).map Prod.fst =
      .ok code ∧ P code) :
    ∃ reports, List.Forall₂ (fun d report => auditReceipt py env reprExc args d = .ok report) ds
        reports ∧ ∀ report ∈ reports, P (if report.ok then 0 else 1) := by
  have hreturns : ∀ d ∈ ds, ∃ report, auditReceipt py env reprExc args d = .ok report ∧
      P (if report.ok then 0 else 1) := by
    intro d hd
    obtain ⟨file, hfile, hholds⟩ := Rows.mem_forall₂ hfiles.flip hd
    obtain ⟨code, hcode, hp⟩ := h file hfile
    rw [auditFile_of args hholds] at hcode
    obtain ⟨report, hreport, rfl⟩ := map_ok.mp hcode
    exact ⟨report, hreport, hp⟩
  obtain ⟨reports, hbuild, hall⟩ := buildAll_total hreturns
  refine ⟨reports, buildAll_ok.mp hbuild, fun report hreport => ?_⟩
  obtain ⟨d, -, hp⟩ := Rows.mem_forall₂ hall.flip hreport
  exact hp

/-- What is audited of a file does not depend on what else is audited. -/
theorem cmdAudit_file (addFloat : Total → Total → Except PyErr PyFloat)
    (publicKey : Option PublicKey) (unsigned : Bool) (file : File) (files : List File) :
    cmdAudit py env reprExc parseFloat addFloat ⟨publicKey, unsigned, some file, none⟩ =
      (auditFile py env reprExc parseFloat ⟨publicKey, unsigned, none, some files⟩ file).map
        Prod.fst := by
  have hsignature (receipt : PyDict) :
      auditSignature py env ⟨publicKey, unsigned, some file, none⟩ receipt =
        auditSignature py env ⟨publicKey, unsigned, none, some files⟩ receipt := rfl
  unfold cmdAudit auditFile auditReceipt
  simp only [hsignature]

theorem passes_zero {file : File} (h : Passes py env reprExc parseFloat args file) :
    (auditFile py env reprExc parseFloat args file).map Prod.fst = .ok 0 := by
  obtain ⟨raw, receipt, report, hraw, hloads, hreport, hok⟩ := h
  rw [auditFile_of args ⟨raw, hraw, hloads⟩, hreport, Except.map, if_pos hok]

end

/-! ## From the program to the exit code -/

/-- The file holds the JSON text of the receipt, whose values have no floats among them. -/
structure Written (py : Stdlib) (file : File) (r : ProvenanceReceipt) : Prop where
  text : ∃ indent, file.text = r.toJson py indent
  floatFree : FloatFree (.dict r.toDict)
  jsonable : jsonable (.dict r.toDict) = true

section

variable {py : Stdlib} {r : ProvenanceReceipt} {file : File} {parseFloat : String → PyFloat}

/-- What is read back of a receipt. -/
def readBack (py : Stdlib) (r : ProvenanceReceipt) : PyDict := coerceEntries py r.toDict

theorem Written.holds (h : Written py file r) : Holds parseFloat file (readBack py r) := by
  obtain ⟨indent, hindent⟩ := h.text
  obtain ⟨text, htext, hloads⟩ := loads_dumpsIndent indent h.floatFree h.jsonable
  exact ⟨text, hindent.trans htext, hloads⟩

theorem readBack_steps {t : TrajectoryContext} (h : r.trajectory = some t.toDict) :
    SameSteps (readBack py r) r.toDict := by
  constructor
  · rw [readBack, read_key (receipt_trajectory h) (jsonShaped_hereditary.trajectory t),
      receipt_trajectory h]
  · rw [readBack, read_key r.get_receiptId (.str _), r.get_receiptId]

theorem readBack_blocks {t : TrajectoryContext} (h : r.trajectory = some t.toDict)
    (hissued : Issued py r) : SameBlocks (readBack py r) r := by
  have hsummary : getKey (readBack py r) "summary" = getKey r.toDict "summary" := by
    rw [readBack, read_key r.get_summary hissued.summary_shaped, r.get_summary]
  intro k hk
  rcases List.mem_cons.mp hk with rfl | hk
  · rw [hsummary]
  · obtain rfl := List.mem_singleton.mp hk
    rw [(readBack_steps h).1]

end

/-- Whatever receipts of a program are written to files, in whatever order: `audit --trajectory`
exits with 0 exactly if they have the parents of all of them and `audit` of each file exits with 0.
It raises only if one of these does; else it exits with 0 or 1. -/
theorem issued_files_audit (py : Stdlib) {σ : Type} {s₀ s : RunState σ} (hbegins : Begins s₀)
    (hrun : ReflTransGen (Calls py) s₀ s) (hdistinct : (s.receipts.map (·.receiptId)).Nodup)
    (sub : List ProvenanceReceipt) (files : List File) (hsub : sub.Subperm s.receipts)
    (hne : sub ≠ []) (hfiles : List.Forall₂ (Written py) files sub) (env : Environment)
    (reprExc : PyErr → String) (parseFloat : String → PyFloat)
    (addFloat : Total → Total → Except PyErr PyFloat) (publicKey : Option PublicKey)
    (unsigned : Bool) :
    let audit := fun receiptFile trajectory =>
      cmdAudit py env reprExc parseFloat addFloat ⟨publicKey, unsigned, receiptFile, trajectory⟩
    (audit none (some files) = .ok 0 ↔
      (∀ r ∈ sub, ∀ p, LinksTo r p → ∃ r' ∈ sub, r'.receiptId = p) ∧
        ∀ file ∈ files, audit (some file) none = .ok 0) ∧
    ((∀ file ∈ files, ∃ code, audit (some file) none = .ok code) →
      audit none (some files) = .ok 0 ∨ audit none (some files) = .ok 1) := by
  intro audit
  obtain ⟨trajectoryId, hinit⟩ := begins_inv hbegins
  have hpart : Part trajectoryId s.receipts sub := ⟨(run_inv hinit hrun).receipts, hdistinct, hsub⟩
  have hissued : ∀ r ∈ sub, Issued py r := fun r hr =>
    run_issued (by simp [begins_receipts hbegins]) hrun r (hsub.subset hr)
  have hholds : List.Forall₂ (Holds parseFloat) files (sub.map (readBack py)) :=
    List.forall₂_map_right_iff.mpr (hfiles.imp fun _ _ => Written.holds)
  have hsame : List.Forall₂ SameSteps (sub.map (readBack py)) (sub.map (·.toDict)) := by
    rw [List.forall₂_map_left_iff, List.forall₂_map_right_iff, List.forall₂_same]
    intro r hr
    obtain ⟨t, ht, -⟩ := hpart.issued hr
    exact readBack_steps ht
  have hblocks : List.Forall₂ SameBlocks (sub.map (readBack py)) sub := by
    rw [List.forall₂_map_left_iff, List.forall₂_same]
    intro r hr
    obtain ⟨t, ht, -⟩ := hpart.issued hr
    exact readBack_blocks ht (hissued r hr)
  obtain ⟨dag, hdag, hclosed⟩ := hpart.audits py hne
  rw [← audit_same hsame] at hdag
  obtain ⟨acc, hacc, -⟩ := addReceipts_tallied addFloat (fun r hr => (hissued r hr).summarises)
    hblocks tallied_init
  have hsingle (file : File) : audit (some file) none =
      (auditFile py env reprExc parseFloat ⟨publicKey, unsigned, none, some files⟩ file).map
        Prod.fst := cmdAudit_file addFloat publicKey unsigned file files
  have hcode {reports : List ReceiptReport}
      (hreports : List.Forall₂ (fun d report => auditReceipt py env reprExc
        ⟨publicKey, unsigned, none, some files⟩ d = .ok report) (sub.map (readBack py)) reports) :
      audit none (some files) = .ok (if reports.all (·.ok) && dag.ok then 0 else 1) := by
    refine auditTrajectory_of ?_ hholds hreports ?_ hdag (map_ok.mpr ⟨acc, hacc, rfl⟩)
    · rintro rfl
      cases hfiles
      exact hne rfl
    · intro d hd
      obtain ⟨r, -, hr⟩ := Rows.mem_forall₂ hblocks hd
      exact hr.trajectory
  simp only [hsingle]
  constructor
  · constructor
    · intro hzero
      have hall : ∀ file ∈ files, (auditFile py env reprExc parseFloat
          ⟨publicKey, unsigned, none, some files⟩ file).map Prod.fst = .ok 0 :=
        fun file hfile => passes_zero (cmdAudit_zero hzero file hfile)
      obtain ⟨reports, hreports, -⟩ := reports_of (P := (· = 0)) hholds
        fun file hfile => ⟨0, hall file hfile, rfl⟩
      have hok := zero_of (Except.ok.inj ((hcode hreports).symm.trans hzero))
      exact ⟨hclosed.mp (Bool.and_eq_true_iff.mp hok).2, hall⟩
    · rintro ⟨hparents, hall⟩
      obtain ⟨reports, hreports, hzero⟩ := reports_of (P := (· = 0)) hholds
        fun file hfile => ⟨0, hall file hfile, rfl⟩
      have hok : reports.all (·.ok) = true := by
        rw [List.all_eq_true]
        exact fun report hreport => zero_of (hzero report hreport)
      rw [hcode hreports, hok, hclosed.mpr hparents]
      rfl
  · intro hreturns
    obtain ⟨reports, hreports, -⟩ := reports_of (P := fun _ => True) hholds fun file hfile => by
      obtain ⟨code, hcode⟩ := hreturns file hfile
      exact ⟨code, hcode, trivial⟩
    rw [hcode hreports]
    split_ifs
    · exact .inl rfl
    · exact .inr rfl

/-! Two receipts without chunks, the second under the cursor that came with the first. -/

namespace Sample

open Provenex.Sample (gatePy emptyIndex gatePlan underCursor underCursor_emits noFloat)

/-- Nothing of it but the number of its step could fail to be written. -/
theorem bare_jsonable (id hash : String) (t : TrajectoryContext) (callerHash : Option String)
    (ht : writableInt t.stepIndex = true) :
    jsonable (.dict (ProvenanceReceipt.mk id "now" hash [] .default
      ((ReceiptBuilder.init .default).summary none) none none (some t.toDict) none [] none
      callerHash).toDict) = true := by
  have htrajectory : jsonable (.dict t.toDict) = true := by
    rw [← jsonFault_none, trajectory_fault, PyAtom.jsonFault_none]
    exact ht
  have hpolicy : jsonable (.dict [(.str "verification", .dict VerificationPolicy.default.toDict)]) =
      true := by decide +kernel
  have hsummary : jsonable (.dict ((ReceiptBuilder.init .default).summary none)) = true := by
    decide +kernel
  have houtput : jsonable (.dict [(.str "hash", .str hash), (.str "hash_algorithm", .str "sha256")]) =
      true := rfl
  rw [jsonable_strKeys (toDict_named _).strKeys]
  unfold ProvenanceReceipt.toDict ProvenanceReceipt.body
  simp only [List.forall_mem_append, List.forall_mem_cons, jsonable_structural.item,
    jsonable_structural.optional, jsonable_structural.str, jsonable_structural.list, orNull,
    houtput, hsummary, htrajectory, ProvenanceReceipt.policyBlock]
  simpa [optionalItem, orNull, jsonable_structural.null] using hpolicy

/-- A receipt without a signature and without sources. -/
theorem underCursor_built {t : TrajectoryContext} {id : String} {out : VerifiedChunks}
    (h : verifyChunks gatePy emptyIndex (underCursor t) ⟨id, "now"⟩ .init = .ok out .init)
    (ht : writableInt t.stepIndex = true) :
    (JsonShaped (.dict out.receipt.toDict) ∧ jsonable (.dict out.receipt.toDict) = true) ∧
      out.receipt.signature = none ∧ out.receipt.sources = [] ∧
      out.receipt.transparencyLog = none := by
  obtain ⟨policy, texts, gathered, hpolicy, htexts, -, hgathered, hout⟩ := verifyChunks_ok.mp h
  obtain rfl := Except.ok.inj hpolicy
  obtain rfl := Except.ok.inj htexts
  obtain ⟨rfl, -⟩ := Effect.pure_ok.mp hgathered
  obtain ⟨callerHash, hreceipt⟩ := (emitReceipt_ok hout).receipt
  have hshaped := finalize_shaped hreceipt
    (building_init : Building gatePy [] gatePlan ⟨[], []⟩ [] (.init .default)).shaped
  have hr := Except.ok.inj hreceipt
  rw [← hr] at hshaped ⊢
  exact ⟨⟨hshaped, bare_jsonable id _ t callerHash ht⟩, rfl, rfl, rfl⟩

def jsonFile (r : ProvenanceReceipt) : File := ⟨r.receiptId, r.toJson gatePy none⟩

theorem jsonFile_written {r : ProvenanceReceipt}
    (h : JsonShaped (.dict r.toDict) ∧ jsonable (.dict r.toDict) = true) :
    Written gatePy (jsonFile r) r :=
  ⟨⟨none, rfl⟩, shaped_floatFree h.1, h.2⟩

/-- With `--unsigned`, such a receipt passes. -/
theorem jsonFile_passes {r : ProvenanceReceipt}
    (h : JsonShaped (.dict r.toDict) ∧ jsonable (.dict r.toDict) = true)
    (hsignature : r.signature = none) (hsources : r.sources = []) (hlog : r.transparencyLog = none) :
    cmdAudit gatePy auditor reprExc noFloat (fun _ _ => .ok .nan)
      ⟨none, true, some (jsonFile r), none⟩ = .ok 0 := by
  have hread : readBack gatePy r = r.toDict := PyVal.dict.inj (coerce_shaped h.1)
  have hholds : Holds noFloat (jsonFile r) (readBack gatePy r) := (jsonFile_written h).holds
  rw [hread] at hholds
  have hnone : getOrNone r.toDict "signature" = .none := by
    rw [r.get_signature, hsignature]
    rfl
  obtain ⟨msg, haudit⟩ : ∃ msg, auditSignature gatePy auditor ⟨none, true, some (jsonFile r), none⟩
      r.toDict = .ok (true, msg) := auditSignature_none auditor _ hnone
  have hproofs : auditInclusionProofs gatePy reprExc r.toDict = .ok [] :=
    auditInclusionProofs_bare (by simp [hsources]) hlog
  have hcmd : cmdAudit gatePy auditor reprExc noFloat (fun _ _ => .ok .nan)
      ⟨none, true, some (jsonFile r), none⟩ = (auditFile gatePy auditor reprExc noFloat
        ⟨none, true, some (jsonFile r), none⟩ (jsonFile r)).map Prod.fst := rfl
  rw [hcmd, auditFile_of _ hholds, auditReceipt, haudit]
  simp only [bind, Except.bind, hproofs]
  rfl

end Sample

open Provenex.Sample Sample in
/-- The two files pass together, in either order; the second does not pass alone. -/
theorem issued_files_audit_sample : ∃ first second : File,
    let audit := fun files =>
      cmdAudit gatePy auditor reprExc noFloat (fun _ _ => .ok .nan) ⟨none, true, none, some files⟩
    audit [first, second] = .ok 0 ∧ audit [second, first] = .ok 0 ∧ audit [second] = .ok 1 := by
  obtain ⟨out, hout, hid, hblock, hnext⟩ := underCursor_emits Provenex.Sample.root "a"
  obtain ⟨out', hout', hid', hblock', -⟩ := underCursor_emits second "b"
  let s₀ : RunState Unit := ⟨[Provenex.Sample.root], [], none⟩
  let s₁ : RunState Unit := ⟨[Provenex.Sample.root, second], [out.receipt], none⟩
  have hfirst : Calls gatePy s₀ s₁ := by
    have h := Calls.verifyChunks (s := s₀) (t := Provenex.Sample.root) (by simp [s₀]) rfl hout
    rwa [hnext] at h
  have hsecond := Calls.verifyChunks (s := s₁) (t := second) (by simp [s₁]) rfl hout'
  have hrun := (ReflTransGen.single hfirst).tail hsecond
  have hdistinct : ([out.receipt, out'.receipt].map (·.receiptId)).Nodup := by
    simp [hid, hid']
  obtain ⟨hshaped, hsignature, hsources, hlog⟩ := underCursor_built hout (by decide)
  obtain ⟨hshaped', hsignature', hsources', hlog'⟩ := underCursor_built hout' (by decide)
  have hzero := jsonFile_passes hshaped hsignature hsources hlog
  have hzero' := jsonFile_passes hshaped' hsignature' hsources' hlog'
  have hwritten := jsonFile_written hshaped
  have hwritten' := jsonFile_written hshaped'
  have haudits (sub : List ProvenanceReceipt) (files : List File)
      (hsub : sub.Subperm [out.receipt, out'.receipt]) (hne : sub ≠ [])
      (hfiles : List.Forall₂ (Written gatePy) files sub) :=
    issued_files_audit gatePy (.started "trj_0" "now" none none none) hrun hdistinct sub files hsub
      hne hfiles auditor reprExc noFloat (fun _ _ => .ok .nan) none true
  have hroot (p : String) : ¬ LinksTo out.receipt p := by
    rw [linksTo_iff hblock]
    simp [Provenex.Sample.root, TrajectoryContext.start]
  have hafter (p : String) : LinksTo out'.receipt p ↔ p = "a" := by
    rw [linksTo_iff hblock']
    simp [second]
  have hboth {sub : List ProvenanceReceipt} (hmem : ∀ r, r ∈ sub ↔ r = out.receipt ∨ r = out'.receipt) :
      ∀ r ∈ sub, ∀ p, LinksTo r p → ∃ r' ∈ sub, r'.receiptId = p := by
    intro r hr p hp
    rcases (hmem r).mp hr with rfl | rfl
    · exact absurd hp (hroot p)
    · exact ⟨out.receipt, (hmem _).mpr (.inl rfl), hid.trans ((hafter p).mp hp).symm⟩
  refine ⟨jsonFile out.receipt, jsonFile out'.receipt, ?_, ?_, ?_⟩
  · refine (haudits [out.receipt, out'.receipt] _ (.refl _) (by simp)
      (.cons hwritten (.cons hwritten' .nil))).1.mpr ⟨hboth (by simp), ?_⟩
    exact List.forall_mem_cons.mpr ⟨hzero, List.forall_mem_singleton.mpr hzero'⟩
  · refine (haudits [out'.receipt, out.receipt] _ (List.Perm.swap _ _ _).subperm (by simp)
      (.cons hwritten' (.cons hwritten .nil))).1.mpr ⟨hboth (by simp [or_comm]), ?_⟩
    exact List.forall_mem_cons.mpr ⟨hzero', List.forall_mem_singleton.mpr hzero⟩
  · have haudit := haudits [out'.receipt] [jsonFile out'.receipt]
      (List.sublist_append_right [out.receipt] [out'.receipt]).subperm (by simp)
      (.cons hwritten' .nil)
    refine (haudit.2 (List.forall_mem_singleton.mpr ⟨0, hzero'⟩)).resolve_left fun hall => ?_
    obtain ⟨r, hr, hp⟩ := (haudit.1.mp hall).1 _ (List.mem_singleton_self _) "a" ((hafter "a").mpr rfl)
    rw [List.mem_singleton.mp hr, hid'] at hp
    exact absurd hp (by decide)

end Cli

end Provenex
