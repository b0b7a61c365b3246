import Mathlib.Data.Bool.Count
import Provenex.Cli.Summary
import Provenex.Proofs.Admission
import Provenex.Proofs.Recorded

/-! The summary of a receipt against its sources and actions, and the summary of a
trajectory against those of all its receipts together. -/

namespace Provenex

open Guard Cli

/-! ## What is summed up -/

/-- The outcome of each source, with the policy it is judged by, and of each action whether it was
denied. -/
structure Evidence where
  outcomes : List (VerificationPolicy × VerificationOutcome)
  denials : List Bool

namespace Evidence

def append (e f : Evidence) : Evidence := ⟨e.outcomes ++ f.outcomes, e.denials ++ f.denials⟩

def Blocked (e : Evidence) : Prop :=
  (∃ p ∈ e.outcomes, p.1.shouldBlock p.2 = true) ∨ ∃ denied ∈ e.denials, denied = true

def Passed (e : Evidence) : Prop :=
  (∀ p ∈ e.outcomes, p.2 = .verified) ∧ ∀ denied ∈ e.denials, denied = false

def count (e : Evidence) (o : VerificationOutcome) : ℕ := e.outcomes.countP fun p => p.2 = o

/-- The figure that belongs under a key. -/
def figure (e : Evidence) : String → ℕ
  | "total_chunks" => e.outcomes.length
  | "verified" => e.count .verified
  | "stale" => e.count .stale
  | "unauthorized" => e.count .unauthorized
  | "unverified" => e.count .unverified
  | "tampered" => e.count .tampered
  | "total_actions" => e.denials.length
  | "actions_allowed" => e.denials.count false
  | "actions_denied" => e.denials.count true
  | _ => 0

end Evidence

/-- The decision block denies the action. -/
def deniedBy (control : Option ControlMetadata) (a : ActionRecord) : Bool :=
  control.any fun c => c.decisions.any fun d =>
    (getOrNone d "action_index").eq (.int a.actionIndex) && ReceiptBuilder.isDenied d

def ProvenanceReceipt.evidence (r : ProvenanceReceipt) : Evidence :=
  ⟨r.sources.map fun s => (r.policy, s.verificationOutcome),
    r.actions.map (deniedBy r.toolCallControl)⟩

/-- The sources and the actions of all the receipts. -/
def allEvidence (rs : List ProvenanceReceipt) : Evidence :=
  ⟨rs.flatMap fun r => r.evidence.outcomes, rs.flatMap fun r => r.evidence.denials⟩

/-- The number under a key, and zero where there is none. -/
def countAt (summary : PyDict) (k : String) : ℤ :=
  match getOrNone summary k with
  | .int i => i
  | _ => 0

/-- The overall status that the evidence calls for. -/
structure StatusOf (s : String) (e : Evidence) : Prop where
  fail : s = "FAIL" ↔ e.Blocked
  pass : s = "PASS" ↔ e.Passed
  otherwise : s = "PARTIAL" ↔ ¬ e.Blocked ∧ ¬ e.Passed

/-- The summary says what follows from the evidence. -/
structure Summarises (summary : PyDict) (e : Evidence) : Prop where
  counts : ∀ k ∈ countKeys, getKey summary k = some (.int (e.figure k))
  actions : ∀ k ∈ actionKeys,
    getKey summary k = if e.denials = [] then none else some (.int (e.figure k))
  status : ∃ s, getKey summary "overall_status" = some (.str s) ∧ StatusOf s e

/-- The figures of a summary agree with each other. -/
structure AddsUp (summary : PyDict) : Prop where
  chunks : countAt summary "verified" + countAt summary "stale" + countAt summary "unauthorized" +
    countAt summary "unverified" + countAt summary "tampered" = countAt summary "total_chunks"
  actions : countAt summary "actions_allowed" + countAt summary "actions_denied" =
    countAt summary "total_actions"

/-! ## Evidence -/

namespace Evidence

variable {e f : Evidence}

theorem count_append (o : VerificationOutcome) : (e.append f).count o = e.count o + f.count o :=
  List.countP_append

theorem figure_append (k : String) : (e.append f).figure k = e.figure k + f.figure k := by
  unfold figure
  split
  · exact List.length_append
  · exact count_append _
  · exact count_append _
  · exact count_append _
  · exact count_append _
  · exact count_append _
  · exact List.length_append
  · exact List.count_append
  · exact List.count_append
  · rfl

theorem blocked_append : (e.append f).Blocked ↔ e.Blocked ∨ f.Blocked := by
  simp only [Blocked, append, List.mem_append, or_and_right, exists_or]
  exact or_or_or_comm

theorem passed_append : (e.append f).Passed ↔ e.Passed ∧ f.Passed := by
  simp only [Passed, append, List.mem_append, or_imp, forall_and]
  exact and_and_and_comm

theorem Blocked.not_passed (h : e.Blocked) : ¬ e.Passed := by
  intro hp
  rcases h with ⟨p, hmem, hblock⟩ | ⟨denied, hmem, hdenied⟩
  · rw [hp.1 p hmem] at hblock
    cases hblock
  · rw [hp.2 denied hmem] at hdenied
    cases hdenied

/-- Each source has one of the five outcomes. -/
theorem count_add (e : Evidence) : e.count .verified + e.count .stale + e.count .unauthorized +
    e.count .unverified + e.count .tampered = e.outcomes.length := by
  unfold count
  induction e.outcomes with
  | nil => rfl
  | cons p ps ih =>
    simp only [List.countP_cons, List.length_cons]
    obtain ⟨policy, o⟩ := p
    cases o <;> simp <;> omega

end Evidence

theorem Summarises.addsUp {summary : PyDict} {e : Evidence} (h : Summarises summary e) :
    AddsUp summary := by
  have hcount (k : String) (hk : k ∈ countKeys) : countAt summary k = e.figure k := by
    rw [countAt, getOrNone, h.counts k hk]
    rfl
  have haction (k : String) (hk : k ∈ actionKeys) :
      countAt summary k = if e.denials = [] then 0 else (e.figure k : ℤ) := by
    rw [countAt, getOrNone, h.actions k hk]
    split_ifs <;> rfl
  constructor
  · rw [hcount _ (by decide), hcount _ (by decide), hcount _ (by decide), hcount _ (by decide),
      hcount _ (by decide), hcount _ (by decide)]
    have hadd := e.count_add
    simp only [Evidence.figure]
    omega
  · rw [haction _ (by decide), haction _ (by decide), haction _ (by decide)]
    split_ifs
    · rfl
    · have hadd := List.count_false_add_count_true e.denials
      simp only [Evidence.figure]
      omega

/-- A status is one of three, and a source that was not verified keeps it from being a pass. -/
theorem statusOf_iff {s : String} {e : Evidence} (hs : s = "FAIL" ∨ s = "PARTIAL" ∨ s = "PASS") :
    StatusOf s e ↔ (s = "FAIL" ↔ e.Blocked) ∧ (¬ e.Blocked → (s = "PARTIAL" ↔ ¬ e.Passed)) := by
  refine ⟨fun h => ⟨h.fail, fun hb => h.otherwise.trans (and_iff_right hb)⟩, fun ⟨hfail, hrest⟩ => ?_⟩
  by_cases hb : e.Blocked
  · obtain rfl := hfail.mpr hb
    exact ⟨hfail, by simp [hb.not_passed], by simp [hb]⟩
  · have hne : s ≠ "FAIL" := fun h => hb (hfail.mp h)
    have hflagged := hrest hb
    refine ⟨hfail, ?_, by simp [hflagged, hb]⟩
    rcases hs with rfl | rfl | rfl
    · exact absurd rfl hne
    · simpa using hflagged
    · simpa using hflagged

/-! ## The summary of one receipt -/

/-- The action counts follow from the actions and the decision block. -/
def Decided (b : ReceiptBuilder) (control : Option ControlMetadata) : Prop :=
  ReceiptBuilder.actionsDenied control = (b.actions.map (deniedBy control)).count true ∧
    b.actionsAllowed control = (b.actions.map (deniedBy control)).count false

/-- Without a decision block every action is allowed. -/
theorem decided_free (b : ReceiptBuilder) : Decided b none := by
  have hmap : b.actions.map (deniedBy none) = List.replicate b.actions.length false :=
    List.map_eq_replicate_iff.mpr fun _ _ => rfl
  rw [Decided, hmap]
  exact ⟨by simp [ReceiptBuilder.actionsDenied, List.count_replicate],
    by simp [ReceiptBuilder.actionsAllowed]⟩

/-- One action, and the one decision on it. -/
theorem decided_single {b : ReceiptBuilder} {a : ActionRecord} {c : ControlMetadata}
    {d : PolicyDecision} (ha : b.actions = [a])
    (hc : c.decisions = [admissionEntry a.actionIndex d]) : Decided b (some c) := by
  have hindex : (getOrNone (admissionEntry a.actionIndex d) "action_index").eq
      (.int a.actionIndex) = true := by
    simp [admissionEntry, getOrNone, getKey_cons, PyVal.eq, PyAtom.eq, PyAtom.num?]
  have hdenied : deniedBy (some c) a =
      ReceiptBuilder.isDenied (admissionEntry a.actionIndex d) := by
    simp [deniedBy, hc, hindex]
  rw [Decided, ha, List.map_singleton, hdenied]
  simp only [ReceiptBuilder.actionsDenied, ReceiptBuilder.actionsAllowed, hc]
  cases h : ReceiptBuilder.isDenied (admissionEntry a.actionIndex d) <;> simp [h]

section

variable {b : ReceiptBuilder} {control : Option ControlMetadata}

/-- The evidence that the builder holds. -/
def builtEvidence (b : ReceiptBuilder) (control : Option ControlMetadata) : Evidence :=
  ⟨b.sources.map fun s => (b.policy, s.verificationOutcome), b.actions.map (deniedBy control)⟩

theorem summary_counts (b : ReceiptBuilder) (control : Option ControlMetadata) :
    ∀ k ∈ countKeys, getKey (b.summary control) k = some (.int ((builtEvidence b control).figure k)) := by
  have hcount (o : VerificationOutcome) :
      b.countOutcome o = .int ((builtEvidence b control).count o) := by
    simp [ReceiptBuilder.countOutcome, Evidence.count, builtEvidence, List.countP_map,
      Function.comp_def]
  have hchunks : (builtEvidence b control).outcomes.length = b.sources.length :=
    List.length_map _
  simp only [countKeys, List.forall_mem_cons, ReceiptBuilder.summary, hcount, List.cons_append,
    Evidence.figure, hchunks]
  simp [getKey_cons]

theorem summary_actions (h : Decided b control) : ∀ k ∈ actionKeys, getKey (b.summary control) k =
    if (builtEvidence b control).denials = [] then none
    else some (.int ((builtEvidence b control).figure k)) := by
  obtain ⟨hdenied, hallowed⟩ := h
  by_cases hactions : b.actions = []
  · simp [actionKeys, ReceiptBuilder.summary, getKey_cons, builtEvidence, hactions,
      getKey_nil]
  · simp [actionKeys, ReceiptBuilder.summary, getKey_cons, Evidence.figure,
      builtEvidence, hactions, hdenied, hallowed]

/-- Some action was denied. -/
theorem denied_iff (h : Decided b control) : ReceiptBuilder.actionsDenied control > 0 ↔
    ∃ denied ∈ (builtEvidence b control).denials, denied = true := by
  rw [h.1, gt_iff_lt, List.count_pos_iff, builtEvidence]
  simp

/-- Of the chunks alone. -/
theorem chunkStatus_fail {os : List VerificationOutcome} {p : VerificationPolicy} :
    Provenex.overallStatus os p = "FAIL" ↔ ∃ o ∈ os, p.shouldBlock o = true := by
  unfold Provenex.overallStatus
  split_ifs with hempty hblock hflag
  · simp [List.isEmpty_iff.mp hempty]
  · simpa using hblock
  · simpa using hblock
  · simpa using hblock

theorem chunkStatus_flagged {os : List VerificationOutcome} {p : VerificationPolicy}
    (h : ¬ ∃ o ∈ os, p.shouldBlock o = true) :
    Provenex.overallStatus os p = "PARTIAL" ↔ ¬ ∀ o ∈ os, o = .verified := by
  unfold Provenex.overallStatus
  split_ifs with hempty hblock hflag
  · simp [List.isEmpty_iff.mp hempty]
  · exact absurd (List.any_eq_true.mp hblock) h
  · simpa using hflag
  · simpa using hflag

/-- Of the actions alone. -/
theorem actionStatus_fail (h : Decided b control) :
    (if b.actions.isEmpty then "PASS"
      else if ReceiptBuilder.actionsDenied control > 0 then "FAIL" else "PASS") = "FAIL" ↔
      ∃ denied ∈ (builtEvidence b control).denials, denied = true := by
  split_ifs with hempty hdenied
  · simp [builtEvidence, List.isEmpty_iff.mp hempty]
  · simpa using (denied_iff h).mp hdenied
  · simpa using (denied_iff h).not.mp hdenied

theorem overallStatus_statusOf (h : Decided b control) :
    StatusOf (b.overallStatus control) (builtEvidence b control) := by
  have hchunk := @chunkStatus_fail (b.sources.map (·.verificationOutcome)) b.policy
  have hflagged := @chunkStatus_flagged (b.sources.map (·.verificationOutcome)) b.policy
  have haction := actionStatus_fail h
  have hblocked : (builtEvidence b control).Blocked ↔
      (∃ o ∈ b.sources.map (·.verificationOutcome), b.policy.shouldBlock o = true) ∨
        ∃ denied ∈ (builtEvidence b control).denials, denied = true := by
    simp [Evidence.Blocked, builtEvidence]
  unfold ReceiptBuilder.overallStatus
  dsimp only
  generalize (if b.actions.isEmpty then "PASS"
    else if ReceiptBuilder.actionsDenied control > 0 then "FAIL" else "PASS") = action at haction ⊢
  split_ifs with hfail hflag
  · rw [statusOf_iff (.inl rfl), hblocked, ← hchunk, ← haction]
    exact ⟨iff_of_true rfl hfail, fun hnot => absurd hfail hnot⟩
  all_goals
    rw [not_or, hchunk, haction] at hfail
    rw [hflagged hfail.1] at hflag
    have hpassed : (builtEvidence b control).Passed ↔
        ∀ o ∈ b.sources.map (·.verificationOutcome), o = .verified := by
      refine (and_iff_left fun denied hmem => ?_).trans (by simp [builtEvidence])
      exact Bool.eq_false_iff.mpr fun ht => hfail.2 ⟨denied, hmem, ht⟩
  · rw [statusOf_iff (.inr (.inl rfl)), hblocked, hpassed]
    exact ⟨iff_of_false (by decide) (not_or.mpr hfail), fun _ => iff_of_true rfl hflag⟩
  · rw [statusOf_iff (.inr (.inr rfl)), hblocked, hpassed]
    exact ⟨iff_of_false (by decide) (not_or.mpr hfail), fun _ => iff_of_false (by decide) hflag⟩

theorem summary_summarises (h : Decided b control) :
    Summarises (b.summary control) (builtEvidence b control) where
  counts := summary_counts b control
  actions := summary_actions h
  status := by
    refine ⟨_, ?_, overallStatus_statusOf h⟩
    by_cases hactions : b.actions = [] <;>
      simp [ReceiptBuilder.summary, getKey_cons, hactions]

end

/-! ## Receipts -/

/-- A receipt that one of the two functions returned. -/
inductive Issued (py : Stdlib) : ProvenanceReceipt → Prop
  | verified {σ : Type} {index : ProvenanceIndex σ} {args : VerifyArgs} {issue : Issue} {s s' : σ}
      {out : VerifiedChunks} (h : verifyChunks py index args issue s = .ok out s') :
      Issued py out.receipt
  | admitted {tool : ToolCallContext} {request : RequestContext} {args : AdmissionArgs}
      {issue : Issue} {result : AdmissionResult}
      (h : admissionCheck py tool request args issue = .ok result) : Issued py result.receipt

section

variable {py : Stdlib}

theorem finalize_summary {b : ReceiptBuilder} {outputText : String} {signer : Option ReceiptSigner}
    {log : Option PyDict} {trajectory : Option TrajectoryContext}
    {accessControl toolCallControl : Option ControlMetadata} {callerHash : Option String}
    {issue : Issue} {r : ProvenanceReceipt}
    (h : b.finalize py outputText signer log trajectory accessControl toolCallControl callerHash
      issue = .ok r) : r.summary = b.summary toolCallControl := by
  obtain ⟨r₀, value, hr₀, rfl⟩ := finalize_unsigned h
  obtain rfl := Except.ok.inj hr₀
  rfl

theorem finalize_summarises {b : ReceiptBuilder} {outputText : String}
    {signer : Option ReceiptSigner} {log : Option PyDict} {trajectory : Option TrajectoryContext}
    {accessControl toolCallControl : Option ControlMetadata} {callerHash : Option String}
    {issue : Issue} {r : ProvenanceReceipt} (hdecided : Decided b toolCallControl)
    (h : b.finalize py outputText signer log trajectory accessControl toolCallControl callerHash
      issue = .ok r) : Summarises r.summary r.evidence := by
  have hfinal := finalize_ok h
  have hevidence : r.evidence = builtEvidence b toolCallControl := by
    rw [ProvenanceReceipt.evidence, hfinal.sources, hfinal.actions, hfinal.policy,
      hfinal.toolCallControl]
    rfl
  rw [hevidence, finalize_summary h]
  exact summary_summarises hdecided

theorem Issued.summarises {r : ProvenanceReceipt} (h : Issued py r) :
    Summarises r.summary r.evidence := by
  cases h with
  | verified h =>
    obtain ⟨policy, texts, gathered, -, -, -, -, h⟩ := verifyChunks_ok.mp h
    obtain ⟨callerHash, hreceipt⟩ := (emitReceipt_ok h).receipt
    exact finalize_summarises (decided_free _) hreceipt
  | admitted h =>
    obtain ⟨policy, d, hash, callerHash, hadmitted⟩ := admissionCheck_ok h
    refine finalize_summarises ?_ hadmitted.receipt
    unfold admissionControl
    cases policy.toolCallControl with
    | none => exact decided_free _
    | some evaluator => exact decided_single rfl rfl

end

/-! ## Reading a receipt back -/

/-- The mapping holds the two blocks of the receipt, up to the order of keys. -/
def SameBlocks (d : PyDict) (r : ProvenanceReceipt) : Prop :=
  ∀ k ∈ ["summary", "trajectory"], (getKey d k).map norm = (getKey r.toDict k).map norm

theorem sameBlocks_toDict (r : ProvenanceReceipt) : SameBlocks r.toDict r := fun _ _ => rfl

theorem dict_of_norm {v : PyVal} {d : PyDict} (h : norm v = norm (.dict d)) : ∃ e, v = .dict e := by
  rw [norm_eq_normDict] at h
  cases v with
  | atom a => cases h
  | list xs => rw [norm_list] at h; cases h
  | dict e => exact ⟨e, rfl⟩

theorem atom_of_norm {v : PyVal} {a : PyAtom} (h : norm v = .atom a) : v = .atom a := by
  cases v with
  | atom b => exact h
  | list xs => rw [norm_list] at h; cases h
  | dict e => rw [norm_eq_normDict] at h; cases h

theorem getKey_atom_of_norm {d d' : PyDict} (h : norm (.dict d) = norm (.dict d')) {k : String}
    {o : Option PyAtom} (hk : getKey d' k = o.map .atom) : getKey d k = o.map .atom := by
  have hnorm := getKey_of_norm h k
  rw [hk] at hnorm
  cases o with
  | none => exact Option.map_eq_none_iff.mp hnorm
  | some a =>
    obtain ⟨v, hv, ha⟩ := Option.map_eq_some_iff.mp hnorm
    rw [hv, atom_of_norm ha]
    rfl

/-- The order of keys does not matter to what a summary says. -/
theorem Summarises.of_norm {d d' : PyDict} {e : Evidence} (hs : Summarises d' e)
    (h : norm (.dict d) = norm (.dict d')) : Summarises d e where
  counts k hk := getKey_atom_of_norm (o := some _) h (hs.counts k hk)
  actions k hk := by
    have hactions := hs.actions k hk
    split_ifs at hactions ⊢ with hnone
    · exact getKey_atom_of_norm (o := none) h hactions
    · exact getKey_atom_of_norm (o := some _) h hactions
  status := by
    obtain ⟨s, hget, hstatus⟩ := hs.status
    exact ⟨s, getKey_atom_of_norm (o := some _) h hget, hstatus⟩

theorem Summarises.truthy {d : PyDict} {e : Evidence} (h : Summarises d e) :
    (PyVal.dict d).truthy = true := by
  cases d with
  | nil => cases h.counts "total_chunks" (by decide)
  | cons _ _ => rfl

theorem SameBlocks.summary {d : PyDict} {r : ProvenanceReceipt} {e : Evidence} (h : SameBlocks d r)
    (hs : Summarises r.summary e) : ∃ summary, Summarises summary e ∧
      asMapping ((getOrNone d "summary").orElse (.dict [])) .attributeError = .ok summary := by
  have hnorm := h "summary" (by decide)
  rw [r.get_summary, Option.map_some, Option.map_eq_some_iff] at hnorm
  obtain ⟨v, hv, hnorm⟩ := hnorm
  obtain ⟨summary, rfl⟩ := dict_of_norm hnorm
  have hsummary := hs.of_norm hnorm
  refine ⟨summary, hsummary, ?_⟩
  rw [getOrNone, hv, Option.getD_some, PyVal.orElse, if_pos hsummary.truthy]
  rfl

theorem SameBlocks.trajectory {d : PyDict} {r : ProvenanceReceipt} (h : SameBlocks d r) : ∃ trajectory,
    asMapping ((getOrNone d "trajectory").orElse (.dict [])) .attributeError = .ok trajectory := by
  have hnorm : norm (getOrNone d "trajectory") = norm (orNull .dict r.trajectory) := by
    have hget {d' : PyDict} : norm (getOrNone d' "trajectory") =
        ((getKey d' "trajectory").map norm).getD .none := by
      rw [getOrNone]
      cases getKey d' "trajectory" <;> rfl
    rw [← r.get_trajectory, hget, hget, h _ (by decide)]
  cases ht : r.trajectory with
  | none =>
    rw [ht] at hnorm
    rw [atom_of_norm hnorm]
    exact ⟨[], rfl⟩
  | some t =>
    rw [ht] at hnorm
    obtain ⟨t', ht'⟩ := dict_of_norm hnorm
    rw [ht', PyVal.orElse]
    split_ifs
    · exact ⟨t', rfl⟩
    · exact ⟨[], rfl⟩

/-! ## The loop over the receipts -/

section

variable (addFloat : Total → Total → Except PyErr PyFloat)

/-- The figures under the keys, as the totals the loop keeps. -/
def figures (keys : List String) (e : Evidence) : List (String × Total) :=
  keys.map fun k => (k, .int (e.figure k))

theorem orElse_zero (i : ℤ) : (PyVal.int i).orElse (.int 0) = .int i := by
  unfold PyVal.orElse
  split_ifs with h
  · rfl
  · have hzero : i = 0 := by simpa [PyVal.truthy] using h
    rw [hzero]

theorem addTotals_ok {keys : List String} {summary : PyDict} {e f : Evidence}
    (h : ∀ k ∈ keys, getKey summary k = some (.int (f.figure k))) :
    addTotals addFloat (figures keys e) summary = .ok (figures keys (e.append f)) := by
  rw [addTotals, buildAll_ok]
  refine List.forall₂_map_left_iff.mpr (List.forall₂_map_right_iff.mpr ?_)
  refine List.forall₂_same.mpr fun k hk => ?_
  simp only [h k hk, Option.getD_some, orElse_zero, Total.add, number, Evidence.figure_append,
    Nat.cast_add]
  rfl

/-- What the loop has gathered from the evidence so far. -/
structure Tallied (acc : Aggregate) (e : Evidence) : Prop where
  counts : acc.counts = figures countKeys e
  actions : acc.actions = figures actionKeys e
  anyActions : acc.anyActions = ! e.denials.isEmpty
  fail : "FAIL" ∈ acc.statuses ↔ e.Blocked
  flagged : ¬ e.Blocked → ("PARTIAL" ∈ acc.statuses ↔ ¬ e.Passed)

theorem tallied_init : Tallied .init ⟨[], []⟩ where
  counts := rfl
  actions := rfl
  anyActions := rfl
  fail := by simp [Aggregate.init, Evidence.Blocked]
  flagged := by simp [Aggregate.init, Evidence.Passed]

theorem addActions_ok {acc : Aggregate} {summary : PyDict} {e f : Evidence}
    (hactions : acc.actions = figures actionKeys e) (hany : acc.anyActions = ! e.denials.isEmpty)
    (hs : Summarises summary f) : acc.addActions addFloat summary = .ok { acc with
      actions := figures actionKeys (e.append f)
      anyActions := ! (e.append f).denials.isEmpty } := by
  have hget := hs.actions
  unfold Aggregate.addActions hasKey
  rw [hget _ (by decide)]
  by_cases hnone : f.denials = []
  · have hfigures : figures actionKeys (e.append f) = figures actionKeys e := by
      simp [figures, actionKeys, Evidence.append, Evidence.figure, hnone]
    rw [if_pos hnone, Option.isSome_none, if_neg Bool.false_ne_true, hfigures, ← hactions]
    simp only [Evidence.append, hnone, List.append_nil, ← hany]
  · rw [if_neg hnone, Option.isSome_some, if_pos rfl, hactions,
      addTotals_ok addFloat fun k hk => (hget k hk).trans (if_neg hnone)]
    simp [Except.map, Evidence.append, hnone]

/-- The step kind has no part in the figures. -/
theorem Tallied.addStepKind {acc : Aggregate} {e : Evidence} (h : Tallied acc e) (kind : PyVal) :
    Tallied (acc.addStepKind kind) e := by
  unfold Aggregate.addStepKind
  split
  · exact ⟨h.counts, h.actions, h.anyActions, h.fail, h.flagged⟩
  · exact h

/-- One turn of the loop. -/
theorem addReceipt_tallied {acc : Aggregate} {d : PyDict} {r : ProvenanceReceipt} {e f : Evidence}
    (hacc : Tallied acc e) (hs : Summarises r.summary f) (hd : SameBlocks d r) :
    ∃ acc', acc.addReceipt addFloat d = .ok acc' ∧ Tallied acc' (e.append f) := by
  obtain ⟨summary, hsummary, hread⟩ := hd.summary hs
  obtain ⟨trajectory, htrajectory⟩ := hd.trajectory
  obtain ⟨s, hget, hstatus⟩ := hsummary.status
  have hcounts := addTotals_ok addFloat (e := e) hsummary.counts
  rw [← hacc.counts] at hcounts
  refine ⟨_, bind_ok.mpr ⟨summary, hread, bind_ok.mpr ⟨_, hcounts, bind_ok.mpr ⟨_,
    addActions_ok addFloat hacc.actions hacc.anyActions hsummary,
    bind_ok.mpr ⟨trajectory, htrajectory, rfl⟩⟩⟩⟩, Tallied.addStepKind ?_ _⟩
  have hstatuses : (getOrNone summary "overall_status").str?.toList = [s] := by
    rw [getOrNone, hget]
    rfl
  refine ⟨rfl, rfl, rfl, ?_, fun hnot => ?_⟩
  · change "FAIL" ∈ acc.statuses ++ (getOrNone summary "overall_status").str?.toList ↔ _
    rw [hstatuses, List.mem_append, List.mem_singleton, hacc.fail, eq_comm, hstatus.fail,
      Evidence.blocked_append]
  · change "PARTIAL" ∈ acc.statuses ++ (getOrNone summary "overall_status").str?.toList ↔ _
    rw [Evidence.blocked_append, not_or] at hnot
    rw [hstatuses, List.mem_append, List.mem_singleton, hacc.flagged hnot.1, eq_comm,
      hstatus.otherwise, and_iff_right hnot.2, Evidence.passed_append, not_and_or]

/-- The evidence of the receipts, after what was there before. -/
theorem allEvidence_cons (r : ProvenanceReceipt) (rs : List ProvenanceReceipt) :
    allEvidence (r :: rs) = r.evidence.append (allEvidence rs) := rfl

theorem Evidence.append_assoc (e f g : Evidence) :
    (e.append f).append g = e.append (f.append g) := by
  simp [Evidence.append]

theorem addReceipts_tallied {ds : List PyDict} {rs : List ProvenanceReceipt}
    (hs : ∀ r ∈ rs, Summarises r.summary r.evidence) (hd : List.Forall₂ SameBlocks ds rs) :
    ∀ {acc : Aggregate} {e : Evidence}, Tallied acc e →
      ∃ acc', ds.foldlM (Aggregate.addReceipt addFloat) acc = .ok acc' ∧
        Tallied acc' (e.append (allEvidence rs)) := by
  induction hd with
  | nil =>
    intro acc e hacc
    refine ⟨acc, rfl, ?_⟩
    have hnil : e.append (allEvidence []) = e := by simp [Evidence.append, allEvidence]
    rw [hnil]
    exact hacc
  | @cons d r ds rs hdr _ ih =>
    intro acc e hacc
    rw [List.forall_mem_cons] at hs
    obtain ⟨acc₁, hstep, hacc₁⟩ := addReceipt_tallied addFloat hacc hs.1 hdr
    obtain ⟨acc₂, hrest, hacc₂⟩ := ih hs.2 hacc₁
    rw [Evidence.append_assoc, ← allEvidence_cons] at hacc₂
    exact ⟨acc₂, by rw [List.foldlM_cons]; exact bind_ok.mpr ⟨acc₁, hstep, hrest⟩, hacc₂⟩

end

/-! ## What the loop returns -/

theorem getKey_totalItems (keys : List String) (e : Evidence) (k : String) :
    getKey (totalItems (figures keys e)) k =
      if k ∈ keys then some (.int (e.figure k)) else none := by
  induction keys with
  | nil => rfl
  | cons l keys ih =>
    have hcons : totalItems (figures (l :: keys) e) =
        (.str l, .int (e.figure l)) :: totalItems (figures keys e) := rfl
    rw [hcons, getKey_cons, ih]
    by_cases hl : l = k
    · rw [if_pos hl, hl, if_pos List.mem_cons_self]
    · rw [if_neg hl]
      refine if_congr ?_ rfl rfl
      rw [List.mem_cons, or_iff_right fun h => hl h.symm]

theorem overallStatus_tallied {acc : Aggregate} {e : Evidence} (h : Tallied acc e) :
    StatusOf acc.overallStatus e := by
  unfold Aggregate.overallStatus
  split_ifs with hfail hflag
  · rw [statusOf_iff (.inl rfl)]
    exact ⟨iff_of_true rfl (h.fail.mp hfail), fun hnot => absurd (h.fail.mp hfail) hnot⟩
  all_goals
    rw [h.fail] at hfail
    rw [h.flagged hfail] at hflag
  · rw [statusOf_iff (.inr (.inl rfl))]
    exact ⟨iff_of_false (by decide) hfail, fun _ => iff_of_true rfl hflag⟩
  · rw [statusOf_iff (.inr (.inr rfl))]
    exact ⟨iff_of_false (by decide) hfail, fun _ => iff_of_false (by decide) hflag⟩

/-- What is read from the block: the counts, then the action counts where there are any, then what
is under neither kind of key. -/
theorem getKey_toDict {acc : Aggregate} {e : Evidence} (h : Tallied acc e) {k : String}
    (hk : k ≠ "per_step_kind") : getKey acc.toDict k =
      if k ∈ countKeys then some (.int (e.figure k))
      else if k ∈ actionKeys ∧ e.denials ≠ [] then some (.int (e.figure k))
      else if k = "overall_status" then some (.str acc.overallStatus) else none := by
  have hkinds : getKey (if acc.perStepKind.isEmpty then [] else
      [(.str "per_step_kind", .dict (acc.perStepKind.map fun e => (.str e.1, .int e.2)))] : PyDict) k =
      none := by
    split_ifs
    · rfl
    · rw [getKey_cons, if_neg hk.symm, getKey_nil]
  have hactions : getKey (if acc.anyActions then totalItems acc.actions else []) k =
      if k ∈ actionKeys ∧ e.denials ≠ [] then some (.int (e.figure k)) else none := by
    rw [h.anyActions, h.actions]
    by_cases hnone : e.denials = []
    · simp [hnone, getKey_nil]
    · simp [hnone, getKey_totalItems]
  unfold Aggregate.toDict
  dsimp only
  rw [getKey_append, getKey_append, getKey_append, hkinds, hactions, h.counts, getKey_totalItems,
    getKey_cons, getKey_nil]
  by_cases hcount : k ∈ countKeys
  · rw [if_pos hcount, if_pos hcount]
    rfl
  · rw [if_neg hcount, if_neg hcount, Option.none_or, Option.or_none]
    by_cases haction : k ∈ actionKeys ∧ e.denials ≠ []
    · rw [if_pos haction, if_pos haction]
      rfl
    · rw [if_neg haction, if_neg haction, Option.none_or]
      exact if_congr eq_comm rfl rfl

theorem Tallied.summarises {acc : Aggregate} {e : Evidence} (h : Tallied acc e) :
    Summarises acc.toDict e where
  counts k hk := by
    have hkey : k ≠ "per_step_kind" := by
      rintro rfl
      revert hk
      decide
    rw [getKey_toDict h hkey, if_pos hk]
  actions k hk := by
    have hkeys : ∀ k ∈ actionKeys, k ≠ "per_step_kind" ∧ k ∉ countKeys ∧ k ≠ "overall_status" := by
      decide
    obtain ⟨hkey, hcount, hstatus⟩ := hkeys k hk
    rw [getKey_toDict h hkey, if_neg hcount, if_neg hstatus]
    by_cases hnone : e.denials = [] <;> simp [hnone, hk]
  status := by
    refine ⟨_, ?_, overallStatus_tallied h⟩
    rw [getKey_toDict h (by decide), if_neg (by decide), if_neg fun hk => absurd hk.1 (by decide),
      if_pos rfl]

/-- The five outcome counts of a receipt add up to its sources, its allowed and denied actions to its
actions, and its status follows from both; and so it is with what is summed over a trajectory. -/
theorem summaries_add_up (py : Stdlib) (addFloat : Total → Total → Except PyErr PyFloat) :
    (∀ r, Issued py r → Summarises r.summary r.evidence ∧ AddsUp r.summary) ∧
      ∀ ds rs, (∀ r ∈ rs, Issued py r) → List.Forall₂ SameBlocks ds rs →
        ∃ aggregate, aggregateTrajectorySummary addFloat ds = .ok aggregate ∧
          Summarises aggregate (allEvidence rs) ∧ AddsUp aggregate := by
  refine ⟨fun r hr => ⟨hr.summarises, hr.summarises.addsUp⟩, fun ds rs hrs hd => ?_⟩
  obtain ⟨acc, hacc, htallied⟩ := addReceipts_tallied addFloat (fun r hr => (hrs r hr).summarises) hd
    tallied_init
  have hsummary := htallied.summarises
  exact ⟨_, Guard.map_ok.mpr ⟨acc, hacc, rfl⟩, hsummary, hsummary.addsUp⟩

namespace Sample

def denyCalls : ToolCallPolicyEvaluator where
  evaluatorName := "custom"
  policyId := "none allowed"
  policyVersionHash := ""
  evaluate := fun _ _ => .ok ⟨.deny, ["all"], "", none, none⟩

def deniedArgs : AdmissionArgs where
  policy := .policy ⟨.default, none, some denyCalls⟩
  signer := none
  trajectory := none
  stepKind := none
  agentId := none
  outputText := ""
  redactParameters := false
  redactInputs := false
  callerHashSalt := none

end Sample

/-- Three chunks that are not in the index pass with a flag; a denied call fails. -/
theorem summaries_add_up_sample : ∃ out result aggregate,
    verifyChunks Sample.gatePy Sample.emptyIndex Sample.gateArgs ⟨"r", "now"⟩
      Sqlite.Connection.init = .ok out Sqlite.Connection.init ∧
    admissionCheck Sample.gatePy ⟨.str "shell", .str "run", [], .none, .none⟩ Sample.anyone
      Sample.deniedArgs ⟨"s", "now"⟩ = .ok result ∧
    aggregateTrajectorySummary (fun _ _ => .error .overflowError)
      [out.receipt.toDict, result.receipt.toDict] = .ok aggregate ∧
    getKey aggregate "total_chunks" = some (.int 3) ∧
    getKey aggregate "actions_denied" = some (.int 1) ∧
    getKey aggregate "overall_status" = some (.str "FAIL") := by
  obtain ⟨-, htrajectory⟩ := summaries_add_up Sample.gatePy fun _ _ => .error .overflowError
  have hout : verifyChunks Sample.gatePy Sample.emptyIndex Sample.gateArgs ⟨"r", "now"⟩
      Sqlite.Connection.init = .ok _ Sqlite.Connection.init := rfl
  have hresult : admissionCheck Sample.gatePy ⟨.str "shell", .str "run", [], .none, .none⟩
      Sample.anyone Sample.deniedArgs ⟨"s", "now"⟩ = .ok _ := rfl
  obtain ⟨aggregate, haggregate, hsummary, -⟩ := htrajectory _ [_, _]
    (List.forall_mem_cons.mpr ⟨.verified hout, List.forall_mem_singleton.mpr (.admitted hresult)⟩)
    (.cons (sameBlocks_toDict _) (.cons (sameBlocks_toDict _) .nil))
  obtain ⟨s, hget, hstatus⟩ := hsummary.status
  refine ⟨_, _, aggregate, hout, hresult, haggregate, hsummary.counts _ (by decide),
    hsummary.actions _ (by decide), hget.trans ?_⟩
  rw [hstatus.fail.mpr (.inr ⟨true, ?_, rfl⟩)]
  decide

end Provenex
