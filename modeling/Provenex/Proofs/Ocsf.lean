import Provenex.Proofs.Gate
import Provenex.Proofs.OcsfEvents

/-! The exporter beside the gate. It joins sources with decisions by their
fingerprint, and of two decisions on one fingerprint keeps the later; the gate
decided position by position. -/

namespace Provenex

open Guard

/-! ## The receipts of the gate -/

section

variable {σ : Type} {py : Stdlib} {index : ProvenanceIndex σ} {policy : Policy} {args : VerifyArgs}

theorem place_builder (acc : Gathered) (text : String) (block : Bool) :
    (acc.place text block).builder = acc.builder := by
  unfold Gathered.place
  split_ifs <;> rfl

/-- The loop adds sources, and nothing else. -/
theorem verifyLoop_builder (hread : index.ReadOnly) {fp : Fingerprinter}
    (hrequest : policy.accessControl.isSome → args.requestContext.isSome)
    {items : List (String × ℕ)} {acc : Gathered} {s s' : σ}
    (h : Effect.forEach items (.init policy.verification) (verifyChunk py index policy fp args) s =
      .ok acc s') : acc.builder.policy = policy.verification ∧ acc.builder.actions = [] := by
  refine Effect.forEach_invariant (fun _ acc _ => acc.builder.policy = policy.verification ∧
    acc.builder.actions = []) ?_ items [] _ acc s s' ⟨rfl, rfl⟩ h
  rintro done acc u item acc' u' hacc hturn
  obtain ⟨-, v, -, rfl⟩ := verifyChunk_ok hread hrequest hturn
  rw [Gathered.after, place_builder]
  exact hacc

/-- What the exporter reads of a receipt that the gate emitted. -/
theorem verifyChunks_receipt (hread : index.ReadOnly) {issue : Issue} {out : VerifiedChunks}
    {s s' : σ} (hpolicy : coercePolicy args.policy = .ok policy)
    (h : verifyChunks py index args issue s = .ok out s') :
    out.receipt.policy = policy.verification ∧ out.receipt.actions = [] ∧
      out.receipt.toolCallControl = none := by
  obtain ⟨p, texts, gathered, hp, -, hcheck, hloop, hemit⟩ := verifyChunks_ok.mp h
  obtain rfl := Except.ok.inj (hpolicy.symm.trans hp)
  obtain ⟨hverification, hactions⟩ := verifyLoop_builder hread (checkVerifyArgs_ok hcheck) hloop
  have hfinal := (emitReceipt_ok hemit).finalized
  exact ⟨hfinal.policy.trans hverification, hfinal.actions.trans hactions, hfinal.toolCallControl⟩

/-- The policy denies the chunk. -/
def ChunkVerdict.denied (v : ChunkVerdict) : Bool := denies v.decision

theorem decided_pairs {binding : String} {vs : List ChunkVerdict} {entries : List PyDict}
    (h : List.Forall₂ (fun v entry => ∃ d, v.decision = some d ∧ entry = v.decisionEntry binding d)
      vs entries) :
    ∃ ds : List (String × PolicyDecision), entries = ds.map (fun p => p.2.toDict p.1) ∧
      List.Forall₂ (fun v p => p.1 = v.fingerprint ∧ ∃ d, v.decision = some d ∧
        p.2 = { d with metadataBinding := some (chunkBinding binding) }) vs ds := by
  induction h with
  | nil => exact ⟨[], rfl, .nil⟩
  | @cons v entry vs entries hv _ ih =>
    obtain ⟨d, hd, rfl⟩ := hv
    obtain ⟨ds, rfl, hrel⟩ := ih
    exact ⟨(v.fingerprint, { d with metadataBinding := some (chunkBinding binding) }) :: ds, rfl,
      .cons ⟨rfl, d, hd, rfl⟩ hrel⟩

/-- The decisions that the gate records. -/
theorem gated_records {fp : Fingerprinter} {s : σ} {texts : List String} {vs : List ChunkVerdict}
    {out : VerifiedChunks} (h : Gated py index policy fp args s texts vs out)
    (hcontrol : out.receipt.toolCallControl = none) :
    ∃ ds, Records out.receipt ds [] ∧ ∀ w, Rows.Last ChunkVerdict.fingerprint vs w →
      denies (decisionOn ds w.fingerprint) = w.denied := by
  have hactions : (out.receipt.toolCallControl.map (·.decisions)).getD [] = [] := by
    rw [hcontrol]
    rfl
  cases hac : policy.accessControl with
  | none =>
    refine ⟨[], ⟨by rw [h.undecided hac]; rfl, by simp, hactions⟩, fun w hw => ?_⟩
    obtain ⟨item, -, hitem⟩ := Rows.mem_forall₂ h.judged.flip hw.mem
    rw [ChunkVerdict.denied, hitem.unconfigured hac]
    rfl
  | some evaluator =>
    obtain ⟨c, hc, hdecisions⟩ := h.decisions evaluator hac
    obtain ⟨ds, hds, hrel⟩ := decided_pairs hdecisions
    refine ⟨ds, ⟨by rw [hc]; exact hds, fun p hp hempty => ?_, hactions⟩, fun w hw => ?_⟩
    · obtain ⟨v, hv, hpv, -⟩ := Rows.mem_forall₂ hrel.flip hp
      obtain ⟨item, -, hitem⟩ := Rows.mem_forall₂ h.judged.flip hv
      have hlength := congrArg String.length (hitem.fingerprint.symm.trans (hpv.symm.trans hempty))
      simp [Fingerprinter.fingerprintChunk, sha256Fingerprint, sha256Hex] at hlength
    · obtain ⟨p, hp, hpw, d, hd, hpd⟩ : ∃ p, Rows.Last Prod.fst ds p ∧ p.1 = w.fingerprint ∧ _ :=
        Rows.last_forall₂ hrel (fun hx hx' => by rw [hx.1, hx'.1]) hw
      have hlookup : decisionOn ds w.fingerprint = some p.2 := by
        rw [← hpw]
        exact Rows.lookup_reverse.mpr hp
      rw [hlookup, ChunkVerdict.denied, hd, hpd]
      rfl

/-- The event says which source it is about. -/
def IsAbout (source : SourceRecord) (event : PyDict) : Prop :=
  getKey event "resources" = some (resourcesOf source.toDict)

/-- Chunks with one fingerprint are decided alike, as far as the join can tell: one that
verification keeps is denied just if the last one with its fingerprint is. -/
def LastDecides (policy : VerificationPolicy) (vs : List ChunkVerdict) : Prop :=
  ∀ v ∈ vs, policy.shouldBlock v.outcome = false → ∀ w, Rows.Last ChunkVerdict.fingerprint vs w →
    w.fingerprint = v.fingerprint → w.denied = v.denied

/-- The event of each chunk has the class of what the gate did with it. -/
def AgreesWithGate (policy : VerificationPolicy) (vs : List ChunkVerdict) (events : List PyDict) :
    Prop :=
  List.Forall₂ (fun v event => getKey event "class_uid" = some (.int (classOf (v.blocks policy))))
    vs events

/-- What is exported of a chunk: its class follows the decision on the last chunk with its
fingerprint. -/
def Exports (policy : VerificationPolicy) (vs : List ChunkVerdict) (v : ChunkVerdict)
    (event : PyDict) : Prop :=
  ∃ w, Rows.Last ChunkVerdict.fingerprint vs w ∧ w.fingerprint = v.fingerprint ∧
    getKey event "class_uid" = some (.int (classOf (policy.shouldBlock v.outcome || w.denied)))

theorem exports_of_sources {r : ProvenanceReceipt} {contentSource : Option String}
    {ds : List (String × PolicyDecision)} {vs : List ChunkVerdict} {events : List PyDict}
    (hsources : r.sources = vs.mapIdx fun i v => v.record contentSource i)
    (hlast : ∀ w, Rows.Last ChunkVerdict.fingerprint vs w →
      denies (decisionOn ds w.fingerprint) = w.denied)
    (h : List.Forall₂ (fun s event => SourceEvent r.policy s (decisionOn ds s.fingerprint) event)
      r.sources events) : List.Forall₂ (Exports r.policy vs) vs events := by
  rw [hsources, List.mapIdx_eq_zipIdx_map, List.forall₂_map_left_iff] at h
  have hvs : List.Forall₂ (Exports r.policy vs) (vs.zipIdx.map Prod.fst) events := by
    rw [List.forall₂_map_left_iff]
    have hmem : ∀ p ∈ vs.zipIdx, p.1 ∈ vs := fun p hp => List.fst_mem_of_mem_zipIdx hp
    refine ((List.forall₂_and_left _ _).mpr ⟨hmem, h⟩).imp fun p event hp => ?_
    obtain ⟨w, hw, hwv⟩ := Rows.exists_last ChunkVerdict.fingerprint hp.1
    refine ⟨w, hw, hwv, ?_⟩
    rw [hp.2.cls, sourceBlocked, ← hlast w hw, hwv]
    rfl
  rwa [List.zipIdx_map_fst] at hvs

theorem agrees_iff {policy : VerificationPolicy} {vs : List ChunkVerdict} {events : List PyDict}
    (h : List.Forall₂ (Exports policy vs) vs events) :
    AgreesWithGate policy vs events ↔ LastDecides policy vs := by
  refine Rows.forall₂_iff h fun v _ event hexports => ?_
  obtain ⟨w, hw, hwv, hcls⟩ := hexports
  have hclass : getKey event "class_uid" = some (.int (classOf (v.blocks policy))) ↔
      (policy.shouldBlock v.outcome || w.denied) = v.blocks policy := by
    rw [hcls]
    refine ⟨fun heq => ?_, fun heq => by rw [heq]⟩
    simp only [Option.some_inj, PyVal.atom.injEq, PyAtom.int.injEq] at heq
    exact classOf_inj.mp heq
  rw [hclass]
  have hblocks : v.blocks policy = (policy.shouldBlock v.outcome || v.denied) := rfl
  rw [hblocks]
  cases hblock : policy.shouldBlock v.outcome with
  | true => simp
  | false =>
    constructor
    · intro heq _ w' hw' hw'v
      rw [Rows.last_unique hw' hw (hw'v.trans hwv.symm)]
      exact heq
    · exact fun hlast => hlast rfl w hw hwv

/-- The export of a receipt of the gate has an event about each source, in order, and agrees with
the gate just if the chunks with one fingerprint are decided alike. -/
theorem ocsf_agrees_iff (py : Stdlib) (epochMs : String → ℤ) (index : ProvenanceIndex σ)
    (hread : index.ReadOnly) (args : VerifyArgs) (issue : Issue) (out : VerifiedChunks) (s s' : σ)
    (h : verifyChunks py index args issue s = .ok out s') (includeTrajectoryCorrelator : Bool)
    (extra : Option PyDict) (hextra : KeepsLabels extra) :
    out.receipt.actions = [] ∧ ∃ policy texts vs events, coercePolicy args.policy = .ok policy ∧
      coerceChunks py args.chunks = .ok texts ∧
      Gated py index policy (args.fingerprinter.getD .default) args s texts vs out ∧
      receiptToOcsf py epochMs out.receipt.toDict includeTrajectoryCorrelator extra = .ok events ∧
      List.Forall₂ IsAbout out.receipt.sources events ∧
      (AgreesWithGate policy.verification vs events ↔ LastDecides policy.verification vs) := by
  obtain ⟨-, policy, texts, vs, hp, htexts, hgated⟩ := verifyChunks_gated hread h
  obtain ⟨hverification, hactions, hcontrol⟩ := verifyChunks_receipt hread hp h
  obtain ⟨ds, hrecords, hlast⟩ := gated_records hgated hcontrol
  obtain ⟨events, actionEvents, hevents, hsources, hnone⟩ :=
    receiptToOcsf_ok py epochMs includeTrajectoryCorrelator hextra hrecords
  rw [hactions, List.forall₂_nil_left_iff] at hnone
  subst hnone
  rw [List.append_nil] at hevents
  have hexports := exports_of_sources hgated.sources hlast hsources
  rw [hverification] at hexports
  exact ⟨hactions, policy, texts, vs, events, hp, htexts, hgated, hevents,
    hsources.imp fun _ _ h => h.resources, agrees_iff hexports⟩

end

namespace Sample

/-- One text twice, and the policy denies it the first time only. -/
def repeatedArgs : VerifyArgs :=
  { gateArgs with
    chunks := .items [.text "a", .text "a"]
    chunkMetadata := some [[(.str "tag", .str "pii")], []] }

def exportedAt (_ : String) : ℤ := 0

end Sample

theorem ocsf_agrees_sample :
    ∃ out, verifyChunks Sample.gatePy Sample.emptyIndex Sample.gateArgs ⟨"r", "now"⟩
        Sqlite.Connection.init = .ok out Sqlite.Connection.init ∧ out.receipt.actions = [] ∧
      ∃ events, receiptToOcsf Sample.gatePy Sample.exportedAt out.receipt.toDict true none =
        .ok events ∧ List.Forall₂ IsAbout out.receipt.sources events := by
  refine ⟨_, rfl, ?_⟩
  obtain ⟨hactions, -, -, -, events, -, -, -, hevents, habout, -⟩ :=
    ocsf_agrees_iff Sample.gatePy Sample.exportedAt Sample.emptyIndex
      (Sqlite.asIndex_readOnly Sample.gatePy _ _) Sample.gateArgs ⟨"r", "now"⟩ _
      Sqlite.Connection.init _ rfl true none (fun _ => nofun)
  exact ⟨hactions, events, hevents, habout⟩

/-- The first chunk is blocked, and exported as accessed. -/
theorem repeated_chunk_exported_as_kept :
    ∃ out events, verifyChunks Sample.gatePy Sample.emptyIndex Sample.repeatedArgs ⟨"r", "now"⟩
        Sqlite.Connection.init = .ok out Sqlite.Connection.init ∧
      out.kept = ["a"] ∧ out.blocked = ["a"] ∧
      receiptToOcsf Sample.gatePy Sample.exportedAt out.receipt.toDict true none = .ok events ∧
      events.map (getKey · "class_uid") = [some (.int 6005), some (.int 6005)] :=
  ⟨_, _, rfl, rfl, rfl, rfl, rfl⟩

/-! ## The severity of a finding -/

/-- The grounds that name the gate which blocked the source. -/
def gateGrounds (policy : VerificationPolicy) (s : SourceRecord) (o : Option PolicyDecision) : Grounds :=
  if policy.shouldBlock s.verificationOutcome then
    ⟨5, "Critical", [.str s.verificationOutcome.value], []⟩
  else ⟨4, "High", [.str "ACCESS_CONTROL_DENY"], firedRules o⟩

theorem groundsOf_iff (policy : VerificationPolicy) (s : SourceRecord) (o : Option PolicyDecision)
    {event : PyDict} (h : IsFinding (groundsOf s.verificationOutcome (firedRules o)) event) :
    IsFinding (gateGrounds policy s o) event ↔
      (policy.shouldBlock s.verificationOutcome = true ∨ s.verificationOutcome = .verified) := by
  unfold groundsOf at h
  unfold gateGrounds
  by_cases hv : s.verificationOutcome = .verified
  · have hpass : policy.shouldBlock s.verificationOutcome = false := by
      rw [hv]
      rfl
    rw [if_pos hv] at h
    rw [hpass, if_neg (by decide)]
    exact ⟨fun _ => .inr hv, fun _ => h⟩
  · rw [if_neg hv] at h
    cases hblock : policy.shouldBlock s.verificationOutcome with
    | true => exact ⟨fun _ => .inl rfl, fun _ => h⟩
    | false =>
      refine ⟨fun h' => ?_, fun h' => ?_⟩
      · have heq := h.severityId.symm.trans h'.severityId
        simp at heq
      · exact absurd h' (by simp [hv])

/-- The event about each blocked source is a finding, and it names the gate that blocked the source
just if the receipt's policy blocks the outcome or the outcome is `VERIFIED`. -/
theorem ocsf_severity_iff (py : Stdlib) (epochMs : String → ℤ) (r : ProvenanceReceipt)
    (ds : List (String × PolicyDecision)) (ads : List (ℕ × PolicyDecision)) (h : Records r ds ads)
    (includeTrajectoryCorrelator : Bool) (extra : Option PyDict) (hextra : KeepsLabels extra) :
    ∃ sourceEvents actionEvents,
      receiptToOcsf py epochMs r.toDict includeTrajectoryCorrelator extra =
        .ok (sourceEvents ++ actionEvents) ∧
      List.Forall₂ (fun s event => IsAbout s event ∧
        (sourceBlocked r.policy s (decisionOn ds s.fingerprint) = true →
          getKey event "class_uid" = some (.int detectionFindingClass) ∧
          (IsFinding (gateGrounds r.policy s (decisionOn ds s.fingerprint)) event ↔
            (r.policy.shouldBlock s.verificationOutcome = true ∨
              s.verificationOutcome = .verified)))) r.sources sourceEvents := by
  obtain ⟨sourceEvents, actionEvents, hevents, hsources, -⟩ :=
    receiptToOcsf_ok py epochMs includeTrajectoryCorrelator hextra h
  refine ⟨sourceEvents, actionEvents, hevents, hsources.imp fun s event hs => ⟨hs.resources, ?_⟩⟩
  intro hblocked
  have hfinding := hs.finding hblocked
  exact ⟨hfinding.cls, groundsOf_iff r.policy s _ hfinding⟩

namespace Sample

/-- A chunk that is not in the index, which the policy lets pass, denied by a rule. -/
def deniedReceipt : ProvenanceReceipt where
  receiptId := "r"
  issuedAt := "now"
  outputHash := ""
  sources := [⟨0, "sha256:aa", none, none, none, none, none, none, .unverified, [], none, none, none,
    none⟩]
  policy := .default
  summary := []
  signature := none
  transparencyLog := none
  trajectory := none
  accessControl := some ⟨"custom", "tags", "", false,
    [PolicyDecision.toDict ⟨.deny, ["no_pii"], "", none, none⟩ "sha256:aa"]⟩
  actions := []
  toolCallControl := none
  callerHash := none

/-- The same, beside a chunk that the index vouches for. -/
def deniedReceipts : ProvenanceReceipt :=
  { deniedReceipt with
    sources := deniedReceipt.sources ++
      [⟨1, "sha256:bb", none, none, none, none, none, none, .verified, [], none, none, none, none⟩]
    accessControl := some ⟨"custom", "tags", "", false,
      [PolicyDecision.toDict ⟨.deny, ["no_pii"], "", none, none⟩ "sha256:aa",
        PolicyDecision.toDict ⟨.deny, ["no_pii"], "", none, none⟩ "sha256:bb"]⟩ }

end Sample

theorem ocsf_severity_sample :
    ∃ first second, receiptToOcsf Sample.gatePy Sample.exportedAt Sample.deniedReceipts.toDict true none =
        .ok [first, second] ∧
      ¬ IsFinding ⟨4, "High", [.str "ACCESS_CONTROL_DENY"], ["no_pii"]⟩ first ∧
      IsFinding ⟨4, "High", [.str "ACCESS_CONTROL_DENY"], ["no_pii"]⟩ second := by
  have hevents : receiptToOcsf Sample.gatePy Sample.exportedAt Sample.deniedReceipts.toDict true none =
      .ok [_, _] := rfl
  obtain ⟨sourceEvents, actionEvents, hsplit, hsources⟩ :=
    ocsf_severity_iff Sample.gatePy Sample.exportedAt Sample.deniedReceipts
      [("sha256:aa", ⟨.deny, ["no_pii"], "", none, none⟩), ("sha256:bb", ⟨.deny, ["no_pii"], "", none, none⟩)]
      [] ⟨rfl, by decide, rfl⟩ true none (fun _ => nofun)
  obtain ⟨first, rest, ⟨-, hfirst⟩, hrest, rfl⟩ := List.forall₂_cons_left_iff.mp hsources
  obtain ⟨second, rest, ⟨-, hsecond⟩, hnone, rfl⟩ := List.forall₂_cons_left_iff.mp hrest
  obtain ⟨rfl, hlast⟩ := List.cons.inj (Except.ok.inj (hsplit.symm.trans hevents))
  obtain ⟨rfl, -⟩ := List.cons.inj hlast
  refine ⟨_, _, hevents, fun hfinding => ?_, ?_⟩
  · exact absurd ((hfirst rfl).2.mp hfinding) (by decide)
  · exact (hsecond rfl).2.mpr (.inr rfl)

/-- The policy lets the outcome pass and a rule denies the chunk: the finding is critical, and does
not name the rule. -/
theorem denied_chunk_exported_as_unverified :
    Sample.deniedReceipt.policy.shouldBlock .unverified = false ∧
    ∃ events, receiptToOcsf Sample.gatePy Sample.exportedAt Sample.deniedReceipt.toDict true none =
        .ok events ∧
      events.map (getOrNone · "severity") = [.str "Critical"] ∧
      events.map (fun e => (getKey e "finding_info").map fun info =>
        (getFrom info "types").toOption) = [some (some (.list [.str "UNVERIFIED"]))] :=
  ⟨rfl, _, rfl, rfl, rfl⟩

end Provenex
