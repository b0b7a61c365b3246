import Provenex.Proofs.Evaluate
import Provenex.Proofs.Gate
import Provenex.Proofs.Totality

/-! What the policy is shown of a chunk. All that the index knows is on the context as it
is on the receipt, but for the content source; what the index does not know is shown
as `None`, which the operators take for a value. -/

namespace Provenex

/-! ## The context and the record -/

/-- The five fields that both have. -/
structure Agrees (ctx : ChunkContext) (source : SourceRecord) : Prop where
  fingerprint : ctx.fingerprint = .str source.fingerprint
  documentId : ctx.documentId = .ofOption source.documentId
  documentVersion : ctx.documentVersion = .ofOption source.documentVersion
  ingestedAt : ctx.ingestedAt = .ofOption source.ingestedAt
  contentSource : ctx.contentSource = .ofOption source.contentSource

/-- A chunk that was decided on, and its two items on the receipt. -/
structure SeenChunk where
  context : ChunkContext
  source : SourceRecord
  entry : PyDict

/-- The item is the evaluator's decision on the context. -/
def SeenChunk.Decided (evaluator : PolicyEvaluator) (request : RequestContext) (binding : String)
    (c : SeenChunk) : Prop :=
  ∃ d, evaluator.evaluate c.context request = .ok d ∧
    c.entry = PolicyDecision.toDict { d with metadataBinding := some (chunkBinding binding) }
      c.source.fingerprint

theorem orNull_str {α : Type} (f : α → String) (a : Option α) :
    orNull (fun x => .str (f x)) a = .ofOption (a.map f) := by
  cases a <;> rfl

theorem ofOption_none {s : Option String} : PyVal.none = .ofOption s ↔ s = none := by
  cases s <;> simp [PyVal.ofOption]

section

variable {σ : Type} {py : Stdlib} {index : ProvenanceIndex σ} {policy : Policy}
  {fp : Fingerprinter} {args : VerifyArgs} {evaluator : PolicyEvaluator} {request : RequestContext}

/-- Both are built of one fingerprint and one entry; the context is not told the content source. -/
theorem context_agrees (v : ChunkVerdict) (contentSource : Option String) (i n : ℕ) :
    Agrees (v.context args i) (v.record contentSource n) ↔ contentSource = none := by
  constructor
  · exact fun h => ofOption_none.mp h.contentSource
  · rintro rfl
    exact ⟨rfl, orNull_str _ v.entry, orNull_str _ v.entry, orNull_str _ v.entry, rfl⟩

/-- A turn of the loop decides on one context, and adds its record and its decision. -/
theorem verifyChunk_seen (hac : policy.accessControl = some evaluator)
    (hrequest : args.requestContext = some request) {acc acc' : Gathered} {item : String × ℕ}
    {s s' : σ} (h : verifyChunk py index policy fp args acc item s = .ok acc' s') :
    ∃ c : SeenChunk, c.Decided evaluator request args.chunkMetadataBinding ∧
      (Agrees c.context c.source ↔ args.contentSource = none) ∧
      acc'.builder.sources = acc.builder.sources ++ [c.source] ∧
      acc'.policyDecisions = acc.policyDecisions ++ [c.entry] := by
  obtain ⟨outcome, _, -, h⟩ := Effect.bind_ok.mp h
  obtain ⟨entry, _, -, h⟩ := Effect.bind_ok.mp h
  obtain ⟨result, _, -, h⟩ := Effect.bind_ok.mp h
  simp only [hac, hrequest] at h
  obtain ⟨d, _, hd, h⟩ := Effect.bind_ok.mp h
  obtain ⟨hd, -⟩ := Effect.lift_ok.mp hd
  obtain ⟨rfl, -⟩ := Effect.pure_ok.mp h
  let v : ChunkVerdict := ⟨fp.fingerprintChunk py item.1, outcome, entry,
    result.normalizationApplied, some d⟩
  refine ⟨⟨v.context args item.2, v.record args.contentSource acc.builder.sources.length,
    v.decisionEntry args.chunkMetadataBinding d⟩, ⟨d, hd, rfl⟩, context_agrees v _ _ _, ?_, ?_⟩
  all_goals
    unfold Gathered.place
    split_ifs <;> rfl

theorem verifyLoop_seen (hac : policy.accessControl = some evaluator)
    (hrequest : args.requestContext = some request) {items : List (String × ℕ)} {acc : Gathered}
    {s s' : σ}
    (h : Effect.forEach items (.init policy.verification) (verifyChunk py index policy fp args) s =
      .ok acc s') :
    ∃ seen : List SeenChunk, seen.length = items.length ∧
      acc.builder.sources = seen.map (·.source) ∧ acc.policyDecisions = seen.map (·.entry) ∧
      ∀ c ∈ seen, c.Decided evaluator request args.chunkMetadataBinding ∧
        (Agrees c.context c.source ↔ args.contentSource = none) := by
  refine Effect.forEach_invariant (fun done acc _ => ∃ seen : List SeenChunk,
    seen.length = done.length ∧ acc.builder.sources = seen.map (·.source) ∧
      acc.policyDecisions = seen.map (·.entry) ∧
      ∀ c ∈ seen, c.Decided evaluator request args.chunkMetadataBinding ∧
        (Agrees c.context c.source ↔ args.contentSource = none)) ?_ items [] _ acc s s' ?_ h
  · intro done acc u item acc' u' hinv hturn
    obtain ⟨seen, hlength, hsources, hdecisions, hseen⟩ := hinv
    obtain ⟨c, hdecided, hagrees, hsource, hentry⟩ := verifyChunk_seen hac hrequest hturn
    refine ⟨seen ++ [c], by simp [hlength], ?_, ?_, fun x hx => ?_⟩
    · rw [hsource, hsources, List.map_append, List.map_singleton]
    · rw [hentry, hdecisions, List.map_append, List.map_singleton]
    · obtain hx | hx := List.mem_append.mp hx
      · exact hseen x hx
      · obtain rfl := List.mem_singleton.mp hx
        exact ⟨hdecided, hagrees⟩
  · exact ⟨[], rfl, rfl, rfl, by simp⟩

theorem verifyChunks_seen (hpolicy : coercePolicy args.policy = .ok policy)
    (hac : policy.accessControl = some evaluator) {issue : Issue} {out : VerifiedChunks} {s s' : σ}
    (h : verifyChunks py index args issue s = .ok out s') :
    ∃ request control, ∃ seen : List SeenChunk, args.requestContext = some request ∧
      out.receipt.accessControl = some control ∧ out.receipt.sources = seen.map (·.source) ∧
      control.decisions = seen.map (·.entry) ∧
      ∀ c ∈ seen, c.Decided evaluator request args.chunkMetadataBinding ∧
        (Agrees c.context c.source ↔ args.contentSource = none) := by
  obtain ⟨p, texts, gathered, hp, -, hcheck, hloop, hemit⟩ := verifyChunks_ok.mp h
  obtain rfl := Except.ok.inj (hpolicy.symm.trans hp)
  obtain ⟨request, hrequest⟩ := Option.isSome_iff_exists.mp
    (checkVerifyArgs_ok hcheck (by rw [hac]; rfl))
  obtain ⟨seen, -, hsources, hdecisions, hseen⟩ := verifyLoop_seen hac hrequest hloop
  have hfinal := (emitReceipt_ok hemit).finalized
  have haccess := hfinal.accessControl
  rw [hac, Option.map_some] at haccess
  exact ⟨request, _, seen, hrequest, haccess, hfinal.sources.trans hsources, hdecisions, hseen⟩

end

/-- On every call that decides on chunks, by any index and with any arguments, the context of each
chunk carries what its source on the receipt does exactly where no content source is recorded. A
memory read records one unless the caller passes `None` for it. -/
theorem policy_sees_iff (py : Stdlib) {σ : Type} (index : ProvenanceIndex σ) (policy : Policy)
    (evaluator : PolicyEvaluator) (args : VerifyArgs) (issue : Issue) (s s' : σ)
    (out : VerifiedChunks) (hpolicy : coercePolicy args.policy = .ok policy)
    (hac : policy.accessControl = some evaluator) :
    (verifyChunks py index args issue s = .ok out s' →
        ∃ request control, ∃ seen : List SeenChunk, args.requestContext = some request ∧
          out.receipt.accessControl = some control ∧ out.receipt.sources = seen.map (·.source) ∧
          control.decisions = seen.map (·.entry) ∧
          ∀ c ∈ seen, c.Decided evaluator request args.chunkMetadataBinding ∧
            (Agrees c.context c.source ↔ args.contentSource = none)) ∧
      ∀ stepKind contentSource,
        verifyMemory py index args stepKind contentSource issue s = .ok out s' →
        ∃ request control, ∃ seen : List SeenChunk, args.requestContext = some request ∧
          out.receipt.accessControl = some control ∧ out.receipt.sources = seen.map (·.source) ∧
          control.decisions = seen.map (·.entry) ∧
          ∀ c ∈ seen, c.Decided evaluator request args.chunkMetadataBinding ∧
            (Agrees c.context c.source ↔ contentSource = some none) := by
  refine ⟨verifyChunks_seen hpolicy hac, fun stepKind contentSource h => ?_⟩
  have hnone : (memoryArgs args stepKind contentSource).contentSource = none ↔
      contentSource = some none := by
    cases contentSource with
    | none => simp [memoryArgs]
    | some given => simp [memoryArgs]
  have hmemory : coercePolicy (memoryArgs args stepKind contentSource).policy = .ok policy := hpolicy
  rw [← hnone]
  exact verifyChunks_seen hmemory hac h

namespace Sample

/-- Allows what comes from memory. -/
def memoryOnly : PolicyEvaluator where
  evaluatorName := "custom"
  policyId := "memory"
  policyVersionHash := ""
  evaluate := fun chunk _ =>
    .ok ⟨if chunk.contentSource.eq (.str "memory_store") then .allow else .deny, [], "", none, none⟩

def memoryReadArgs : VerifyArgs :=
  { gateArgs with policy := .policy ⟨.default, some memoryOnly, none⟩, chunkMetadata := none }

end Sample

theorem policy_sees_sample :
    ∃ out, verifyChunks Sample.gatePy Sample.emptyIndex Sample.memoryReadArgs ⟨"r", "now"⟩
        Sqlite.Connection.init = .ok out Sqlite.Connection.init ∧
      ∃ seen : List SeenChunk, seen.length = 3 ∧ out.receipt.sources = seen.map (·.source) ∧
        ∀ c ∈ seen, Agrees c.context c.source := by
  obtain ⟨out, hrun, hlength⟩ : ∃ out, verifyChunks Sample.gatePy Sample.emptyIndex
      Sample.memoryReadArgs ⟨"r", "now"⟩ Sqlite.Connection.init = .ok out Sqlite.Connection.init ∧
        out.receipt.sources.length = 3 := ⟨_, rfl, rfl⟩
  obtain ⟨hchunks, -⟩ := policy_sees_iff Sample.gatePy Sample.emptyIndex
    ⟨.default, some Sample.memoryOnly, none⟩ Sample.memoryOnly Sample.memoryReadArgs ⟨"r", "now"⟩
    Sqlite.Connection.init Sqlite.Connection.init out rfl rfl
  obtain ⟨request, control, seen, -, -, hsources, -, hseen⟩ := hchunks hrun
  refine ⟨out, hrun, seen, ?_, hsources, fun c hc => (hseen c hc).2.mpr rfl⟩
  rw [← hlength, hsources, List.length_map]

/-- A read that the receipt says is of memory is denied, where any context that agrees with the
receipt is allowed. -/
theorem memory_source_unseen :
    ∃ out r, verifyMemory Sample.gatePy Sample.emptyIndex Sample.memoryReadArgs none none
        ⟨"r", "now"⟩ Sqlite.Connection.init = .ok out Sqlite.Connection.init ∧
      out.receipt.sources.head? = some r ∧ out.kept = [] ∧
      ∀ ctx request, Agrees ctx r →
        ∃ d, Sample.memoryOnly.evaluate ctx request = .ok d ∧ d.decision = .allow := by
  refine ⟨_, _, rfl, rfl, rfl, fun ctx request h => ⟨_, rfl, ?_⟩⟩
  have hctx : ctx.contentSource = .str "memory_store" := h.contentSource
  change (if ctx.contentSource.eq (.str "memory_store") then Decision.allow else .deny) = .allow
  rw [hctx]
  rfl

/-! ## A chunk that the index does not know -/

section

variable {Ω : Type} (rt : Runtime Ω)

/-- The paths to what comes from the index. -/
def indexPaths : List String := ["chunk.document_id", "chunk.document_version", "chunk.ingested_at"]

/-- The constraint is null, or a mapping whose operator finds null in its `in` list, or does not
find it in its `not_in` list. -/
def AdmitsNull (constraint : PyVal) : Prop :=
  match constraint with
  | .dict d =>
    (firstOperator d = some .isIn ∧ ∃ xs, getOrNone d "in" = .list xs ∧ .none ∈ xs) ∨
      (firstOperator d = some .notIn ∧ ∃ xs, getOrNone d "not_in" = .list xs ∧ .none ∉ xs)
  | constraint => constraint = .none

theorem none_eq {v : PyVal} : PyVal.none.eq v = true ↔ v = .none := by
  cases v with
  | atom a => cases a <;> simp [PyVal.eq, PyAtom.eq, PyAtom.num?]
  | list xs => simp [PyVal.eq]
  | dict d => simp [PyVal.eq]

theorem none_inList {xs : List PyVal} :
    (PyObj.val PyVal.none : PyObj Ω).inList rt xs = true ↔ .none ∈ xs := by
  unfold PyObj.inList
  rw [List.any_eq_true]
  constructor
  · rintro ⟨v, hv, heq⟩
    obtain rfl := none_eq.mp heq
    exact hv
  · exact fun h => ⟨_, h, none_eq.mpr rfl⟩

/-- Of the seven forms only these three can pass. -/
theorem valuePasses_none {constraint timestamp : PyVal} (hj : jsonable constraint = true) :
    ValuePasses rt constraint timestamp (.val .none) ↔ AdmitsNull constraint := by
  cases constraint with
  | atom a => exact none_eq (v := .atom a)
  | list xs => exact none_eq (v := .list xs)
  | dict d =>
    have hnot (xs : List PyVal) : (PyObj.val PyVal.none : PyObj Ω).inList rt xs = false ↔
        .none ∉ xs := by
      rw [← none_inList rt, Bool.not_eq_true]
    have hprint (op : Operator) : printable (getOrNone d op.key) = true :=
      printable_of_jsonable _ (jsonable_getOrNone hj op.key)
    constructor
    · rintro ⟨op, hop, hholds, -⟩
      cases op with
      | isIn =>
        obtain ⟨xs, hxs, hin⟩ := hholds
        exact .inl ⟨hop, xs, hxs, (none_inList rt).mp hin⟩
      | notIn =>
        obtain ⟨xs, hxs, hin⟩ := hholds
        exact .inr ⟨hop, xs, hxs, (hnot xs).mp hin⟩
      | notOlderThan =>
        obtain ⟨s, _, _, _, _, hs, -⟩ := hholds
        exact absurd hs (by simp [PyObj.str?, PyVal.str?])
      | matchesPattern =>
        obtain ⟨s, _, hs, -⟩ := hholds
        exact absurd hs (by simp [PyObj.str?, PyVal.str?])
      | notMatchesPattern =>
        obtain ⟨s, _, hs, -⟩ := hholds
        exact absurd hs (by simp [PyObj.str?, PyVal.str?])
      | lengthAtMost =>
        obtain ⟨s, hs, -⟩ := hholds
        exact absurd hs (by simp [PyObj.str?, PyVal.str?])
    · rintro (⟨hop, xs, hxs, hin⟩ | ⟨hop, xs, hxs, hin⟩)
      · exact ⟨_, hop, ⟨xs, hxs, (none_inList rt).mpr hin⟩, hprint .isIn⟩
      · exact ⟨_, hop, ⟨xs, hxs, (hnot xs).mpr hin⟩, hprint .notIn⟩

/-- Every operator decides `None`, one way or the other. -/
theorem checkConstraint_none (place : String) {constraint : PyVal} (timestamp : PyVal)
    (unknownMetadata : String) (hj : jsonable constraint = true) :
    ∃ b why, checkConstraint rt place constraint (some (.val .none)) timestamp unknownMetadata =
      .ok (b, why) := by
  cases constraint with
  | atom a => exact ⟨_, _, rfl⟩
  | list xs => exact ⟨_, _, rfl⟩
  | dict d =>
    unfold checkConstraint
    dsimp only
    cases firstOperator d with
    | none => exact ⟨_, _, rfl⟩
    | some op =>
      have hformat : rt.formatOf (getOrNone d op.key) = .ok (rt.format (getOrNone d op.key)) :=
        formatOf_ok.mpr ⟨printable_of_jsonable _ (jsonable_getOrNone hj op.key), rfl⟩
      cases op with
      | isIn =>
        cases hop : getOrNone d Operator.isIn.key <;> rw [hop] at hformat <;>
          simp [Operator.check, hop, hformat, Except.map]
      | notIn =>
        cases hop : getOrNone d Operator.notIn.key <;> rw [hop] at hformat <;>
          simp [Operator.check, hop, hformat, Except.map]
      | notOlderThan => exact ⟨_, _, rfl⟩
      | matchesPattern => exact ⟨_, _, rfl⟩
      | notMatchesPattern => exact ⟨_, _, rfl⟩
      | lengthAtMost => exact ⟨_, _, rfl⟩

theorem resolvePath_index {path : String} (hpath : path ∈ indexPaths) (fingerprint : String)
    (metadata : Option PyDict) (request : RequestContext) :
    resolvePath rt (.str path) ⟨some (buildChunkContext fingerprint none metadata), none, request⟩ =
      .ok (some (.val .none)) := by
  simp only [indexPaths, List.mem_cons, List.not_mem_nil, or_false] at hpath
  obtain rfl | rfl | rfl := hpath
  · have hp : splitDots "chunk.document_id" = ["chunk", "document_id"] := by decide +kernel
    rw [resolvePath, hp]
    rfl
  · have hp : splitDots "chunk.document_version" = ["chunk", "document_version"] := by
      decide +kernel
    rw [resolvePath, hp]
    rfl
  · have hp : splitDots "chunk.ingested_at" = ["chunk", "ingested_at"] := by decide +kernel
    rw [resolvePath, hp]
    rfl

theorem requireEntry_none {path : String} (hpath : path ∈ indexPaths) {constraint : PyVal}
    (hj : jsonable constraint = true) (unknownMetadata fingerprint : String) (metadata : Option PyDict) (request : RequestContext) :
    ∃ b, requireEntryHolds rt unknownMetadata
        ⟨some (buildChunkContext fingerprint none metadata), none, request⟩ (.str path, constraint) =
          .ok b ∧ (b = true ↔ AdmitsNull constraint) := by
  have hresolve := resolvePath_index rt hpath fingerprint metadata request
  obtain ⟨b, why, hcheck⟩ := checkConstraint_none rt (rt.format (.str path))
    request.timestamp unknownMetadata hj
  have hrun : requireEntryHolds rt unknownMetadata
      ⟨some (buildChunkContext fingerprint none metadata), none, request⟩ (.str path, constraint) =
        .ok b := by
    rw [requireEntryHolds, Guard.bind_ok]
    exact ⟨_, hresolve, Guard.bind_ok.mpr ⟨_, hcheck, rfl⟩⟩
  refine ⟨b, hrun, ?_⟩
  rw [← valuePasses_none rt hj, ← checkConstraint_true rt (rt.format (.str path)) constraint
    request.timestamp (.val .none) unknownMetadata, hcheck]
  simp

/-- For a chunk that the index does not know, a constraint on what the index would know follows the
default exactly where that is what the constraint says of null. -/
theorem unknown_follows_default_iff (bundle : PyVal) (source : String) (ev : NativeYaml) :
    NativeYamlEvaluator.init rt bundle source = .ok ev →
      ∀ rule ∈ ev.rules, ∀ path ∈ indexPaths, ∀ constraint, (.str path, constraint) ∈ rule.require →
        ∀ fingerprint metadata request, ∃ violated : Bool,
          requireEntryHolds rt ev.defaults.unknownMetadata
              ⟨some (buildChunkContext fingerprint none metadata), none, request⟩
              (.str path, constraint) = .ok (! violated) ∧
            ((ev.defaults.unknownMetadata = "deny" → violated = true) ∧
                (ev.defaults.unknownMetadata = "allow" → violated = false) ↔
              (ev.defaults.unknownMetadata = "deny" → ¬ AdmitsNull constraint) ∧
                (ev.defaults.unknownMetadata = "allow" → AdmitsNull constraint)) := by
  intro hinit rule hrule path hpath constraint hmem fingerprint metadata request
  have hacc : Accepted rt.toStdlib chunkDomainRoots ev := ⟨bundle, source, hinit⟩
  have hj : jsonable constraint = true := (hacc.operators rule hrule).written _ hmem
  obtain ⟨b, hrun, hb⟩ := requireEntry_none rt hpath hj ev.defaults.unknownMetadata fingerprint
    metadata request
  refine ⟨! b, by rw [hrun, Bool.not_not], ?_⟩
  rw [← hb]
  cases b <;> simp

end

namespace Sample

/-- The document must meet the constraint, and unknown metadata is denied. -/
def indexedBundle (constraint : PyVal) : PyVal :=
  .dict [(.str "version", .int 1), (.str "policy_id", .str "documents"),
    (.str "defaults", .dict [(.str "unknown_metadata", .str "deny")]),
    (.str "rules", .list [.dict [(.str "name", .str "document"),
      (.str "require", .dict [(.str "chunk.document_id", constraint)])]])]

def unknownChunk : ChunkContext := buildChunkContext "sha256:aa" none none

end Sample

theorem unknown_follows_default_sample :
    ∃ ev, NativeYamlEvaluator.init Runtime.blank (Sample.indexedBundle (.str "d")) "policy.yaml" =
        .ok ev ∧
      requireEntryHolds Runtime.blank "deny" ⟨some Sample.unknownChunk, none, Sample.request⟩
        (.str "chunk.document_id", .str "d") = .ok false := by
  obtain ⟨ev, hinit⟩ : ∃ ev, NativeYamlEvaluator.init Runtime.blank (Sample.indexedBundle (.str "d"))
      "policy.yaml" = .ok ev := ⟨_, rfl⟩
  have hdefault : ev.defaults.unknownMetadata = "deny" := by
    obtain rfl := Except.ok.inj hinit
    rfl
  have hrule : (⟨"document", [], [(.str "chunk.document_id", .str "d")], .str "deny"⟩ : Rule) ∈
      ev.rules := by
    obtain rfl := Except.ok.inj hinit
    exact List.mem_cons_self
  obtain ⟨violated, hrun, hiff⟩ := unknown_follows_default_iff Runtime.blank _ _ ev hinit _ hrule
    "chunk.document_id" (by decide) (.str "d") List.mem_cons_self "sha256:aa" none Sample.request
  have hviolated := (hiff.mpr ⟨fun _ => by simp [AdmitsNull], by simp [hdefault]⟩).1 hdefault
  rw [hdefault, hviolated] at hrun
  exact ⟨ev, hinit, hrun⟩

/-- A chunk of no document is none of the excluded ones. -/
theorem unknown_passes_not_in :
    ∃ ev, NativeYamlEvaluator.init Runtime.blank
        (Sample.indexedBundle (.dict [(.str "not_in", .list [.str "secret"])])) "policy.yaml" =
          .ok ev ∧ ev.defaults.unknownMetadata = "deny" ∧
      ∃ d, NativeYamlEvaluator.evaluate Runtime.blank ev Sample.unknownChunk Sample.request = .ok d ∧
        d.decision = .allow :=
  ⟨_, rfl, rfl, _, rfl, rfl⟩

end Provenex
