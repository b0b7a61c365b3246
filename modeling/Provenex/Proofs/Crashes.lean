import Provenex.Policy.Contexts
import Provenex.Proofs.Observation
import Provenex.Proofs.VersionHash

/-! Where an accepted policy raises: on inputs that cannot be recorded, on a path that the
validator passed over, and on an age that cannot be reported. -/

namespace Provenex

section

variable {Ω : Type} (rt : Runtime Ω)

/-- The inputs have bytes, and the walk over the rules meets nothing it raises on. -/
def ChunkDecided (ev : NativeYaml) (chunk : JsonChunk) (request : JsonRequest) : Prop :=
  ∃ c r, chunk.context? = some c ∧ request.context? = some r ∧
    jsonable (.dict (buildInputs c r)) = true ∧
    WalkSound rt ev.defaults.unknownMetadata ⟨some c, none, r⟩ ev.rules

def ToolCallDecided (ev : NativeYaml) (tool : JsonToolCall) (request : JsonRequest) : Prop :=
  ∃ t r, tool.context? = some t ∧ request.context? = some r ∧
    jsonable (.dict (buildToolCallInputs t r)) = true ∧
    WalkSound rt ev.defaults.unknownMetadata ⟨none, some t, r⟩ ev.rules

theorem JsonRequest.context_timestamp {request : JsonRequest} {r : RequestContext}
    (h : request.context? = some r) : ∃ now, r.timestamp = .str now := by
  simp only [JsonRequest.context?, Option.bind_eq_bind, Option.bind_eq_some_iff,
    Option.some.injEq] at h
  obtain ⟨_, -, _, -, _, -, now, -, rfl⟩ := h
  exact ⟨now, rfl⟩

/-- An accepted policy decides exactly where the inputs have bytes, and the walk over its rules
comes to known paths and to ages that can be reported. -/
theorem accepted_decides_iff (bundle : PyVal) (source : String) (ev : NativeYaml)
    (request : JsonRequest) :
    (NativeYamlEvaluator.init rt bundle source = .ok ev → ∀ chunk : JsonChunk,
      ((∃ d, NativeYamlEvaluator.evaluateJson rt ev chunk request = .ok d) ↔
        ChunkDecided rt ev chunk request)) ∧
    (NativeYamlToolCallEvaluator.init rt bundle source = .ok ev → ∀ tool : JsonToolCall,
      ((∃ d, NativeYamlToolCallEvaluator.evaluateJson rt ev tool request = .ok d) ↔
        ToolCallDecided rt ev tool request)) := by
  constructor
  · intro hinit chunk
    have hacc : Accepted rt.toStdlib chunkDomainRoots ev := ⟨bundle, source, hinit⟩
    unfold NativeYamlEvaluator.evaluateJson ChunkDecided
    cases hc : chunk.context? with
    | none => simp
    | some c =>
      cases hr : request.context? with
      | none => simp
      | some r =>
        obtain ⟨now, hnow⟩ := JsonRequest.context_timestamp hr
        have hreturns : (∃ d, ev.evaluateView rt (buildInputs c r) ⟨some c, none, r⟩ = .ok d) ↔ _ :=
          evaluateView_returns hacc.operators hnow
        refine hreturns.trans ⟨fun h => ⟨c, r, rfl, rfl, h⟩, ?_⟩
        rintro ⟨_, _, ⟨⟩, ⟨⟩, h⟩
        exact h
  · intro hinit tool
    have hacc : Accepted rt.toStdlib toolCallDomainRoots ev := ⟨bundle, source, hinit⟩
    unfold NativeYamlToolCallEvaluator.evaluateJson ToolCallDecided
    cases ht : tool.context? with
    | none => simp
    | some t =>
      cases hr : request.context? with
      | none => simp
      | some r =>
        obtain ⟨now, hnow⟩ := JsonRequest.context_timestamp hr
        have hreturns : (∃ d, ev.evaluateView rt (buildToolCallInputs t r) ⟨none, some t, r⟩ = .ok d) ↔ _ :=
          evaluateView_returns hacc.operators hnow
        refine hreturns.trans ⟨fun h => ⟨t, r, rfl, rfl, h⟩, ?_⟩
        rintro ⟨_, _, ⟨⟩, ⟨⟩, h⟩
        exact h

end

namespace Sample

/-- An access-control policy of one rule, for what this path resolves to an admin's. -/
def adminBundle (path : String) : PyVal :=
  .dict [(.str "version", .int 1), (.str "policy_id", .str "admins"),
    (.str "rules", .list [.dict [(.str "name", .str "admins"),
      (.str "when", .dict [(.str path, .str "admin")])]])]

/-- A chunk with this metadata, and nothing else. -/
def bareChunk (metadata : JsonObject) : JsonChunk :=
  ⟨.str "sha256:aa", .none, .none, .none, metadata, .none, .none, .none⟩

/-- A request at this time, and nothing else. -/
def bareRequest (timestamp : String) : JsonRequest := ⟨[], .null, .null, .of timestamp, none⟩

theorem bareRequest_context (timestamp : String) : (bareRequest timestamp).context? =
    some ⟨[], .none, .none, .str timestamp, none⟩ := by
  have htext : (PyText.of timestamp).string? = some timestamp := string_of timestamp
  simp [JsonRequest.context?, bareRequest, pyEntries?, JsonVal.pyVal?, htext]

end Sample

theorem accepted_decides_iff_sample :
    ∃ ev d, NativeYamlEvaluator.init Runtime.blank (Sample.adminBundle "request.caller.role")
        "policy.yaml" = .ok ev ∧
      NativeYamlEvaluator.evaluateJson Runtime.blank ev
        (Sample.bareChunk [(.of "tags", .list [.int 1, .text (.of "hr")])])
        (Sample.bareRequest "2026-01-01T00:00:00Z") = .ok d := by
  obtain ⟨ev, hinit⟩ : ∃ ev, NativeYamlEvaluator.init Runtime.blank
      (Sample.adminBundle "request.caller.role") "policy.yaml" = .ok ev := ⟨_, rfl⟩
  obtain ⟨hchunk, -⟩ := accepted_decides_iff Runtime.blank (Sample.adminBundle "request.caller.role")
    "policy.yaml" ev (Sample.bareRequest "2026-01-01T00:00:00Z")
  obtain ⟨d, hd⟩ := (hchunk hinit (Sample.bareChunk
      [(.of "tags", .list [.int 1, .text (.of "hr")])])).mpr
    ⟨_, _, rfl, Sample.bareRequest_context _, rfl, by
      obtain rfl := Except.ok.inj hinit
      refine walkSound_of_known _ _ ?_
      simp only [List.forall_mem_cons, List.not_mem_nil, false_imp_iff, implies_true, and_true]
      exact ⟨_, rfl, by decide⟩⟩
  exact ⟨ev, d, hinit, hd⟩

namespace Sample

theorem evaluateJson_contexts {ev : NativeYaml} {chunk : JsonChunk} {request : JsonRequest}
    {c : ChunkContext} {r : RequestContext} {rt : Runtime Empty} (hc : chunk.context? = some c)
    (hr : request.context? = some r) : NativeYamlEvaluator.evaluateJson rt ev chunk request =
      NativeYamlEvaluator.evaluate rt ev c r := by
  rw [NativeYamlEvaluator.evaluateJson, hc, hr]

/-- The chunk with a tier and a time, as a caller may build it. -/
def seenJson : JsonChunk :=
  bareChunk [(.of "tier", .text (.of "b")), (.of "seen", .text (.of "1970-01-01T00:00:00Z"))]

theorem seenJson_context : seenJson.context? = some seenChunk := by
  simp [JsonChunk.context?, seenJson, bareChunk, pyEntries?, JsonVal.pyVal?, seenChunk]

/-- A text that is half of a surrogate pair. -/
def loneChunk : JsonChunk := bareChunk [(.of "note", .text [.half ⟨0, by decide⟩])]

end Sample

/-- Three policies that are accepted and raise: on a path without a dot, on metadata that has no
bytes, and on a limit that cannot be reported. -/
theorem accepted_policy_raises :
    (∃ ev e, NativeYamlEvaluator.init Runtime.blank (Sample.adminBundle "role") "policy.yaml" =
        .ok ev ∧
      NativeYamlEvaluator.evaluateJson Runtime.blank ev (Sample.bareChunk [])
        (Sample.bareRequest "2026-01-01T00:00:00Z") = .error e) ∧
    (∃ ev e, NativeYamlEvaluator.init Runtime.blank (Sample.adminBundle "request.caller.role")
        "policy.yaml" = .ok ev ∧
      NativeYamlEvaluator.evaluateJson Runtime.blank ev Sample.loneChunk
        (Sample.bareRequest "2026-01-01T00:00:00Z") = .error e) ∧
    ∃ ev e, NativeYamlEvaluator.init Sample.epochClock (.dict (Sample.agedBundle [[Sample.ageEntry]]))
        "policy.yaml" = .ok ev ∧
      NativeYamlEvaluator.evaluateJson Sample.epochClock ev Sample.seenJson
        (Sample.bareRequest "2026-01-01T00:00:00Z") = .error e := by
  have hrequest := Sample.bareRequest_context "2026-01-01T00:00:00Z"
  refine ⟨?_, ?_, ?_⟩
  · obtain ⟨ev, hinit⟩ : ∃ ev, NativeYamlEvaluator.init Runtime.blank (Sample.adminBundle "role")
        "policy.yaml" = .ok ev := ⟨_, rfl⟩
    obtain ⟨e, he⟩ : ∃ e, NativeYamlEvaluator.evaluate Runtime.blank ev
        ⟨.str "sha256:aa", .none, .none, .none, [], .none⟩ Sample.request = .error e := by
      obtain rfl := Except.ok.inj hinit
      exact ⟨_, rfl⟩
    exact ⟨ev, e, hinit, (Sample.evaluateJson_contexts rfl hrequest).trans he⟩
  · exact ⟨_, _, rfl, rfl⟩
  · have hone : ∀ require ∈ [[Sample.ageEntry]], ∀ e ∈ require,
        e = Sample.tierEntry ∨ e = Sample.ageEntry := by
      simp only [List.forall_mem_cons, List.not_mem_nil, false_imp_iff, implies_true, and_true,
        or_true]
    obtain ⟨hash, hrun⟩ := Sample.agedEvaluator_run [[Sample.ageEntry]]
    rw [List.map_cons, Sample.readRule_raises] at hrun
    exact ⟨_, _, NativeYaml.init_ok.mpr ⟨_, rfl, Sample.agedBundle_checked hone rfl⟩,
      (Sample.evaluateJson_contexts Sample.seenJson_context hrequest).trans hrun⟩

end Provenex
