import Provenex.Index.Shared
import Provenex.Proofs.Gate
import Provenex.Proofs.SqliteSafety

/-! A receipt issued over an index that others write meanwhile. The outcome of a
chunk and its entry come from two reads. -/

namespace Provenex

open Effect

/-! ## What the loop records -/

section

variable {σ : Type} {py : Stdlib} {index : ProvenanceIndex σ} {policy : Policy} {fp : Fingerprinter}
  {args : VerifyArgs}

theorem place_sources (acc : Gathered) (text : String) (block : Bool) :
    (acc.place text block).builder.sources = acc.builder.sources := by
  unfold Gathered.place
  split_ifs <;> rfl

/-- The two reads of a turn, and the record it leaves. -/
theorem verifyChunk_reads {acc acc' : Gathered} {item : String × ℕ} {s s' : σ}
    (h : verifyChunk py index policy fp args acc item s = .ok acc' s') :
    ∃ v : ChunkVerdict, ∃ u, v.fingerprint = fp.fingerprintChunk py item.1 ∧
      index.verify v.fingerprint s = .ok v.outcome u ∧
      index.lookup v.fingerprint u = .ok v.entry s' ∧
      acc'.builder.sources =
        acc.builder.sources ++ [v.record args.contentSource acc.builder.sources.length] := by
  rw [verifyChunk, bind_ok] at h
  obtain ⟨outcome, u, hverify, h⟩ := h
  rw [bind_ok] at h
  obtain ⟨entry, w, hlookup, h⟩ := h
  rw [bind_ok] at h
  obtain ⟨result, w', hlift, h⟩ := h
  obtain ⟨-, rfl⟩ := lift_ok.mp hlift
  have hsources : acc'.builder.sources = acc.builder.sources ++
      [(ChunkVerdict.mk (fp.fingerprintChunk py item.1) outcome entry result.normalizationApplied
        none).record args.contentSource acc.builder.sources.length] ∧ w = s' := by
    cases hac : policy.accessControl with
    | none =>
      simp only [hac] at h
      obtain ⟨rfl, rfl⟩ := pure_ok.mp h
      exact ⟨place_sources _ _ _, rfl⟩
    | some evaluator =>
      cases hreq : args.requestContext with
      | none =>
        simp only [hac, hreq] at h
        obtain ⟨rfl, rfl⟩ := pure_ok.mp h
        exact ⟨place_sources _ _ _, rfl⟩
      | some request =>
        simp only [hac, hreq] at h
        rw [bind_ok] at h
        obtain ⟨d, w', hlift', h⟩ := h
        obtain ⟨-, rfl⟩ := lift_ok.mp hlift'
        obtain ⟨rfl, rfl⟩ := pure_ok.mp h
        exact ⟨place_sources _ _ _, rfl⟩
  obtain ⟨hsources, rfl⟩ := hsources
  exact ⟨_, u, rfl, hverify, hlookup, hsources⟩

end

/-- What a record says of one document fits together. -/
structure SourceRecord.SelfConsistent (r : SourceRecord) : Prop where
  unverified : r.verificationOutcome = .unverified ↔
    r.documentId = none ∧ r.documentVersion = none ∧ r.ingestedAt = none ∧ r.chunkOffset = none ∧
      r.chunkLength = none ∧ r.authorized = none
  unauthorized : r.verificationOutcome = .unauthorized → r.authorized = some false
  authorized : r.verificationOutcome = .verified ∨ r.verificationOutcome = .stale →
    r.authorized = some true

namespace Sqlite

section

variable {py : Stdlib} {secret : Bytes}

/-! ## Calls that return or raise -/

/-- A call to `add` that raises has written nothing, or the document row. -/
theorem add_raised {conn : Connection} {now : String} {a : AddArgs} {e : PyErr}
    (h : (add py secret conn now a).1 = .error e) :
    (add py secret conn now a).2 = conn ∨
      (add py secret conn now a).2 = { conn with
        tables := conn.tables.upsertDocument a.documentId a.documentVersion a.authorized } := by
  unfold add at h ⊢
  by_cases h1 : ¬ startsWith a.fingerprint "sha256:"
  · rw [if_pos h1]
    exact .inl rfl
  by_cases h2 : ¬ startsWith a.documentVersion "sha256:"
  · rw [if_neg h1, if_pos h2]
    exact .inl rfl
  rw [if_neg h1, if_neg h2] at h ⊢
  cases hp : canonicalPayload a.fingerprint a.documentId a.documentVersion now a.chunkOffset
      a.chunkLength with
  | error e => exact .inl rfl
  | ok payload =>
    simp only [hp] at h ⊢
    by_cases h3 : ¬ (fitsInt64 a.chunkOffset ∧ fitsInt64 a.chunkLength)
    · rw [if_pos h3]
      exact .inr rfl
    · rw [if_neg h3] at h
      cases h

theorem add_returned {conn : Connection} {now : String} {a : AddArgs}
    (h : (add py secret conn now a).1 = .ok ()) :
    step py secret conn (.add now a) = .ok (add py secret conn now a).2 := by
  rw [step]
  generalize add py secret conn now a = r at h
  obtain ⟨r, conn'⟩ := r
  obtain rfl : r = .ok () := h
  rfl

theorem apply_consistent {conn : Connection} (hc : Consistent py secret conn.tables) (op : Op) :
    Consistent py secret (apply py secret conn op).tables := by
  cases op with
  | add now a =>
    cases hadd : (add py secret conn now a).1 with
    | ok _ => exact step_consistent hc (add_returned hadd)
    | error e =>
      rcases add_raised hadd with heq | heq
      · rw [apply, heq]
        exact hc
      · rw [apply, heq]
        exact hc.upsertDocument
  | setAuthorization d authorized => exact hc.authorize _
  | supersede d v => exact hc.renew (fun _ => rfl) fun _ => rfl

theorem applyAll_consistent (ops : List Op) {conn : Connection}
    (hc : Consistent py secret conn.tables) :
    Consistent py secret (applyAll py secret ops conn).tables := by
  induction ops generalizing conn with
  | nil => exact hc
  | cons op ops ih => exact ih (apply_consistent hc op)

theorem applyAll_append (ops ops' : List Op) (conn : Connection) :
    applyAll py secret (ops ++ ops') conn = applyAll py secret ops' (applyAll py secret ops conn) :=
  List.foldl_append

theorem consistent_init : Consistent py secret Connection.init.tables := by
  refine ⟨?_, ?_, ?_, ?_, ?_⟩ <;> simp [Connection.init, Tables.ids]

/-! ## The reads of one call -/

namespace Shared

/-- After `n` reads. -/
def after (py : Stdlib) (secret : Bytes) (s : Shared) (n : ℕ) : Shared :=
  ⟨s.atRead py secret n, s.pending.drop n⟩

theorem after_zero (s : Shared) : s.after py secret 0 = s := by
  simp [after, atRead, applyAll]

theorem arrive_after (s : Shared) (n : ℕ) :
    (s.after py secret n).arrive py secret = s.after py secret (n + 1) := by
  have hsplit : s.pending.take (n + 1) = s.pending.take n ++ (s.pending.drop n).take 1 :=
    List.take_add
  have hdrop : s.pending.drop (n + 1) = (s.pending.drop n).drop 1 := by rw [List.drop_drop]
  unfold arrive after atRead
  simp only [hsplit, hdrop, List.flatten_append, applyAll_append]
  cases s.pending.drop n with
  | nil => rfl
  | cons ops rest => simp

theorem atRead_consistent {s : Shared} (hc : Consistent py secret s.conn.tables) (n : ℕ) :
    Consistent py secret (s.atRead py secret n).tables :=
  applyAll_consistent _ hc

end Shared

theorem verify_shared {plan : QueryPlan} {fp : String} {s u : Shared} {o : VerificationOutcome} :
    (sharedIndex py secret plan).verify fp s = .ok o u ↔
      verify py secret plan (s.arrive py secret).conn fp = .ok o ∧ s.arrive py secret = u := lift_ok

theorem lookup_shared {plan : QueryPlan} {fp : String} {s u : Shared} {e : Option IndexEntry} :
    (sharedIndex py secret plan).lookup fp s = .ok e u ↔
      lookup plan (s.arrive py secret).conn fp = e ∧ s.arrive py secret = u := by
  simp [sharedIndex]

/-- The record of chunk `i`, in a call that began in state `s`. -/
def ReadRecord (py : Stdlib) (secret : Bytes) (plan : QueryPlan) (fp : Fingerprinter) (s : Shared)
    (text : String) (i : ℕ) (r : SourceRecord) : Prop :=
  ∃ v : ChunkVerdict, ∃ contentSource, v.fingerprint = fp.fingerprintChunk py text ∧
    verify py secret plan (s.atRead py secret (2 * i + 1)) v.fingerprint = .ok v.outcome ∧
    lookup plan (s.atRead py secret (2 * i + 2)) v.fingerprint = v.entry ∧
    r = v.record contentSource i

/-- Chunk `i` is verified at read `2 i + 1` and looked up at read `2 i + 2`. -/
theorem verifyLoop_reads {plan : QueryPlan} {policy : Policy} {fp : Fingerprinter}
    {args : VerifyArgs} {items : List (String × ℕ)} {acc : Gathered} {s s' : Shared}
    (h : forEach items (.init policy.verification)
      (verifyChunk py (sharedIndex py secret plan) policy fp args) s = .ok acc s') :
    acc.builder.sources.length = items.length ∧
      ∀ i item r, items[i]? = some item → acc.builder.sources[i]? = some r →
        ReadRecord py secret plan fp s item.1 i r := by
  have hloop := forEach_invariant (fun done acc u => u = s.after py secret (2 * done.length) ∧
    acc.builder.sources.length = done.length ∧
      ∀ i item r, done[i]? = some item → acc.builder.sources[i]? = some r →
        ReadRecord py secret plan fp s item.1 i r) ?_ items [] _ acc s s' ?_ h
  · exact hloop.2
  · rintro done acc u item acc' u' ⟨rfl, hlen, hrec⟩ hturn
    obtain ⟨v, w, hfp, hverify, hlookup, hsources⟩ := verifyChunk_reads hturn
    rw [verify_shared, Shared.arrive_after] at hverify
    obtain ⟨hverify, rfl⟩ := hverify
    rw [lookup_shared, Shared.arrive_after] at hlookup
    obtain ⟨hlookup, rfl⟩ := hlookup
    refine ⟨?_, by simp [hsources, hlen], ?_⟩
    · rw [List.length_append, List.length_singleton, mul_add, mul_one]
    · intro i it r hit hr
      rw [hsources] at hr
      rcases lt_trichotomy i done.length with hi | rfl | hi
      · rw [List.getElem?_append_left hi] at hit
        rw [List.getElem?_append_left (hlen ▸ hi)] at hr
        exact hrec i it r hit hr
      · rw [List.getElem?_concat_length] at hit
        rw [← hlen, List.getElem?_concat_length] at hr
        obtain rfl := Option.some.inj hit
        obtain rfl := Option.some.inj hr
        exact ⟨v, args.contentSource, hfp, hverify, hlookup, by rw [hlen]⟩
      · rw [List.getElem?_eq_none (by simp; omega)] at hit
        cases hit
  · exact ⟨(Shared.after_zero s).symm, rfl, by simp⟩

/-! ## The record against its two reads -/

theorem record_selfConsistent {v : ChunkVerdict} {contentSource : Option String} {i : ℕ} :
    (v.record contentSource i).SelfConsistent ↔
      (v.outcome = .unverified ↔ v.entry = none) ∧
      (v.outcome = .unauthorized → v.entry.map (·.authorized) = some false) ∧
      (v.outcome = .verified ∨ v.outcome = .stale → v.entry.map (·.authorized) = some true) := by
  have hnull : (v.entry.map (·.documentId) = none ∧ v.entry.map (·.documentVersion) = none ∧
      v.entry.map (·.ingestedAt) = none ∧ v.entry.map (·.chunkOffset) = none ∧
      v.entry.map (·.chunkLength) = none ∧ v.entry.map (·.authorized) = none) ↔ v.entry = none := by
    simp
  constructor
  · intro h
    exact ⟨h.unverified.trans hnull, h.unauthorized, h.authorized⟩
  · rintro ⟨hun, hunauth, hauth⟩
    exact ⟨hun.trans hnull.symm, hunauth, hauth⟩

/-- A record fits together exactly when its two reads found the same authorization. -/
theorem readRecord_selfConsistent {plan : QueryPlan} {fp : Fingerprinter} {s : Shared}
    {text : String} {i : ℕ} {r : SourceRecord} (hc : Consistent py secret s.conn.tables)
    (h : ReadRecord py secret plan fp s text i r) :
    r.SelfConsistent ↔
      (lookup plan (s.atRead py secret (2 * i + 1)) (fp.fingerprintChunk py text)).map
          (·.authorized) =
        (lookup plan (s.atRead py secret (2 * i + 2)) (fp.fingerprintChunk py text)).map
          (·.authorized) := by
  obtain ⟨v, contentSource, hfp, hverify, hlookup, rfl⟩ := h
  rw [← hfp, hlookup]
  rw [verify_eq plan _ (Shared.atRead_consistent hc _)] at hverify
  have houtcome := (Except.ok.inj hverify).symm
  rw [record_selfConsistent, houtcome]
  cases lookup plan (s.atRead py secret (2 * i + 1)) v.fingerprint with
  | none => cases v.entry <;> simp
  | some before =>
    -- an entry that was found is either unauthorized, or stale or verified
    cases v.entry with
    | none => cases ha : before.authorized <;> cases hs : before.superseded <;> simp [ha, hs]
    | some entry =>
      cases ha : before.authorized <;> cases hs : before.superseded <;>
        cases he : entry.authorized <;> simp [ha, hs, he]

/-! ## The receipt -/

/-- Over an index that others write meanwhile, the records fit together exactly when, for every
chunk, the lookup finds the authorization that the verification just before it found. -/
theorem shared_records_iff (plan : QueryPlan) (history : List Op) (pending : List (List Op))
    (args : VerifyArgs) (issue : Issue) (out : VerifiedChunks) (s' : Shared)
    (h : verifyChunks py (sharedIndex py secret plan) args issue
      ⟨applyAll py secret history .init, pending⟩ = .ok out s') :
    ∃ texts, coerceChunks py args.chunks = .ok texts ∧
      out.receipt.sources.length = texts.length ∧
      ((∀ r ∈ out.receipt.sources, r.SelfConsistent) ↔ ∀ i text, texts[i]? = some text →
        let s : Shared := ⟨applyAll py secret history .init, pending⟩
        let fingerprint := (args.fingerprinter.getD .default).fingerprintChunk py text
        (lookup plan (s.atRead py secret (2 * i + 1)) fingerprint).map (·.authorized) =
          (lookup plan (s.atRead py secret (2 * i + 2)) fingerprint).map (·.authorized)) := by
  obtain ⟨policy, texts, gathered, -, ht, -, hloop, hemit⟩ := verifyChunks_ok.mp h
  have hsources := (emitReceipt_ok hemit).finalized.sources
  obtain ⟨hlen, hrec⟩ := verifyLoop_reads hloop
  rw [← hsources, List.length_zipIdx] at hlen
  have hc : Consistent py secret (applyAll py secret history .init).tables :=
    applyAll_consistent history consistent_init
  have hat (i : ℕ) (text : String) (r : SourceRecord) (hi : texts[i]? = some text)
      (hr : out.receipt.sources[i]? = some r) := by
    refine readRecord_selfConsistent (s := ⟨applyAll py secret history .init, pending⟩) hc
      (hrec i (text, i) r ?_ (hsources ▸ hr))
    rw [List.getElem?_zipIdx, hi]
    simp
  refine ⟨texts, ht, hlen, ?_⟩
  constructor
  · intro hall i text hi
    have hi' : i < out.receipt.sources.length := hlen ▸ (List.getElem?_eq_some_iff.mp hi).1
    exact (hat i text _ hi (List.getElem?_eq_getElem hi')).mp (hall _ (List.getElem_mem hi'))
  · intro hall r hr
    obtain ⟨i, hi, rfl⟩ := List.mem_iff_getElem.mp hr
    have hi' : i < texts.length := hlen ▸ hi
    have htext := List.getElem?_eq_getElem hi'
    exact (hat i _ _ htext (List.getElem?_eq_getElem hi)).mpr (hall i _ htext)

end

/-! One chunk, of a document that loses its authorization, or its version, between the two reads. -/

namespace Sample

def sharedMac : Bytes :=
  [151, 151, 37, 103, 72, 45, 153, 193, 231, 198, 248, 210, 243, 28, 114, 154, 11, 178, 59, 239, 108,
   47, 126, 91, 192, 93, 106, 96, 207, 89, 11, 161]

def sharedPy : Stdlib := { Provenex.Sample.gatePy with hmacSha256 := fun _ _ => sharedMac }

def sharedHistory : List Op :=
  [.add "2024-01-01T00:00:00.000Z"
    ⟨"sha256:ca978112ca1bbdcafac231b39a23dc4da786eff8147c4e72b9807785afee48bb", "doc", "sha256:01", 0,
      1, true⟩]

def sharedArgs : VerifyArgs where
  chunks := .items [.text "a"]
  signer := none
  policy := .absent
  fingerprinter := none
  trajectory := none
  stepKind := none
  agentId := none
  outputText := ""
  requestContext := none
  chunkMetadata := none
  chunkMetadataBinding := bindingAtEvaluate
  callerHashSalt := none
  contentSource := none

def sharedState (pending : List (List Op)) : Shared :=
  ⟨applyAll sharedPy secret sharedHistory .init, pending⟩

def sharedConn : Connection :=
  .commit
    { documents := [⟨"doc", 1, "sha256:01"⟩]
      fingerprints :=
        [⟨"sha256:ca978112ca1bbdcafac231b39a23dc4da786eff8147c4e72b9807785afee48bb", "doc",
          "sha256:01", "2024-01-01T00:00:00.000Z", 0, 1, 0, hexdigest sharedMac⟩] }

theorem sharedState_eq (pending : List (List Op)) : sharedState pending = ⟨sharedConn, pending⟩ := by
  have h : applyAll sharedPy secret sharedHistory .init = sharedConn := by decide +kernel
  rw [sharedState, h]

end Sample

theorem shared_records_sample :
    ∃ out s', verifyChunks Sample.sharedPy (sharedIndex Sample.sharedPy Sample.secret Sample.plan)
        Sample.sharedArgs ⟨"r", "now"⟩ (Sample.sharedState [[], [.supersede "doc" "sha256:02"]]) =
          .ok out s' ∧
      ∀ r ∈ out.receipt.sources, r.SelfConsistent := by
  obtain ⟨out, s', h⟩ : ∃ out s', verifyChunks Sample.sharedPy
      (sharedIndex Sample.sharedPy Sample.secret Sample.plan) Sample.sharedArgs ⟨"r", "now"⟩
      (Sample.sharedState [[], [.supersede "doc" "sha256:02"]]) = .ok out s' := by
    rw [Sample.sharedState_eq]
    exact ⟨_, _, rfl⟩
  refine ⟨out, s', h, ?_⟩
  obtain ⟨texts, ht, -, hiff⟩ := shared_records_iff Sample.plan Sample.sharedHistory
    [[], [.supersede "doc" "sha256:02"]] Sample.sharedArgs ⟨"r", "now"⟩ out s' h
  obtain rfl := Except.ok.inj ht
  refine hiff.mpr ?_
  rintro (_ | i) text ⟨⟩
  decide +kernel

/-- The document is revoked after the chunk was verified and before its entry was read: the chunk
is kept as verified, on a record that shows its document unauthorized. -/
theorem revoked_between_reads :
    ∃ out s' r, verifyChunks Sample.sharedPy
        (sharedIndex Sample.sharedPy Sample.secret Sample.plan) Sample.sharedArgs ⟨"r", "now"⟩
        (Sample.sharedState [[], [.setAuthorization "doc" false]]) = .ok out s' ∧
      out.kept = ["a"] ∧ out.receipt.sources = [r] ∧ r.verificationOutcome = .verified ∧
      r.authorized = some false ∧ ¬ r.SelfConsistent := by
  rw [Sample.sharedState_eq]
  refine ⟨_, _, _, rfl, rfl, rfl, rfl, rfl, ?_⟩
  intro h
  exact absurd (h.authorized (.inl rfl)) (by decide)

end Sqlite

end Provenex
