import Provenex.Proofs.Corruption
import Provenex.Proofs.RoundTrip
import Provenex.Proofs.Shared

/-! An operator who rewrites the tables without the key. Two columns that decide
the outcome are not signed, so what such a rewrite can reach is decided by the
row that the query then selects. -/

namespace Provenex.Sqlite

section

variable {py : Stdlib} {secret : Bytes} {stored : StoredPlan}

/-- The bytes that a call signs. -/
def Op.Signs (payload : Bytes) : Op → Prop
  | .add now a => startsWith a.fingerprint "sha256:" = true ∧
      startsWith a.documentVersion "sha256:" = true ∧
      canonicalPayload a.fingerprint a.documentId a.documentVersion now a.chunkOffset
        a.chunkLength = .ok payload
  | .setAuthorization _ _ => False
  | .supersede _ _ => False

/-- Tables that an operator without the key can leave: no row has a valid signature that the index
did not make. -/
def Unforged (py : Stdlib) (secret : Bytes) (history : List Op) (t : StoredTables) : Prop :=
  ∀ r ∈ t.fingerprints, ∀ payload, r.payload = .ok payload →
    r.signature = .text (sign py payload secret) → ∃ op ∈ history, op.Signs payload

/-- The row can be read, has a valid signature, and the index made it. -/
def Authentic (py : Stdlib) (secret : Bytes) (history : List Op) (row : StoredRow) : Prop :=
  (∀ c ∈ selected row, c.isGarbled = false) ∧ ∃ payload, row.1.payload = .ok payload ∧
    row.1.signature = .text (sign py payload secret) ∧ ∃ op ∈ history, op.Signs payload

/-! ## What is verified -/

theorem mem_storedJoined {t : StoredTables} {fp : String} {row : StoredRow}
    (h : row ∈ t.joined fp) : row.1 ∈ t.fingerprints ∧ row.1.fingerprint = .text fp := by
  simp only [StoredTables.joined, List.mem_flatMap, List.mem_filter, List.mem_map,
    decide_eq_true_eq] at h
  obtain ⟨f, ⟨hf, hfp⟩, d, -, rfl⟩ := h
  exact ⟨hf, hfp⟩

theorem storedRow_mem {t : StoredTables} {fp : String} {row : StoredRow}
    (h : storedRow stored t fp = some row) : row ∈ t.joined fp := by
  have := List.mem_of_mem_head? h
  rwa [List.mem_insertionSort, (stored.perm _).mem_iff] at this

/-- A chunk is verified by a signed row that is not superseded, of an authorized document. -/
theorem verifyStored_verified {t : StoredTables} {fp : String} :
    verifyStored py secret stored t fp = .ok .verified ↔
      ∃ row, storedRow stored t fp = some row ∧ (∀ c ∈ selected row, c.isGarbled = false) ∧
        SignedNow py secret row.1 ∧ row.2.authorized.truthy = true ∧
        row.1.superseded.truthy = false := by
  rw [verifyStored]
  cases hsel : storedRow stored t fp with
  | none => simp
  | some row =>
    simp only [Guard.bind_ok, Option.some.injEq, exists_eq_left']
    constructor
    · rintro ⟨u, hdecoded, payload, hp, same, hsame, h⟩
      cases same with
      | false => simp at h
      | true =>
        have hs := (compareCell_true (hexdigest_ascii _)).mp hsame
        refine ⟨decoded_iff.mp hdecoded, ⟨payload, hp, hs⟩, ?_⟩
        by_cases ha : row.2.authorized.truthy = true
        · by_cases hsup : row.1.superseded.truthy = true
          · simp [ha, hsup] at h
          · exact ⟨ha, by simpa using hsup⟩
        · simp [ha] at h
    · rintro ⟨hdecoded, ⟨payload, hp, hs⟩, ha, hsup⟩
      refine ⟨(), decoded_iff.mpr hdecoded, payload, hp, true,
        (compareCell_true (hexdigest_ascii _)).mpr hs, ?_⟩
      simp [ha, hsup]

/-! ## What was stored -/

/-- Some row of the tables has this fingerprint. -/
def Tables.Holds (t : Tables) (fp : String) : Prop := ∃ r ∈ t.fingerprints, r.fingerprint = fp

theorem holds_insertOrIgnore {t : Tables} {fp : String} (row : FingerprintRow) (h : t.Holds fp) :
    (t.insertOrIgnore row).Holds fp := by
  obtain ⟨r, hr, hfp⟩ := h
  exact ⟨r, mem_insertOrIgnore.mpr (.inl hr), hfp⟩

/-- An add that signs, with integers that can be bound, returns. -/
theorem add_signs {conn : Connection} {now : String} {a : AddArgs} {payload : Bytes}
    (h : (Op.add now a).Signs payload) (hi : fitsInt64 a.chunkOffset ∧ fitsInt64 a.chunkLength) :
    apply py secret conn (.add now a) = .commit ((conn.tables.upsertDocument a.documentId
      a.documentVersion a.authorized).insertOrIgnore (a.row py secret now payload)) := by
  obtain ⟨h1, h2, hp⟩ := h
  rw [apply, add_ok h1 h2 hp hi]

theorem holds_apply {conn : Connection} {fp : String} (h : conn.tables.Holds fp) (op : Op) :
    (apply py secret conn op).tables.Holds fp := by
  cases op with
  | add now a =>
    have hup : (conn.tables.upsertDocument a.documentId a.documentVersion a.authorized).Holds fp :=
      (upsertDocument_fingerprint fp).mpr h
    cases hadd : (add py secret conn now a).1 with
    | ok _ =>
      obtain ⟨payload, -, heq⟩ := step_add (add_returned hadd)
      rw [apply, heq]
      exact holds_insertOrIgnore _ hup
    | error e =>
      rw [apply]
      rcases add_raised hadd with heq | heq
      · rwa [heq]
      · rw [heq]
        exact hup
  | setAuthorization d authorized => exact h
  | supersede d v => exact (sweep_fingerprint fp).mpr h

theorem holds_applyAll (ops : List Op) {conn : Connection} {fp : String}
    (h : conn.tables.Holds fp) : (applyAll py secret ops conn).tables.Holds fp := by
  induction ops generalizing conn with
  | nil => exact h
  | cons op ops ih => exact ih (holds_apply h op)

/-- What the index signed and could store, it holds. -/
theorem holds_signed {history : List Op} {conn : Connection} {payload : Bytes} {now : String}
    {a : AddArgs} (hop : .add now a ∈ history) (hs : (Op.add now a).Signs payload)
    (hi : fitsInt64 a.chunkOffset ∧ fitsInt64 a.chunkLength) :
    (applyAll py secret history conn).tables.Holds a.fingerprint := by
  obtain ⟨before, after, rfl⟩ := List.append_of_mem hop
  rw [applyAll_append]
  refine holds_applyAll after ?_
  rw [add_signs hs hi]
  generalize (applyAll py secret before conn).tables.upsertDocument _ _ _ = t
  by_cases hk : ∃ r' ∈ t.fingerprints, r'.key = (a.row py secret now payload).key
  · obtain ⟨r', hr', hk⟩ := hk
    exact holds_insertOrIgnore _ ⟨r', hr', congrArg Prod.fst hk⟩
  · push Not at hk
    exact ⟨_, mem_insertOrIgnore.mpr (.inr ⟨rfl, hk⟩), rfl⟩

/-! ## What is signed -/

/-- Where a column of integers reads like an integer, it holds it. -/
theorem Cell.eq_int {c : Cell} (hc : c.inInteger = true) {i : ℤ} (h : c.str = toString i) :
    c = .int i ∧ fitsInt64 i := by
  have hread {s : String} (hs : (readInt s.toList).isNone = true) : s ≠ toString i := by
    rintro rfl
    rw [readInt_token] at hs
    cases hs
  cases c with
  | int j =>
    obtain rfl := intToken_inj (congrArg String.toList h)
    exact ⟨rfl, of_decide_eq_true hc⟩
  | real x r => exact absurd h (hread hc)
  | text s => exact absurd h (hread hc)
  | garbled b => exact absurd h (hread rfl)
  | blob b =>
    have hb : 'b' ∈ (toString i).toList := by
      rw [← h, str, bytesRepr]
      simp
    rcases intToken_chars hb with h | h
    · exact absurd h (by decide)
    · exact absurd h (by decide)

/-- A row with the payload of a call is a row of its fingerprint, and its integers can be bound. -/
theorem payload_signs {r : StoredFingerprint} {payload : Bytes} {now : String} {a : AddArgs}
    (hp : r.payload = .ok payload) (hs : (Op.add now a).Signs payload) :
    r.fingerprint = .text a.fingerprint ∧ fitsInt64 a.chunkOffset ∧ fitsInt64 a.chunkLength := by
  obtain ⟨f, d, v, t, ⟨hf, -⟩, -, hpayload⟩ := stored_payload_eq.mp hp
  obtain ⟨⟨⟨cf, cd, cv, ct⟩, -⟩, hsigned⟩ := canonicalPayload_ok.mp hs.2.2
  have hparts : [f, d, v, t, r.chunkOffset.str, r.chunkLength.str] = [a.fingerprint, a.documentId,
      a.documentVersion, now, toString a.chunkOffset, toString a.chunkLength] :=
    joinWith_inj_length (payload_parts cf cd cv ct a.chunkOffset a.chunkLength) rfl
      (encodeUtf8_inj (hpayload.trans hsigned.symm))
  simp only [List.cons.injEq, and_true] at hparts
  obtain ⟨rfl, -, -, -, ho, hl⟩ := hparts
  have hints := List.forall_mem_cons.mp r.inInteger
  exact ⟨hf, (Cell.eq_int hints.1 ho).2, (Cell.eq_int (List.forall_mem_cons.mp hints.2).1 hl).2⟩

/-! ## The tables of the index -/

theorem fits_sqlFlag (authorized : Bool) : fitsInt64 (sqlFlag authorized) := by
  cases authorized <;> decide

theorem Tables.Fits.sweep {t : Tables} (h : t.Fits) (d v : String) : (t.sweep d v).Fits := by
  refine ⟨h.documents, fun r hr => ?_⟩
  obtain ⟨r0, h0, ⟨rfl, -⟩ | ⟨rfl, -⟩⟩ := mem_sweep hr
  · exact h.fingerprints r h0
  · exact ⟨(h.fingerprints r0 h0).1, (h.fingerprints r0 h0).2.1, fits_sqlFlag true⟩

theorem Tables.Fits.updateDocument {t : Tables} (h : t.Fits) (d : String)
    {set : DocumentRow → DocumentRow}
    (hset : ∀ e, fitsInt64 e.authorized → fitsInt64 (set e).authorized) :
    (t.updateDocument d set).Fits := by
  refine ⟨fun e he => ?_, h.fingerprints⟩
  obtain ⟨e0, h0, rfl⟩ := List.mem_map.mp he
  split_ifs with hid
  · exact hset e0 (h.documents e0 h0)
  · exact h.documents e0 h0

theorem Tables.Fits.upsertDocument {t : Tables} (h : t.Fits) (d v : String) (authorized : Bool) :
    (t.upsertDocument d v authorized).Fits := by
  have hflag := fits_sqlFlag authorized
  unfold Tables.upsertDocument
  split
  · refine ⟨fun e he => ?_, h.fingerprints⟩
    rcases List.mem_append.mp he with he | he
    · exact h.documents e he
    · obtain rfl := List.mem_singleton.mp he
      exact hflag
  · split_ifs
    · exact (h.sweep d v).updateDocument d fun _ _ => hflag
    · exact h.updateDocument d fun _ _ => hflag

theorem add_fits {conn : Connection} {now : String} {a : AddArgs}
    (h : (add py secret conn now a).1 = .ok ()) :
    fitsInt64 a.chunkOffset ∧ fitsInt64 a.chunkLength := by
  by_contra hi
  rw [add] at h
  split_ifs at h
  split at h
  · cases h
  · cases h

theorem Tables.Fits.apply {conn : Connection} (h : conn.tables.Fits) (op : Op) :
    (Sqlite.apply py secret conn op).tables.Fits := by
  cases op with
  | add now a =>
    have hup := h.upsertDocument a.documentId a.documentVersion a.authorized
    cases hadd : (add py secret conn now a).1 with
    | ok u =>
      obtain ⟨payload, -, heq⟩ := step_add (add_returned hadd)
      obtain ⟨ho, hl⟩ := add_fits hadd
      rw [Sqlite.apply, heq]
      refine ⟨?_, fun r hr => ?_⟩
      · intro d hd
        refine hup.documents d ?_
        unfold Connection.commit Tables.insertOrIgnore at hd
        split_ifs at hd <;> exact hd
      · rcases mem_insertOrIgnore.mp hr with hr | ⟨rfl, -⟩
        · exact hup.fingerprints r hr
        · exact ⟨ho, hl, fits_sqlFlag false⟩
    | error e =>
      rw [Sqlite.apply]
      rcases add_raised hadd with heq | heq
      · rwa [heq]
      · rw [heq]
        exact hup
  | setAuthorization d authorized => exact h.updateDocument d fun _ _ => fits_sqlFlag authorized
  | supersede d v => exact (h.sweep d v).updateDocument d fun _ hd => hd

theorem fits_applyAll (history : List Op) {conn : Connection} (h : conn.tables.Fits) :
    (applyAll py secret history conn).tables.Fits := by
  induction history generalizing conn with
  | nil => exact h
  | cons op ops ih => exact ih (h.apply op)

/-- On the tables that a history leaves, the reads over cells are those of the index. -/
theorem verifyStored_applyAll {plan : QueryPlan} (hplan : SamePlan plan stored)
    (history : List Op) (fp : String) :
    verifyStored py secret stored (applyAll py secret history .init).tables.stored fp =
      verify py secret plan (applyAll py secret history .init) fp :=
  verifyStored_stored hplan (fits_applyAll history ⟨by simp [Connection.init], by
    simp [Connection.init]⟩) fp

/-! ## Resistance -/

/-- What passes after a rewrite was ingested. -/
theorem verified_held {stored : StoredPlan} {history : List Op} {t : StoredTables}
    (h : Unforged py secret history t) {fp : String}
    (hafter : verifyStored py secret stored t fp = .ok .verified) :
    (applyAll py secret history .init).tables.Holds fp := by
  obtain ⟨row, hsel, -, ⟨payload, hp, hs⟩, -⟩ := verifyStored_verified.mp hafter
  obtain ⟨hr, hfp⟩ := mem_storedJoined (storedRow_mem hsel)
  obtain ⟨op, hop, hsigns⟩ := h _ hr payload hp hs
  cases op with
  | add now a =>
    obtain ⟨hf, hi⟩ := payload_signs hp hsigns
    obtain rfl := Cell.text.inj (hfp.symm.trans hf)
    exact holds_signed hop hsigns hi
  | setAuthorization d authorized => exact hsigns.elim
  | supersede d v => exact hsigns.elim

/-- A chunk that is held has an outcome of its own. -/
theorem held_not_unverified (plan : QueryPlan) {conn : Connection}
    (hc : Consistent py secret conn.tables) {fp : String} (hholds : conn.tables.Holds fp) :
    verify py secret plan conn fp ≠ .ok .unverified := by
  intro hun
  have hbefore := verify_eq plan fp hc
  cases hl : lookup plan conn fp with
  | none => exact (lookup_none plan hc).mp hl hholds
  | some e =>
    rw [hl, hun] at hbefore
    have hne := Except.ok.inj hbefore
    simp only at hne
    split_ifs at hne

/-- No rewrite makes a chunk that was never ingested pass. For the others, a rewrite makes one
pass exactly when the row that the query then selects is one the index signed, and the rewrite
has left it and its document with the two unsigned flags of a chunk that passes. -/
theorem tamper_resistance_iff (plan : QueryPlan) (stored : StoredPlan) (history : List Op)
    (t : StoredTables) (h : Unforged py secret history t) (fp : String) :
    ((∀ o ∈ [VerificationOutcome.unauthorized, .stale, .unverified],
        verify py secret plan (applyAll py secret history .init) fp = .ok o →
          verifyStored py secret stored t fp ≠ .ok .verified) ↔
      ∀ row, storedRow stored t fp = some row → Authentic py secret history row →
        (∃ e, lookup plan (applyAll py secret history .init) fp = some e ∧
          e.authorized = true ∧ e.superseded = false) ∨
        row.2.authorized.truthy = false ∨ row.1.superseded.truthy = true) ∧
    (verify py secret plan (applyAll py secret history .init) fp = .ok .unverified →
      verifyStored py secret stored t fp ≠ .ok .verified) := by
  have hc : Consistent py secret (applyAll py secret history .init).tables :=
    applyAll_consistent history consistent_init
  have hbefore := verify_eq plan fp hc
  refine ⟨⟨?_, ?_⟩, ?_⟩
  · intro hres row hsel ⟨hdecoded, payload, hp, hs, _⟩
    by_contra hnot
    push Not at hnot
    obtain ⟨hlook, ha, hsup⟩ := hnot
    have hafter := verifyStored_verified.mpr ⟨row, hsel, hdecoded, ⟨payload, hp, hs⟩,
      by simpa using ha, by simpa using hsup⟩
    cases hl : lookup plan (applyAll py secret history .init) fp with
    | none =>
      rw [hl] at hbefore
      exact hres .unverified (by simp) hbefore hafter
    | some e =>
      rw [hl] at hbefore
      by_cases hea : e.authorized = true
      · have hes : e.superseded = true := by simpa using hlook e hl hea
        exact hres .stale (by simp) (by simpa [hea, hes] using hbefore) hafter
      · exact hres .unauthorized (by simp) (by simpa [hea] using hbefore) hafter
  · intro hcond o ho hout hafter
    obtain ⟨row, hsel, hdecoded, ⟨payload, hp, hs⟩, ha, hsup⟩ := verifyStored_verified.mp hafter
    have hmem := (mem_storedJoined (storedRow_mem hsel)).1
    rcases hcond row hsel ⟨hdecoded, payload, hp, hs, h _ hmem payload hp hs⟩ with
      ⟨e, hl, hea, hes⟩ | h0 | h1
    · rw [hl] at hbefore
      obtain rfl := Except.ok.inj (hout.symm.trans hbefore)
      simp [hea, hes] at ho
    · rw [ha] at h0
      cases h0
    · rw [hsup] at h1
      cases h1
  · exact fun hun hafter => held_not_unverified plan hc (verified_held h hafter) hun

end

/-! A document that was revoked, and whose flag the operator then sets again; and a chunk that was
superseded, and whose flag the operator overwrites with an empty text. -/

namespace Sample

def revoked : List Op := history ++ [.setAuthorization "doc" false]

/-- The row with another value under `superseded`. -/
def withSuperseded (c : Cell) (h : c.inInteger = true) (r : StoredFingerprint) :
    StoredFingerprint :=
  { r with
    superseded := c
    inInteger := by
      have := r.inInteger
      simp_all }

def restored : StoredTables := conn.tables.stored

def blanked : StoredTables :=
  ⟨restored.documents, restored.fingerprints.map (withSuperseded (.text "") (by decide))⟩

theorem restored_signed {r : StoredFingerprint} (hr : r ∈ restored.fingerprints) {payload : Bytes}
    (hp : r.payload = .ok payload) : ∃ op ∈ history, op.Signs payload := by
  obtain ⟨row, hrow, rfl⟩ := List.mem_map.mp hr
  simp only [conn, Connection.commit, List.mem_cons, List.not_mem_nil, or_false] at hrow
  rcases hrow with rfl | rfl
  · rw [payload_stored (by decide) (by decide)] at hp
    exact ⟨_, List.mem_cons_self, by decide, by decide, hp⟩
  · rw [payload_stored (by decide) (by decide)] at hp
    exact ⟨_, List.mem_cons_of_mem _ List.mem_cons_self, by decide, by decide, hp⟩

theorem restored_unforged : Unforged py secret revoked restored := by
  intro r hr payload hp _
  obtain ⟨op, hop, hs⟩ := restored_signed hr hp
  exact ⟨op, List.mem_append_left _ hop, hs⟩

theorem blanked_unforged : Unforged py secret history blanked := by
  intro r hr payload hp _
  obtain ⟨r0, h0, rfl⟩ := List.mem_map.mp hr
  exact restored_signed h0 hp

end Sample

theorem tamper_resistance_sample :
    verify Sample.py Sample.secret Sample.plan
        (applyAll Sample.py Sample.secret Sample.revoked .init) "sha256:aa" = .ok .unauthorized ∧
      verifyStored Sample.py Sample.secret Sample.storedPlan Sample.restored "sha256:aa" ≠
        .ok .verified := by
  have hbefore : verify Sample.py Sample.secret Sample.plan
      (applyAll Sample.py Sample.secret Sample.revoked .init) "sha256:aa" = .ok .unauthorized := by
    decide +kernel
  refine ⟨hbefore, (tamper_resistance_iff Sample.plan Sample.storedPlan Sample.revoked
    Sample.restored Sample.restored_unforged "sha256:aa").1.mpr ?_ .unauthorized (by decide)
    hbefore⟩
  intro row hrow _
  obtain rfl := Option.some.inj hrow
  exact .inr (.inr (by decide))

/-- Setting one column of one row back makes a revoked chunk pass, and an empty text in another a
superseded one. -/
theorem unsigned_flag_rewritten :
    (Unforged Sample.py Sample.secret Sample.revoked Sample.restored ∧
      Sample.restored = ((applyAll Sample.py Sample.secret Sample.revoked .init).tables.updateDocument
        "doc" fun d => { d with authorized := 1 }).stored ∧
      verify Sample.py Sample.secret Sample.plan
        (applyAll Sample.py Sample.secret Sample.revoked .init) "sha256:bb" = .ok .unauthorized ∧
      verifyStored Sample.py Sample.secret Sample.storedPlan Sample.restored "sha256:bb" =
        .ok .verified) ∧
    Unforged Sample.py Sample.secret Sample.history Sample.blanked ∧
      verify Sample.py Sample.secret Sample.plan
        (applyAll Sample.py Sample.secret Sample.history .init) "sha256:aa" = .ok .stale ∧
      verifyStored Sample.py Sample.secret Sample.storedPlan Sample.blanked "sha256:aa" =
        .ok .verified := by
  have htables : (applyAll Sample.py Sample.secret Sample.revoked .init).tables.updateDocument "doc"
      (fun d => { d with authorized := 1 }) = Sample.conn.tables := by decide +kernel
  refine ⟨⟨Sample.restored_unforged, by rw [htables, Sample.restored], ?_, ?_⟩,
    Sample.blanked_unforged, ?_, ?_⟩
  · decide +kernel
  · decide +kernel
  · decide +kernel
  · decide +kernel

end Provenex.Sqlite
