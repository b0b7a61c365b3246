import Provenex.Proofs.SqliteSafety

/-! Re-ingestion. The insert keeps an old row as it is, so an `add` makes its row
current unless that row is already there and superseded; until the document's
version changes again, it then stays current. -/

namespace Provenex.Sqlite

variable {py : Stdlib} {secret : Bytes}

/-- The row with this key is there and is not superseded. -/
def Tables.Current (t : Tables) (key : String × String × String) : Prop :=
  ∃ r ∈ t.fingerprints, r.key = key ∧ r.superseded = 0

/-- The row with this key is there and was superseded. -/
def Tables.Superseded (t : Tables) (key : String × String × String) : Prop :=
  ∃ r ∈ t.fingerprints, r.key = key ∧ r.superseded ≠ 0

instance (t : Tables) (key : String × String × String) : Decidable (t.Current key) := by
  unfold Tables.Current; infer_instance

instance (t : Tables) (key : String × String × String) : Decidable (t.Superseded key) := by
  unfold Tables.Superseded; infer_instance

theorem not_isOther {r : FingerprintRow} {d v : String}
    (h : r.documentId = d → r.documentVersion = v) : ¬ Tables.isOther d v r := by
  simp only [Tables.isOther, decide_eq_true_eq]
  exact fun ho => ho.2 (h ho.1)

/-- In one state: an `add` ends with its row current exactly when no superseded row was there. -/
theorem add_current_iff {conn conn' : Connection} {now : String} {a : AddArgs}
    (hc : Consistent py secret conn.tables) (h : step py secret conn (.add now a) = .ok conn') :
    conn'.tables.Current a.key ↔ ¬ conn.tables.Superseded a.key := by
  have hc' := step_consistent hc h
  obtain ⟨payload, -, rfl⟩ := step_add h
  -- the sweep spares the rows of the version it makes current
  have hkeep (r : FingerprintRow) (hr : r ∈ conn.tables.fingerprints) (hk : r.key = a.key) :
      r ∈ (Connection.commit ((conn.tables.upsertDocument a.documentId a.documentVersion
        a.authorized).insertOrIgnore (a.row py secret now payload))).tables.fingerprints := by
    have hv : r.documentVersion = a.documentVersion := congrArg (·.2.2) hk
    exact mem_insertOrIgnore.mpr (.inl (mem_upsertDocument_of_not hr (not_isOther fun _ => hv)))
  constructor
  · rintro ⟨r, hr, hk, hs⟩ ⟨r', hr', hk', hs'⟩
    rw [hc'.row_eq (hkeep r' hr' hk') hr (hk'.trans hk.symm)] at hs'
    exact hs' hs
  · intro hnot
    by_cases hex : ∃ r ∈ conn.tables.fingerprints, r.key = a.key
    · obtain ⟨r, hr, hk⟩ := hex
      refine ⟨r, hkeep r hr hk, hk, ?_⟩
      by_contra hs
      exact hnot ⟨r, hr, hk, hs⟩
    · refine ⟨a.row py secret now payload, mem_insertOrIgnore.mpr (.inr ⟨rfl, ?_⟩), rfl, rfl⟩
      intro r hr hk
      rcases upsertDocument_fingerprints conn.tables a.documentId a.documentVersion a.authorized
        with hf | hf
      · exact hex ⟨r, hf ▸ hr, hk⟩
      · obtain ⟨r0, h0, hr0⟩ := mem_sweep (hf ▸ hr)
        rcases hr0 with ⟨rfl, -⟩ | ⟨rfl, -⟩ <;> exact hex ⟨_, h0, hk⟩

/-! ## Until the version changes -/

/-- The call leaves the document at this version. -/
def Op.Keeps (documentId version : String) : Op → Prop
  | .add _ a => a.documentId = documentId → a.documentVersion = version
  | .setAuthorization _ _ => True
  | .supersede d v => d = documentId → v = version

/-- The row was ingested, and its document has had the row's version ever since. -/
def IngestedUnder (ops : List Op) (key : String × String × String) : Prop :=
  ∃ pre now a post, ops = pre ++ .add now a :: post ∧ a.key = key ∧
    ∀ op ∈ post, op.Keeps key.2.1 key.2.2

/-- No `add` of the history meets a superseded row of its own key. -/
def AddsMeetNoSuperseded (py : Stdlib) (secret : Bytes) (ops : List Op) : Prop :=
  ∀ pre now a post m, ops = pre ++ .add now a :: post → run py secret pre = .ok m →
    ¬ m.tables.Superseded a.key

/-- The row is current, and so is its version. -/
def Tables.Newest (t : Tables) (key : String × String × String) : Prop :=
  t.Current key ∧ t.selectCurrentVersion key.2.1 = some key.2.2

theorem newest_update {t : Tables} {d : String} {set : DocumentRow → DocumentRow}
    {key : String × String × String} (hc : Consistent py secret t)
    (hc' : Consistent py secret (t.updateDocument d set)) (h : t.Newest key)
    (hid : ∀ e, (set e).documentId = e.documentId)
    (hset : ∀ e, d = key.2.1 → e.currentVersion = key.2.2 → (set e).currentVersion = key.2.2) :
    (t.updateDocument d set).Newest key := by
  refine ⟨h.1, hc'.selectCurrentVersion_iff.mpr ?_⟩
  obtain ⟨e, he, hed, hev⟩ := hc.selectCurrentVersion_iff.mp h.2
  refine ⟨_, List.mem_map_of_mem he, ?_⟩
  by_cases heq : e.documentId = d
  · rw [if_pos heq]
    exact ⟨(hid e).trans hed, hset e (heq.symm.trans hed) hev⟩
  · rw [if_neg heq]
    exact ⟨hed, hev⟩

theorem newest_sweep {t : Tables} {d v : String} {key : String × String × String}
    (h : t.Newest key) (hk : d = key.2.1 → v = key.2.2) : (t.sweep d v).Newest key := by
  obtain ⟨⟨r, hr, rfl, hs⟩, hv⟩ := h
  refine ⟨⟨r, mem_sweep_of_not hr (not_isOther fun hd => ?_), rfl, hs⟩, hv⟩
  exact (hk hd.symm).symm

theorem newest_step {conn conn' : Connection} {op : Op} {key : String × String × String}
    (hc : Consistent py secret conn.tables) (hn : conn.tables.Newest key)
    (hk : op.Keeps key.2.1 key.2.2) (h : step py secret conn op = .ok conn') :
    conn'.tables.Newest key := by
  have hc' := step_consistent hc h
  cases op with
  | add now a =>
    obtain ⟨payload, -, rfl⟩ := step_add h
    obtain ⟨⟨r, hr, rfl, hs⟩, hv⟩ := hn
    refine ⟨⟨r, mem_insertOrIgnore.mpr (.inl (mem_upsertDocument_of_not hr
      (not_isOther fun hd => (hk hd.symm).symm))), rfl, hs⟩, hc'.selectCurrentVersion_iff.mpr ?_⟩
    obtain ⟨e, he, hed, hev⟩ := hc.selectCurrentVersion_iff.mp hv
    by_cases hd : a.documentId = r.documentId
    · refine ⟨⟨a.documentId, sqlFlag a.authorized, a.documentVersion⟩, ?_, hd, hk hd⟩
      exact (insertOrIgnore_documents _).symm ▸ (mem_upsertDocument hc).mpr (.inl rfl)
    · refine ⟨e, ?_, hed, hev⟩
      exact (insertOrIgnore_documents _).symm ▸
        (mem_upsertDocument hc).mpr (.inr ⟨he, fun heq => hd (heq.symm.trans hed)⟩)
  | setAuthorization d authorized =>
    obtain rfl := step_setAuthorization h
    exact newest_update hc hc' hn (fun _ => rfl) fun _ _ hev => hev
  | supersede d v =>
    obtain rfl := step_supersede h
    exact newest_update hc.sweep hc' (newest_sweep hn hk) (fun _ => rfl) fun _ hd _ => hk hd

theorem newest_added {conn conn' : Connection} {now : String} {a : AddArgs}
    (hc : Consistent py secret conn.tables) (h : step py secret conn (.add now a) = .ok conn')
    (hnot : ¬ conn.tables.Superseded a.key) : conn'.tables.Newest a.key := by
  refine ⟨(add_current_iff hc h).mpr hnot, ?_⟩
  obtain ⟨payload, -, rfl⟩ := step_add h
  have : (conn.tables.upsertDocument a.documentId a.documentVersion
      a.authorized).selectCurrentVersion a.documentId = some a.documentVersion :=
    upsertDocument_current hc
  unfold Tables.selectCurrentVersion at this ⊢
  rwa [Connection.commit, insertOrIgnore_documents]

theorem IngestedUnder.snoc {ops : List Op} {op : Op} {key : String × String × String}
    (h : IngestedUnder (ops ++ [op]) key) :
    (∃ now a, op = .add now a ∧ a.key = key) ∨
      IngestedUnder ops key ∧ op.Keeps key.2.1 key.2.2 := by
  obtain ⟨pre, now, a, post, heq, hk, hpost⟩ := h
  rcases List.eq_nil_or_concat post with rfl | ⟨post, last, rfl⟩
  · obtain ⟨-, hop⟩ := List.append_inj' heq rfl
    exact .inl ⟨now, a, List.singleton_inj.mp hop, hk⟩
  · rw [List.concat_eq_append, ← List.cons_append, ← List.append_assoc] at heq
    obtain ⟨rfl, hop⟩ := List.append_inj' heq rfl
    obtain rfl := List.singleton_inj.mp hop
    refine .inr ⟨⟨pre, now, a, post, rfl, hk, fun o ho => hpost o ?_⟩, hpost _ ?_⟩
    · simp [ho]
    · simp

/-- Run: what was ingested under the current version is newest, as long as no `add` met a
superseded row of its own key. -/
theorem run_newest {ops : List Op} {conn : Connection} (hrun : run py secret ops = .ok conn)
    (hm : AddsMeetNoSuperseded py secret ops) {key : String × String × String}
    (hi : IngestedUnder ops key) : conn.tables.Newest key := by
  refine Run.invariant (fun ops m => AddsMeetNoSuperseded py secret ops → ∀ key,
    IngestedUnder ops key → m.tables.Newest key) ?_ ?_ ops conn hrun hm key hi
  · rintro - key ⟨pre, now, a, post, heq, -⟩
    simp at heq
  · intro ops m op m' hops ih hstep hm key hi
    have hc := (run_inv hops).1
    rcases hi.snoc with ⟨now, a, rfl, rfl⟩ | ⟨hi, hk⟩
    · exact newest_added hc hstep (hm ops now a [] m rfl hops)
    · refine newest_step hc (ih (fun pre now a post m' heq hpre => ?_) key hi) hk hstep
      exact hm pre now a (post ++ [op]) m' (by rw [heq]; simp) hpre

/-- The newest ingestion wins in every run in which no `add` meets a superseded row of its own
key, and an `add` that meets one leaves it superseded. -/
theorem newest_ingestion_wins (ops : List Op) (conn : Connection)
    (hrun : run py secret ops = .ok conn) :
    (∀ now a conn', step py secret conn (.add now a) = .ok conn' →
      (conn'.tables.Current a.key ↔ ¬ conn.tables.Superseded a.key)) ∧
    (AddsMeetNoSuperseded py secret ops → ∀ key, IngestedUnder ops key →
      conn.tables.Newest key) :=
  ⟨fun _ _ _ h => add_current_iff (run_inv hrun).1 h, fun hm _ hi => run_newest hrun hm hi⟩

theorem newest_ingestion_wins_sample :
    (∀ now a conn', step Sample.py Sample.secret Sample.conn (.add now a) = .ok conn' →
      (conn'.tables.Current a.key ↔ ¬ Sample.conn.tables.Superseded a.key)) ∧
    (AddsMeetNoSuperseded Sample.py Sample.secret Sample.history →
      ∀ key, IngestedUnder Sample.history key → Sample.conn.tables.Newest key) :=
  newest_ingestion_wins Sample.history Sample.conn Sample.run_history

/-- Rolling a document back to its first version leaves the re-ingested chunk superseded. -/
theorem rollback_stays_superseded :
    ∃ conn', step Sample.py Sample.secret Sample.conn (.add "2024-01-03T00:00:00.000Z"
        ⟨"sha256:aa", "doc", "sha256:01", 0, 5, true⟩) = .ok conn' ∧
      ¬ conn'.tables.Current ("sha256:aa", "doc", "sha256:01") ∧
      conn'.tables.selectCurrentVersion "doc" = some "sha256:01" ∧
      verify Sample.py Sample.secret Sample.plan conn' "sha256:aa" = .ok .stale := by
  refine ⟨_, rfl, ?_, ?_, ?_⟩ <;> decide +kernel

end Provenex.Sqlite
