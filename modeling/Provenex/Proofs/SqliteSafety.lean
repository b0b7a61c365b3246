import Provenex.Lib.Rows
import Provenex.Proofs.SqliteInvariant

/-! Safety of the index over whole runs. -/

namespace Provenex.Sqlite

section Runs

variable {py : Stdlib} {secret : Bytes}

/-! ## Steps -/

/-- All that a successful `add` does. -/
theorem step_add {conn conn' : Connection} {now : String} {a : AddArgs}
    (h : step py secret conn (.add now a) = .ok conn') :
    ∃ payload, canonicalPayload a.fingerprint a.documentId a.documentVersion now a.chunkOffset
        a.chunkLength = .ok payload ∧
      conn' = .commit ((conn.tables.upsertDocument a.documentId a.documentVersion
        a.authorized).insertOrIgnore (a.row py secret now payload)) := by
  have hadd : (add py secret conn now a).1 = .ok () ∧ (add py secret conn now a).2 = conn' := by
    rw [step] at h
    split at h
    · next heq => exact ⟨by rw [heq], by rw [heq]; exact Except.ok.inj h⟩
    · cases h
  obtain ⟨hok, rfl⟩ := hadd
  unfold add at hok ⊢
  by_cases h1 : ¬ startsWith a.fingerprint "sha256:"
  · rw [if_pos h1] at hok
    cases hok
  by_cases h2 : ¬ startsWith a.documentVersion "sha256:"
  · rw [if_neg h1, if_pos h2] at hok
    cases hok
  rw [if_neg h1, if_neg h2] at hok ⊢
  cases hp : canonicalPayload a.fingerprint a.documentId a.documentVersion now a.chunkOffset
      a.chunkLength with
  | error e =>
    rw [hp] at hok
    cases hok
  | ok payload =>
    refine ⟨payload, rfl, ?_⟩
    simp only [hp] at hok ⊢
    by_cases h3 : ¬ (fitsInt64 a.chunkOffset ∧ fitsInt64 a.chunkLength)
    · rw [if_pos h3] at hok
      cases hok
    · rw [if_neg h3]

/-- An `add` that passes every check returns. -/
theorem add_ok {conn : Connection} {now : String} {a : AddArgs} {payload : Bytes}
    (hfp : startsWith a.fingerprint "sha256:" = true)
    (hv : startsWith a.documentVersion "sha256:" = true)
    (hp : canonicalPayload a.fingerprint a.documentId a.documentVersion now a.chunkOffset
      a.chunkLength = .ok payload) (hi : fitsInt64 a.chunkOffset ∧ fitsInt64 a.chunkLength) :
    add py secret conn now a = (.ok (), .commit ((conn.tables.upsertDocument a.documentId
      a.documentVersion a.authorized).insertOrIgnore (a.row py secret now payload))) := by
  rw [add, if_neg (not_not.mpr hfp), if_neg (not_not.mpr hv), hp]
  simp only [if_neg (not_not.mpr hi)]

theorem step_setAuthorization {conn conn' : Connection} {d : String} {authorized : Bool}
    (h : step py secret conn (.setAuthorization d authorized) = .ok conn') :
    conn' = .commit (conn.tables.updateDocument d fun e =>
      { e with authorized := sqlFlag authorized }) :=
  (Except.ok.inj h).symm

theorem step_supersede {conn conn' : Connection} {d v : String}
    (h : step py secret conn (.supersede d v) = .ok conn') :
    conn' = .commit ((conn.tables.sweep d v).updateDocument d fun e =>
      { e with currentVersion := v }) :=
  (Except.ok.inj h).symm

theorem step_consistent {conn conn' : Connection} {op : Op}
    (hc : Consistent py secret conn.tables) (h : step py secret conn op = .ok conn') :
    Consistent py secret conn'.tables := by
  cases op with
  | add now a =>
    obtain ⟨payload, hp, rfl⟩ := step_add h
    exact hc.upsertDocument.insertOrIgnore (upsertDocument_current hc) ⟨payload, hp, rfl⟩
  | setAuthorization d authorized =>
    obtain rfl := step_setAuthorization h
    exact hc.authorize _
  | supersede d v =>
    obtain rfl := step_supersede h
    exact hc.renew (fun _ => rfl) fun _ => rfl

theorem sqlFlag_ne_zero (b : Bool) : (sqlFlag b != 0) = b := by cases b <;> rfl

theorem tracks_add {ops : List Op} {t : Tables} (hc : Consistent py secret t) (ht : Tracks ops t)
    (now : String) (a : AddArgs) (row : FingerprintRow) (hrow : row.key = a.key) :
    Tracks (ops ++ [.add now a])
      ((t.upsertDocument a.documentId a.documentVersion a.authorized).insertOrIgnore row) := by
  have hdocs (d : DocumentRow) :
      d ∈ (t.upsertDocument a.documentId a.documentVersion a.authorized).documents ↔
        d = ⟨a.documentId, sqlFlag a.authorized, a.documentVersion⟩ ∨
          d ∈ t.documents ∧ d.documentId ≠ a.documentId := mem_upsertDocument hc
  refine ⟨?_, ?_, ?_⟩
  · intro d hd
    rw [insertOrIgnore_documents] at hd
    rw [lastAuthorization_snoc, authorizationStep]
    rcases (hdocs d).mp hd with rfl | ⟨hd, hne⟩
    · simp [sqlFlag_ne_zero]
    · rw [if_neg (Ne.symm hne)]
      exact ht.authorized d hd
  · intro id hid
    rw [Tables.ids, insertOrIgnore_documents] at hid
    rw [lastAuthorization_snoc, authorizationStep]
    rw [if_neg]
    · refine ht.absent id fun hm => hid ?_
      obtain ⟨d, hd, rfl⟩ := List.mem_map.mp hm
      by_cases hne : d.documentId = a.documentId
      · exact List.mem_map.mpr ⟨_, (hdocs _).mpr (.inl rfl), hne.symm⟩
      · exact List.mem_map_of_mem ((hdocs d).mpr (.inr ⟨hd, hne⟩))
    · rintro rfl
      exact hid (List.mem_map.mpr ⟨_, (hdocs _).mpr (.inl rfl), rfl⟩)
  · intro fp
    have hold : (∃ r ∈ (t.upsertDocument a.documentId a.documentVersion
        a.authorized).fingerprints, r.fingerprint = fp) ↔ Added ops fp :=
      (upsertDocument_fingerprint fp).trans (ht.added fp)
    rw [added_snoc, ← hold]
    constructor
    · rintro ⟨r, hr, rfl⟩
      rcases mem_insertOrIgnore.mp hr with hr | ⟨rfl, -⟩
      · exact .inl ⟨r, hr, rfl⟩
      · exact .inr ⟨now, a, rfl, (congrArg Prod.fst hrow).symm⟩
    · rintro (⟨r, hr, rfl⟩ | ⟨now', a', heq, rfl⟩)
      · exact ⟨r, mem_insertOrIgnore.mpr (.inl hr), rfl⟩
      · obtain ⟨rfl, rfl⟩ := Op.add.inj heq
        by_cases hk : ∃ r ∈ (t.upsertDocument a.documentId a.documentVersion
            a.authorized).fingerprints, r.key = row.key
        · obtain ⟨r, hr, hk⟩ := hk
          exact ⟨r, mem_insertOrIgnore.mpr (.inl hr), congrArg Prod.fst (hk.trans hrow)⟩
        · push Not at hk
          exact ⟨row, mem_insertOrIgnore.mpr (.inr ⟨rfl, hk⟩), congrArg Prod.fst hrow⟩

theorem tracks_setAuthorization {ops : List Op} {t : Tables} (ht : Tracks ops t) (d : String)
    (authorized : Bool) :
    Tracks (ops ++ [.setAuthorization d authorized])
      (t.updateDocument d fun e => { e with authorized := sqlFlag authorized }) := by
  have hids : (t.updateDocument d fun e => { e with authorized := sqlFlag authorized }).ids = t.ids :=
    updateDocument_ids d fun _ => rfl
  refine ⟨?_, ?_, ?_⟩
  · intro e he
    obtain ⟨e0, h0, rfl⟩ := List.mem_map.mp he
    have := ht.authorized e0 h0
    rw [lastAuthorization_snoc, authorizationStep]
    by_cases hd : e0.documentId = d
    · rw [if_pos hd, if_pos hd.symm, this]
      simp [sqlFlag_ne_zero]
    · rw [if_neg hd, if_neg (Ne.symm hd), this]
  · intro id hid
    rw [hids] at hid
    rw [lastAuthorization_snoc, authorizationStep, ht.absent id hid]
    split_ifs <;> rfl
  · intro fp
    rw [added_snoc, ← ht.added fp]
    simp [Tables.updateDocument]

theorem tracks_supersede {ops : List Op} {t : Tables} (ht : Tracks ops t) (d v : String) :
    Tracks (ops ++ [.supersede d v])
      ((t.sweep d v).updateDocument d fun e => { e with currentVersion := v }) := by
  have hids : ((t.sweep d v).updateDocument d fun e => { e with currentVersion := v }).ids = t.ids :=
    updateDocument_ids d fun _ => rfl
  refine ⟨?_, ?_, ?_⟩
  · intro e he
    obtain ⟨e0, h0, rfl⟩ := List.mem_map.mp he
    have := ht.authorized e0 h0
    rw [lastAuthorization_snoc, authorizationStep]
    split_ifs <;> exact this
  · intro id hid
    rw [hids] at hid
    rw [lastAuthorization_snoc, authorizationStep, ht.absent id hid]
  · intro fp
    rw [added_snoc, ← ht.added fp]
    exact (sweep_fingerprint fp).trans ⟨.inl, fun h => h.elim id fun ⟨_, _, h, _⟩ => by cases h⟩

/-! ## Runs -/

/-- The invariant of the index. -/
def Inv (py : Stdlib) (secret : Bytes) (ops : List Op) (conn : Connection) : Prop :=
  Consistent py secret conn.tables ∧ Tracks ops conn.tables

theorem inv_init : Inv py secret [] .init := by
  refine ⟨⟨?_, ?_, ?_, ?_, ?_⟩, ⟨?_, ?_, ?_⟩⟩ <;>
    simp [Connection.init, Tables.ids, lastAuthorization, Added]

theorem inv_step {ops : List Op} {conn conn' : Connection} {op : Op} (hi : Inv py secret ops conn)
    (h : step py secret conn op = .ok conn') : Inv py secret (ops ++ [op]) conn' := by
  refine ⟨step_consistent hi.1 h, ?_⟩
  cases op with
  | add now a =>
    obtain ⟨payload, -, rfl⟩ := step_add h
    exact tracks_add hi.1 hi.2 now a _ rfl
  | setAuthorization d authorized =>
    obtain rfl := step_setAuthorization h
    exact tracks_setAuthorization hi.2 d authorized
  | supersede d v =>
    obtain rfl := step_supersede h
    exact tracks_supersede hi.2 d v

theorem run_inv {ops : List Op} {conn : Connection} (h : run py secret ops = .ok conn) :
    Inv py secret ops conn :=
  Run.invariant _ inv_init (fun _ _ _ _ _ hi hs => inv_step hi hs) ops conn h

/-! ## Reading -/

variable {plan : QueryPlan} {conn : Connection} {fp : String}

theorem mem_joined {t : Tables} {row : FingerprintRow × DocumentRow} :
    row ∈ t.joined fp ↔ row.1 ∈ t.fingerprints ∧ row.1.fingerprint = fp ∧
      row.2 ∈ t.documents ∧ row.2.documentId = row.1.documentId := by
  simp only [Tables.joined, List.mem_flatMap, List.mem_filter, List.mem_map, decide_eq_true_eq]
  constructor
  · rintro ⟨f, ⟨hf, hfp⟩, d, ⟨hd, hid⟩, rfl⟩
    exact ⟨hf, hfp, hd, hid⟩
  · rintro ⟨hf, hfp, hd, hid⟩
    exact ⟨row.1, ⟨hf, hfp⟩, row.2, ⟨hd, hid⟩, rfl⟩

theorem lookup_some {entry : IndexEntry} (h : lookup plan conn fp = some entry) :
    ∃ row ∈ conn.tables.joined fp, entry = entryOf row := by
  simp only [lookup, Option.map_eq_some_iff] at h
  obtain ⟨row, hr, rfl⟩ := h
  refine ⟨row, ?_, rfl⟩
  have := List.mem_of_mem_head? hr
  rwa [List.mem_insertionSort, (plan.perm _).mem_iff] at this

theorem orderedBefore_total (a b : FingerprintRow × DocumentRow) :
    orderedBefore a b ∨ orderedBefore b a := by
  unfold orderedBefore
  rcases lt_trichotomy a.1.superseded b.1.superseded with h | h | h
  · exact .inl (.inl h)
  · rcases String.le_total b.1.ingestedAt a.1.ingestedAt with ht | ht
    · exact .inl (.inr ⟨h, ht⟩)
    · exact .inr (.inr ⟨h.symm, ht⟩)
  · exact .inr (.inl h)

theorem orderedBefore_trans (a b c : FingerprintRow × DocumentRow) (h : orderedBefore a b)
    (h' : orderedBefore b c) : orderedBefore a c := by
  unfold orderedBefore at h h' ⊢
  rcases h with h | ⟨h, ht⟩ <;> rcases h' with h' | ⟨h', ht'⟩
  · exact .inl (h.trans h')
  · exact .inl (h'.subst h)
  · exact .inl (h ▸ h')
  · exact .inr ⟨h.trans h', String.le_trans ht' ht⟩

/-- Of the rows of the fingerprint, the query returns one that no other comes before. -/
theorem lookup_least {entry : IndexEntry} (h : lookup plan conn fp = some entry) :
    ∃ row ∈ conn.tables.joined fp, entry = entryOf row ∧
      ∀ row' ∈ conn.tables.joined fp, orderedBefore row row' := by
  obtain ⟨row, hrow, rfl⟩ := Option.map_eq_some_iff.mp h
  have hfirst := (Rows.head?_insertionSort orderedBefore_total orderedBefore_trans).mp hrow
  refine ⟨row, (plan.perm _).mem_iff.mp hfirst.mem, rfl, fun row' hrow' => ?_⟩
  exact hfirst.le orderedBefore_total row' ((plan.perm _).mem_iff.mpr hrow')

variable (plan) in
theorem lookup_none (hc : Consistent py secret conn.tables) :
    lookup plan conn fp = none ↔ ¬ ∃ r ∈ conn.tables.fingerprints, r.fingerprint = fp := by
  have hnil : lookup plan conn fp = none ↔ conn.tables.joined fp = [] := by
    rw [lookup, Option.map_eq_none_iff, List.head?_eq_none_iff,
      ← List.length_eq_zero_iff, List.length_insertionSort, (plan.perm _).length_eq,
      List.length_eq_zero_iff]
  rw [hnil, List.eq_nil_iff_forall_not_mem]
  constructor
  · rintro h ⟨r, hr, hfp⟩
    obtain ⟨d, hd, hid⟩ := List.mem_map.mp (hc.owner r hr)
    exact h (r, d) (mem_joined.mpr ⟨hr, hfp, hd, hid⟩)
  · intro h row hrow
    obtain ⟨hr, hfp, -⟩ := mem_joined.mp hrow
    exact h ⟨_, hr, hfp⟩

variable (plan fp) in
/-- On a signed row only the two flags decide. -/
theorem verify_eq (hc : Consistent py secret conn.tables) :
    verify py secret plan conn fp = .ok (match lookup plan conn fp with
      | none => .unverified
      | some entry =>
        if ¬ entry.authorized then .unauthorized
        else if entry.superseded then .stale
        else .verified) := by
  unfold verify
  cases h : lookup plan conn fp with
  | none => rfl
  | some entry =>
    obtain ⟨row, hrow, rfl⟩ := lookup_some h
    obtain ⟨payload, hp, hs⟩ := hc.signed row.1 (mem_joined.mp hrow).1
    simp only [entryOf, hp, hs, bind, Except.bind, compareDigest_self (hexdigest_ascii _), sign]
    split_ifs <;> simp_all

/-- Index safety over whole runs. -/
theorem index_safety (plan : QueryPlan) (ops : List Op) (conn : Connection)
    (hrun : run py secret ops = .ok conn) (fp : String) :
    (verify py secret plan conn fp = .ok .verified →
      ∃ entry payload, lookup plan conn fp = some entry ∧
        canonicalPayload entry.fingerprint entry.documentId entry.documentVersion entry.ingestedAt
          entry.chunkOffset entry.chunkLength = .ok payload ∧
        entry.signature = sign py payload secret ∧
        lastAuthorization entry.documentId ops = some true ∧
        conn.tables.selectCurrentVersion entry.documentId = some entry.documentVersion) ∧
    (∀ r ∈ conn.tables.fingerprints, ∀ r' ∈ conn.tables.fingerprints,
      r.documentId = r'.documentId → r.documentVersion ≠ r'.documentVersion →
        ¬ (r.superseded = 0 ∧ r'.superseded = 0)) ∧
    (verify py secret plan conn fp = .ok .unverified ↔ ¬ Added ops fp) ∧
    (∃ outcome, verify py secret plan conn fp = .ok outcome ∧ outcome ≠ .tampered) := by
  obtain ⟨hc, ht⟩ := run_inv hrun
  have hv := verify_eq plan fp hc
  refine ⟨?_, ?_, ?_, ?_⟩
  · intro h
    rw [hv] at h
    cases hl : lookup plan conn fp with
    | none => simp [hl] at h
    | some entry =>
      obtain ⟨row, hrow, rfl⟩ := lookup_some hl
      obtain ⟨hr, -, hd, hid⟩ := mem_joined.mp hrow
      obtain ⟨payload, hp, hs⟩ := hc.signed row.1 hr
      have hflags : (row.2.authorized != 0) = true ∧ row.1.superseded = 0 := by
        simp only [hl, entryOf] at h
        split_ifs at h <;> simp_all
      refine ⟨_, payload, rfl, hp, hs, ?_, ?_⟩
      · have := ht.authorized row.2 hd
        rw [hid, hflags.1] at this
        exact this
      · exact hc.selectCurrentVersion_iff.mpr
          ⟨row.2, hd, hid, (hc.current row.1 hr row.2 hd hid hflags.2).symm⟩
  · rintro r hr r' hr' hid hne ⟨hs, hs'⟩
    obtain ⟨d, hd, hdr⟩ := List.mem_map.mp (hc.owner r hr)
    exact hne ((hc.current r hr d hd hdr hs).trans
      (hc.current r' hr' d hd (hdr.trans hid) hs').symm)
  · rw [← ht.added fp, ← lookup_none plan hc, hv]
    cases hl : lookup plan conn fp with
    | none => simp
    | some entry =>
      simp only [reduceCtorEq, iff_false, Except.ok.injEq]
      split_ifs <;> decide
  · refine ⟨_, hv, ?_⟩
    cases hl : lookup plan conn fp with
    | none => decide
    | some entry =>
      simp only
      split_ifs <;> decide

end Runs

/-! A document ingested at one version, then at another, then at the first
again; the MACs are those of HMAC-SHA256 under the key `k`. -/

namespace Sample

def secret : Bytes := [107]

def macFirst : Bytes :=
  [250, 36, 226, 9, 20, 199, 234, 50, 238, 77, 111, 197, 42, 117, 201, 195, 24, 172, 244, 42, 156,
   68, 149, 24, 246, 245, 233, 110, 88, 86, 216, 213]

def macSecond : Bytes :=
  [242, 135, 183, 93, 80, 84, 113, 94, 15, 118, 43, 36, 86, 82, 139, 139, 243, 237, 2, 58, 78, 144,
   247, 2, 134, 8, 42, 143, 77, 86, 63, 10]

def macThird : Bytes :=
  [19, 73, 188, 217, 209, 247, 139, 175, 162, 96, 38, 102, 147, 88, 64, 177, 117, 124, 151, 27, 147,
   196, 1, 248, 82, 189, 148, 120, 164, 74, 107, 148]

def macs : List (Bytes × Bytes) :=
  [(encodeUtf8 "sha256:aa\ndoc\nsha256:01\n2024-01-01T00:00:00.000Z\n0\n5", macFirst),
    (encodeUtf8 "sha256:bb\ndoc\nsha256:02\n2024-01-02T00:00:00.000Z\n0\n5", macSecond),
    (encodeUtf8 "sha256:aa\ndoc\nsha256:01\n2024-01-03T00:00:00.000Z\n0\n5", macThird)]

def py : Stdlib :=
  { Stdlib.blank with
    hmacSha256 := fun _ payload => (macs.lookup payload).getD (List.replicate 32 0) }

def plan : QueryPlan := ⟨id, fun _ => .refl _⟩

def history : List Op :=
  [.add "2024-01-01T00:00:00.000Z" ⟨"sha256:aa", "doc", "sha256:01", 0, 5, true⟩,
    .add "2024-01-02T00:00:00.000Z" ⟨"sha256:bb", "doc", "sha256:02", 0, 5, true⟩]

def conn : Connection :=
  .commit
    { documents := [⟨"doc", 1, "sha256:02"⟩]
      fingerprints :=
        [⟨"sha256:aa", "doc", "sha256:01", "2024-01-01T00:00:00.000Z", 0, 5, 1, hexdigest macFirst⟩,
          ⟨"sha256:bb", "doc", "sha256:02", "2024-01-02T00:00:00.000Z", 0, 5, 0, hexdigest macSecond⟩] }

theorem run_history : run py secret history = .ok conn := by decide +kernel

end Sample

theorem index_safety_sample :
    ∃ entry payload, lookup Sample.plan Sample.conn "sha256:bb" = some entry ∧
      canonicalPayload entry.fingerprint entry.documentId entry.documentVersion entry.ingestedAt
        entry.chunkOffset entry.chunkLength = .ok payload ∧
      entry.signature = sign Sample.py payload Sample.secret ∧
      lastAuthorization entry.documentId Sample.history = some true ∧
      Sample.conn.tables.selectCurrentVersion entry.documentId = some entry.documentVersion :=
  (index_safety Sample.plan Sample.history Sample.conn Sample.run_history "sha256:bb").1
    (by decide +kernel)

end Provenex.Sqlite
