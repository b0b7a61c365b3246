import Provenex.Index.SqliteSteps
import Provenex.Proofs.OneDocument

/-! An `add` that fails halfway, on a connection that goes on. Nothing rolls its
statements back, so it leaves no trace only where they changed no row that a
query joins. -/

namespace Provenex.Sqlite

open Steps

section

variable {py : Stdlib} {secret : Bytes} {conn : Connection} {t t' : Tables} {now : String}
  {a : AddArgs} {k : ℕ}

/-! ## What the steps do -/

/-- After all the steps on the document. -/
theorem documentSteps_all : execute Step.run conn (documentSteps conn.tables a) =
    (.ok (), { conn with
      tables := conn.tables.upsertDocument a.documentId a.documentVersion a.authorized }) := by
  unfold documentSteps Tables.upsertDocument
  cases conn.tables.selectCurrentVersion a.documentId with
  | none => rfl
  | some current =>
    simp only
    split_ifs <;> rfl

variable (conn a) in
/-- After so many of them: none, the first of two, or all. -/
theorem documentSteps_take (k : ℕ) :
    (k = 0 ∧ execute Step.run conn ((documentSteps conn.tables a).take k) = (.ok (), conn)) ∨
    ((k = 1 ∧ ∃ current, conn.tables.selectCurrentVersion a.documentId = some current ∧
        current ≠ a.documentVersion) ∧
      execute Step.run conn ((documentSteps conn.tables a).take k) = (.ok (), { conn with
        tables := conn.tables.sweep a.documentId a.documentVersion })) ∨
    ((documentSteps conn.tables a).length ≤ k ∧
      execute Step.run conn ((documentSteps conn.tables a).take k) = (.ok (), { conn with
        tables := conn.tables.upsertDocument a.documentId a.documentVersion a.authorized })) := by
  by_cases hk : (documentSteps conn.tables a).length ≤ k
  · rw [List.take_of_length_le hk]
    exact .inr (.inr ⟨hk, documentSteps_all⟩)
  · rcases k with _ | k
    · exact .inl ⟨rfl, rfl⟩
    · right
      left
      unfold documentSteps at hk ⊢
      cases hs : conn.tables.selectCurrentVersion a.documentId with
      | none => simp [hs] at hk
      | some current =>
        simp only [hs] at hk ⊢
        split_ifs at hk ⊢ with hv
        · obtain rfl : k = 0 := by simpa using hk
          exact ⟨⟨rfl, current, rfl, hv⟩, rfl⟩
        · simp at hk

variable (py secret t) in
theorem addSteps_unsigned (h : ¬ ∃ payload, (Op.add now a).Signs payload) :
    ∃ e, addSteps py secret t now a = [.raise e] := by
  unfold addSteps
  by_cases hfp : ¬ startsWith a.fingerprint "sha256:"
  · rw [if_pos hfp]
    exact ⟨_, rfl⟩
  by_cases hv : ¬ startsWith a.documentVersion "sha256:"
  · rw [if_neg hfp, if_pos hv]
    exact ⟨_, rfl⟩
  rw [if_neg hfp, if_neg hv]
  cases hp : canonicalPayload a.fingerprint a.documentId a.documentVersion now a.chunkOffset
    a.chunkLength with
  | error e => exact ⟨e, rfl⟩
  | ok payload => exact absurd ⟨payload, not_not.mp hfp, not_not.mp hv, hp⟩ h

theorem addSteps_signed {payload : Bytes} (h : (Op.add now a).Signs payload) :
    addSteps py secret t now a = documentSteps t a ++
      if ¬ (fitsInt64 a.chunkOffset ∧ fitsInt64 a.chunkLength) then [.raise .overflowError]
      else [.execute fun t => t.insertOrIgnore (a.row py secret now payload), .commit] := by
  obtain ⟨hfp, hv, hp⟩ := h
  rw [addSteps, if_neg (not_not.mpr hfp), if_neg (not_not.mpr hv), hp]

/-- The steps are those of `add`. -/
theorem add_steps : add py secret conn now a =
    execute Step.run conn (addSteps py secret conn.tables now a) := by
  rw [add, addSteps]
  by_cases hfp : ¬ startsWith a.fingerprint "sha256:"
  · rw [if_pos hfp, if_pos hfp]
    rfl
  by_cases hv : ¬ startsWith a.documentVersion "sha256:"
  · rw [if_neg hfp, if_pos hv, if_neg hfp, if_pos hv]
    rfl
  rw [if_neg hfp, if_neg hv, if_neg hfp, if_neg hv]
  cases canonicalPayload a.fingerprint a.documentId a.documentVersion now a.chunkOffset
    a.chunkLength with
  | error e => rfl
  | ok payload =>
    simp only
    rw [execute_append documentSteps_all]
    split_ifs <;> rfl

/-- With no step to fail, the call ends as it does. -/
theorem failedAdd_all (h : (addSteps py secret conn.tables now a).length ≤ k) :
    failedAdd py secret conn now a k = apply py secret conn (.add now a) := by
  rw [failedAdd, List.take_of_length_le h, ← add_steps, apply]

/-- What an `add` that fails can leave. -/
theorem failedAdd_cases (h : k < (addSteps py secret conn.tables now a).length) :
    (k = 0 ∨ ¬ ∃ payload, (Op.add now a).Signs payload) ∧ failedAdd py secret conn now a k = conn ∨
    (k = 1 ∧ ∃ current, conn.tables.selectCurrentVersion a.documentId = some current ∧
        current ≠ a.documentVersion) ∧
      failedAdd py secret conn now a k =
        { conn with tables := conn.tables.sweep a.documentId a.documentVersion } ∨
    k = (documentSteps conn.tables a).length ∧ failedAdd py secret conn now a k = { conn with
      tables := conn.tables.upsertDocument a.documentId a.documentVersion a.authorized } ∨
    k = (documentSteps conn.tables a).length + 1 ∧ ∃ payload, (Op.add now a).Signs payload ∧
      failedAdd py secret conn now a k = { conn with
        tables := (conn.tables.upsertDocument a.documentId a.documentVersion
          a.authorized).insertOrIgnore (a.row py secret now payload) } := by
  by_cases hs : ∃ payload, (Op.add now a).Signs payload
  · obtain ⟨payload, hs⟩ := hs
    rw [failedAdd]
    rw [addSteps_signed hs] at h ⊢
    by_cases hk : k ≤ (documentSteps conn.tables a).length
    · rw [List.take_append_of_le_length hk]
      rcases documentSteps_take conn a k with ⟨rfl, h0⟩ | ⟨h1, hsweep⟩ | ⟨hk', hup⟩
      · exact .inl ⟨.inl rfl, rfl⟩
      · rw [hsweep]
        exact .inr (.inl ⟨h1, rfl⟩)
      · rw [hup]
        exact .inr (.inr (.inl ⟨le_antisymm hk hk', rfl⟩))
    · -- the row was inserted, and the commit raised
      rw [List.length_append] at h
      split_ifs at h ⊢ with hi
      · simp only [List.length_cons, List.length_nil] at h
        obtain rfl : k = (documentSteps conn.tables a).length + 1 := by omega
        refine .inr (.inr (.inr ⟨rfl, payload, hs, ?_⟩))
        rw [List.take_length_add_append, execute_append documentSteps_all]
        rfl
      · rw [List.length_singleton] at h
        omega
  · obtain ⟨e, he⟩ := addSteps_unsigned py secret conn.tables hs
    rw [he, List.length_singleton, Nat.lt_one_iff] at h
    exact .inl ⟨.inl h, by rw [h]; rfl⟩

theorem failedAdd_consistent (hc : Consistent py secret conn.tables) :
    Consistent py secret (failedAdd py secret conn now a k).tables := by
  by_cases hk : k < (addSteps py secret conn.tables now a).length
  · rcases failedAdd_cases hk with ⟨-, h⟩ | ⟨-, h⟩ | ⟨-, h⟩ | ⟨-, payload, hs, h⟩
    · rwa [h]
    · rw [h]
      exact hc.sweep
    · rw [h]
      exact hc.upsertDocument
    · rw [h]
      exact hc.upsertDocument.insertOrIgnore (upsertDocument_current hc) ⟨payload, hs.2.2, rfl⟩
  · rw [failedAdd_all (not_lt.mp hk)]
    exact apply_consistent hc _

/-! ## Tables that look alike -/

/-- The rows of a document. -/
def Tables.docOf (t : Tables) (d : String) : List DocumentRow :=
  t.documents.filter fun e => e.documentId = d

/-- The same fingerprint rows, each joined with the same document. -/
structure Alike (t t' : Tables) : Prop where
  rows : t.fingerprints = t'.fingerprints
  docs : ∀ r ∈ t.fingerprints, t.docOf r.documentId = t'.docOf r.documentId

theorem Alike.refl (t : Tables) : Alike t t := ⟨rfl, fun _ _ => rfl⟩

theorem Alike.symm (h : Alike t t') : Alike t' t :=
  ⟨h.rows.symm, fun r hr => (h.docs r (h.rows ▸ hr)).symm⟩

theorem Alike.trans {t'' : Tables} (h : Alike t t') (h' : Alike t' t'') : Alike t t'' :=
  ⟨h.rows.trans h'.rows, fun r hr => (h.docs r hr).trans (h'.docs r (h.rows ▸ hr))⟩

theorem Alike.joined (h : Alike t t') (fp : String) : t.joined fp = t'.joined fp := by
  unfold Tables.joined
  rw [← h.rows]
  refine List.flatMap_congr fun r hr => ?_
  have := h.docs r (List.mem_filter.mp hr).1
  unfold Tables.docOf at this
  rw [this]

theorem lookup_alike {conn' : Connection} (plan : QueryPlan) (h : Alike conn.tables conn'.tables)
    (fp : String) : lookup plan conn fp = lookup plan conn' fp := by
  rw [lookup, lookup, h.joined]

theorem verify_alike {conn' : Connection} (plan : QueryPlan) (h : Alike conn.tables conn'.tables)
    (fp : String) : verify py secret plan conn fp = verify py secret plan conn' fp := by
  rw [verify, verify, lookup_alike plan h]

/-! ## Statements on tables that look alike -/

theorem docOf_update (d : String) {set : DocumentRow → DocumentRow}
    (hid : ∀ e, (set e).documentId = e.documentId) (d' : String) :
    (t.updateDocument d set).docOf d' =
      (t.docOf d').map fun e => if e.documentId = d then set e else e := by
  rw [Tables.docOf, Tables.updateDocument, List.filter_map, Tables.docOf]
  congr 1
  refine List.filter_congr fun e _ => ?_
  simp only [Function.comp_apply]
  split_ifs with hd
  · rw [hid]
  · rfl

@[simp] theorem docOf_sweep (d v d' : String) : (t.sweep d v).docOf d' = t.docOf d' := rfl

@[simp] theorem docOf_insertOrIgnore (row : FingerprintRow) (d : String) :
    (t.insertOrIgnore row).docOf d = t.docOf d := by
  rw [Tables.docOf, insertOrIgnore_documents, Tables.docOf]

theorem selectCurrentVersion_docOf (d : String) :
    t.selectCurrentVersion d = (t.docOf d).head?.map (·.currentVersion) := by
  rw [Tables.selectCurrentVersion, ← List.head?_filter, Tables.docOf]

theorem docOf_upsert_self (hc : Consistent py secret t) (d v : String) (authorized : Bool) :
    (t.upsertDocument d v authorized).docOf d = [⟨d, sqlFlag authorized, v⟩] := by
  have hc' : Consistent py secret (t.upsertDocument d v authorized) := hc.upsertDocument
  have hnd : ((t.upsertDocument d v authorized).docOf d).Nodup :=
    (List.Nodup.of_map _ hc'.ids).filter _
  refine List.perm_singleton.mp ((List.perm_ext_iff_of_nodup hnd (List.nodup_singleton _)).mpr ?_)
  intro e
  rw [Tables.docOf, List.mem_filter, mem_upsertDocument hc, List.mem_singleton]
  constructor
  · rintro ⟨rfl | ⟨-, hne⟩, hid⟩
    · rfl
    · exact absurd (of_decide_eq_true hid) hne
  · rintro rfl
    exact ⟨.inl rfl, by simp⟩

theorem docOf_upsert_other {d v d' : String} (authorized : Bool) (h : d' ≠ d) :
    (t.upsertDocument d v authorized).docOf d' = t.docOf d' := by
  have hkeep (t : Tables) (set : DocumentRow → DocumentRow)
      (hid : ∀ e, (set e).documentId = e.documentId) :
      (t.updateDocument d set).docOf d' = t.docOf d' := by
    rw [docOf_update d hid]
    refine (List.map_congr_left fun e he => ?_).trans (List.map_id _)
    have hed : e.documentId = d' := by simpa using (List.mem_filter.mp he).2
    exact if_neg (hed ▸ h)
  unfold Tables.upsertDocument
  split
  · rw [Tables.docOf, Tables.insertDocument, List.filter_append, Tables.docOf]
    simp [h.symm]
  · split_ifs
    · refine (hkeep (t.sweep d v) _ ?_).trans (docOf_sweep d v d')
      exact fun _ => rfl
    · refine hkeep t _ ?_
      exact fun _ => rfl

theorem sweep_unowned {d : String} (v : String) (h : ∀ r ∈ t.fingerprints, r.documentId ≠ d) :
    (t.sweep d v).fingerprints = t.fingerprints := by
  refine (List.map_congr_left fun r hr => ?_).trans (List.map_id _)
  exact if_neg (by simp [Tables.isOther, h r hr])

theorem upsert_unowned {d : String} (v : String) (authorized : Bool)
    (h : ∀ r ∈ t.fingerprints, r.documentId ≠ d) :
    (t.upsertDocument d v authorized).fingerprints = t.fingerprints := by
  rcases upsertDocument_fingerprints t d v authorized with heq | heq
  · exact heq
  · rw [heq, sweep_unowned v h]

theorem upsert_rows_alike (h : Alike t t') (d v : String) (authorized : Bool) :
    (t.upsertDocument d v authorized).fingerprints =
      (t'.upsertDocument d v authorized).fingerprints := by
  by_cases hd : ∃ r ∈ t.fingerprints, r.documentId = d
  · obtain ⟨r, hr, rfl⟩ := hd
    have hselect : t.selectCurrentVersion r.documentId = t'.selectCurrentVersion r.documentId := by
      rw [selectCurrentVersion_docOf, selectCurrentVersion_docOf, h.docs r hr]
    unfold Tables.upsertDocument
    rw [← hselect]
    cases t.selectCurrentVersion r.documentId with
    | none => exact h.rows
    | some current =>
      simp only
      split_ifs
      · simp only [Tables.updateDocument, Tables.sweep, h.rows]
      · exact h.rows
  · push Not at hd
    rw [upsert_unowned v authorized hd, upsert_unowned v authorized (h.rows ▸ hd), h.rows]

theorem Alike.upsert (h : Alike t t') (hc : Consistent py secret t) (hc' : Consistent py secret t')
    (d v : String) (authorized : Bool) :
    Alike (t.upsertDocument d v authorized) (t'.upsertDocument d v authorized) := by
  refine ⟨upsert_rows_alike h d v authorized, ?_⟩
  intro r hr
  by_cases hd : r.documentId = d
  · rw [hd, docOf_upsert_self hc, docOf_upsert_self hc']
  · rw [docOf_upsert_other authorized hd, docOf_upsert_other authorized hd]
    have howner : (r.fingerprint, r.documentId) ∈ t.owners := by
      rw [← upsertDocument_owners d v authorized]
      exact List.mem_map_of_mem hr
    obtain ⟨r0, h0, heq⟩ := List.mem_map.mp howner
    have := h.docs r0 h0
    rwa [(Prod.mk.inj heq).2] at this

theorem Alike.insert (h : Alike t t') {row : FingerprintRow}
    (hdoc : t.docOf row.documentId = t'.docOf row.documentId) :
    Alike (t.insertOrIgnore row) (t'.insertOrIgnore row) := by
  refine ⟨?_, ?_⟩
  · unfold Tables.insertOrIgnore
    rw [h.rows]
    split_ifs
    · exact h.rows
    · rfl
  · intro r hr
    rw [docOf_insertOrIgnore, docOf_insertOrIgnore]
    rcases mem_insertOrIgnore.mp hr with hr | ⟨rfl, -⟩
    · exact h.docs r hr
    · exact hdoc

theorem Alike.update (h : Alike t t') (d : String) {set : DocumentRow → DocumentRow}
    (hid : ∀ e, (set e).documentId = e.documentId) :
    Alike (t.updateDocument d set) (t'.updateDocument d set) := by
  refine ⟨h.rows, fun r hr => ?_⟩
  rw [docOf_update d hid, docOf_update d hid, h.docs r hr]

theorem Alike.sweep (h : Alike t t') (d v : String) : Alike (t.sweep d v) (t'.sweep d v) := by
  refine ⟨by simp only [Tables.sweep, h.rows], fun r hr => ?_⟩
  obtain ⟨r0, h0, ⟨rfl, -⟩ | ⟨rfl, -⟩⟩ := mem_sweep hr
  · exact h.docs r h0
  · exact h.docs r0 h0

/-- A call does the same to tables that look alike. -/
theorem apply_alike {conn' : Connection} (h : Alike conn.tables conn'.tables)
    (hc : Consistent py secret conn.tables) (hc' : Consistent py secret conn'.tables) (op : Op) :
    Alike (apply py secret conn op).tables (apply py secret conn' op).tables := by
  cases op with
  | add now a =>
    by_cases hs : ∃ payload, (Op.add now a).Signs payload
    · obtain ⟨payload, hs⟩ := hs
      have hup := h.upsert hc hc' a.documentId a.documentVersion a.authorized
      by_cases hi : fitsInt64 a.chunkOffset ∧ fitsInt64 a.chunkLength
      · rw [add_signs hs hi, add_signs hs hi]
        refine hup.insert ?_
        exact (docOf_upsert_self hc ..).trans (docOf_upsert_self hc' ..).symm
      · rw [apply, apply, add_overflow hs hi, add_overflow hs hi]
        exact hup
    · rw [apply, apply, (add_unsigned hs).2, (add_unsigned hs).2]
      exact h
  | setAuthorization d authorized =>
    refine h.update d ?_
    exact fun _ => rfl
  | supersede d v =>
    refine (h.sweep d v).update d ?_
    exact fun _ => rfl

/-! ## Failures that leave no trace -/

/-- The statements that were executed before the failure changed no row that a query joins. -/
inductive Harmless (t : Tables) (now : String) (a : AddArgs) (k : ℕ) : Prop
  | none (h : k = 0)
  | refused (h : ¬ ∃ payload, (Op.add now a).Signs payload)
  | unowned (h : ∀ r ∈ t.fingerprints, r.documentId ≠ a.documentId)
    (hk : k ≤ (documentSteps t a).length)
  | unchanged (h : ⟨a.documentId, sqlFlag a.authorized, a.documentVersion⟩ ∈ t.documents)
    (hk : k ≤ (documentSteps t a).length ∨ ∃ r ∈ t.fingerprints, r.key = a.key)
  | swept (hk : k = 1) (hv : ∃ current, t.selectCurrentVersion a.documentId = some current ∧
      current ≠ a.documentVersion)
    (h : ∀ r ∈ t.fingerprints, Tables.isOther a.documentId a.documentVersion r →
      r.superseded = 1)

theorem sweep_self {d v : String}
    (h : ∀ r ∈ t.fingerprints, Tables.isOther d v r → r.superseded = 1) : t.sweep d v = t := by
  have hmap : (t.fingerprints.map fun r =>
      if Tables.isOther d v r then { r with superseded := 1 } else r) = t.fingerprints := by
    refine (List.map_congr_left fun r hr => ?_).trans (List.map_id _)
    split_ifs with ho
    · rw [← h r hr ho]
      rfl
    · rfl
  rw [Tables.sweep, hmap]

theorem insertOrIgnore_held {row : FingerprintRow} (h : ∃ r ∈ t.fingerprints, r.key = row.key) :
    t.insertOrIgnore row = t := by
  rw [Tables.insertOrIgnore, if_pos (any_key.mpr h)]

theorem Alike.unowned {d : String} (v : String) (authorized : Bool)
    (h : ∀ r ∈ t.fingerprints, r.documentId ≠ d) : Alike (t.upsertDocument d v authorized) t := by
  have hrows := upsert_unowned v authorized h
  refine ⟨hrows, fun r hr => ?_⟩
  exact docOf_upsert_other authorized (h r (hrows ▸ hr))

theorem documentSteps_two {current : String}
    (hs : t.selectCurrentVersion a.documentId = some current) (hv : current ≠ a.documentVersion) :
    (documentSteps t a).length = 2 := by
  rw [documentSteps, hs]
  simp only [if_pos hv]
  rfl

theorem Harmless.alike (h : Harmless conn.tables now a k) (hc : Consistent py secret conn.tables)
    (hk : k < (addSteps py secret conn.tables now a).length) :
    Alike (failedAdd py secret conn now a k).tables conn.tables := by
  rcases failedAdd_cases hk with ⟨-, heq⟩ | ⟨⟨rfl, current, hs, hv⟩, heq⟩ | ⟨hlen, heq⟩ |
    ⟨hlen, payload, hsign, heq⟩
  · rw [heq]
    exact .refl _
  · rw [heq]
    cases h with
    | none h => cases h
    | refused h =>
      obtain ⟨e, he⟩ := addSteps_unsigned py secret conn.tables h
      simp [he] at hk
    | unowned h => exact ⟨sweep_unowned _ h, fun _ _ => rfl⟩
    | unchanged h =>
      have hsame := hc.selectCurrentVersion_iff.mpr ⟨_, h, rfl, rfl⟩
      exact absurd (Option.some.inj (hs.symm.trans hsame)) hv
    | swept _ _ h =>
      rw [sweep_self h]
      exact .refl _
  · rw [heq]
    cases h with
    | none h =>
      subst h
      rw [failedAdd, List.take_zero] at heq
      rw [← congrArg (·.tables) heq]
      exact .refl _
    | refused h =>
      obtain ⟨e, he⟩ := addSteps_unsigned py secret conn.tables h
      obtain rfl : k = 0 := by simpa [he] using hk
      rw [failedAdd, List.take_zero] at heq
      rw [← congrArg (·.tables) heq]
      exact .refl _
    | unowned h => exact .unowned _ _ h
    | unchanged h =>
      rw [(upsertDocument_self hc).mpr h]
      exact .refl _
    | swept hk1 hsel _ =>
      obtain ⟨current, hs, hv⟩ := hsel
      rw [documentSteps_two hs hv] at hlen
      omega
  · rw [heq]
    cases h with
    | none h => omega
    | refused h => exact absurd ⟨payload, hsign⟩ h
    | unowned _ hle => omega
    | unchanged h hheld =>
      rw [(upsertDocument_self hc).mpr h, insertOrIgnore_held (hheld.resolve_left (by omega))]
      exact .refl _
    | swept hk1 hsel _ =>
      obtain ⟨current, hs, hv⟩ := hsel
      rw [documentSteps_two hs hv] at hlen
      omega

/-! ## Runs -/

theorem after_consistent (hc : Consistent py secret conn.tables) (e : Event) :
    Consistent py secret (e.after py secret conn).tables := by
  cases e with
  | call op => exact apply_consistent hc op
  | failed now a k => exact failedAdd_consistent hc

theorem afterAll_consistent (events : List Event) (hc : Consistent py secret conn.tables) :
    Consistent py secret (afterAll py secret events conn).tables := by
  induction events generalizing conn with
  | nil => exact hc
  | cons e events ih => exact ih (after_consistent hc e)

/-- Every failure comes before the end of its call, and leaves no trace. -/
def EachHarmless (py : Stdlib) (secret : Bytes) (conn : Connection) (events : List Event) : Prop :=
  ∀ earlier now a k later, events = earlier ++ .failed now a k :: later →
    k < (addSteps py secret (afterAll py secret earlier conn).tables now a).length ∧
      Harmless (afterAll py secret earlier conn).tables now a k

theorem EachHarmless.rest {e : Event} {events : List Event}
    (h : EachHarmless py secret conn (e :: events)) :
    EachHarmless py secret (e.after py secret conn) events :=
  fun earlier now a k later heq => h (e :: earlier) now a k later (by rw [heq]; rfl)

theorem afterAll_alike {conn' : Connection} {events : List Event}
    (h : EachHarmless py secret conn events) (ha : Alike conn.tables conn'.tables)
    (hc : Consistent py secret conn.tables) (hc' : Consistent py secret conn'.tables) :
    Alike (afterAll py secret events conn).tables
      (applyAll py secret (calls events) conn').tables := by
  induction events generalizing conn conn' with
  | nil => exact ha
  | cons e events ih =>
    cases e with
    | call op =>
      exact ih h.rest (apply_alike ha hc hc' op) (apply_consistent hc op) (apply_consistent hc' op)
    | failed now a k =>
      obtain ⟨hk, hharmless⟩ := h [] now a k events rfl
      exact ih h.rest ((hharmless.alike hc hk).trans ha) (failedAdd_consistent hc) hc'

/-- From any state, also one that failures have led to: where the later failures are harmless, the
index answers as if those calls had not been made. -/
theorem failed_add_leaves_no_trace (plan : QueryPlan) (history later : List Event)
    (h : EachHarmless py secret (afterAll py secret history .init) later) (fp : String) :
    let conn := afterAll py secret history .init
    lookup plan (afterAll py secret later conn) fp =
        lookup plan (applyAll py secret (calls later) conn) fp ∧
      verify py secret plan (afterAll py secret later conn) fp =
        verify py secret plan (applyAll py secret (calls later) conn) fp := by
  have hc : Consistent py secret (afterAll py secret history .init).tables :=
    afterAll_consistent history consistent_init
  have halike := afterAll_alike h (.refl _) hc hc
  exact ⟨lookup_alike plan halike fp, verify_alike plan halike fp⟩

end

namespace Sample

def ingested : List Event :=
  [.call (.add "2024-01-01T00:00:00.000Z" ⟨"sha256:aa", "doc", "sha256:01", 0, 5, true⟩)]

/-- The same chunk again, and the commit raises; then its document is revoked. -/
def busyCommit : List Event :=
  [.failed "2024-01-03T00:00:00.000Z" ⟨"sha256:aa", "doc", "sha256:01", 0, 5, true⟩ 2,
    .call (.setAuthorization "doc" false)]

/-- A chunk of the next version, with an offset that cannot be bound. -/
def farChunk : AddArgs := ⟨"sha256:bb", "doc", "sha256:02", 2 ^ 63, 5, true⟩

end Sample

theorem failed_add_leaves_no_trace_sample :
    verify Sample.py Sample.secret Sample.plan (afterAll Sample.py Sample.secret Sample.busyCommit
        (afterAll Sample.py Sample.secret Sample.ingested .init)) "sha256:aa" =
      verify Sample.py Sample.secret Sample.plan (applyAll Sample.py Sample.secret
        [.setAuthorization "doc" false] (afterAll Sample.py Sample.secret Sample.ingested .init))
          "sha256:aa" := by
  refine (failed_add_leaves_no_trace Sample.plan Sample.ingested Sample.busyCommit ?_
    "sha256:aa").2
  rintro earlier now a k later heq
  rcases earlier with _ | ⟨x, _ | ⟨y, earlier⟩⟩
  · simp only [Sample.busyCommit, List.nil_append, List.cons.injEq, Event.failed.injEq] at heq
    obtain ⟨⟨rfl, rfl, rfl⟩, -⟩ := heq
    refine ⟨by decide +kernel, .unchanged ?_ (.inr ?_)⟩
    · exact List.mem_of_elem_eq_true (by decide +kernel)
    · exact ⟨_, List.mem_cons_self, by decide +kernel⟩
  · simp [Sample.busyCommit] at heq
  · simp [Sample.busyCommit] at heq

/-- The add of a new version raises on its offset, and has made the old version stale; the next
call on another document commits that. -/
theorem failed_add_persists :
    let conn := afterAll Sample.py Sample.secret Sample.ingested .init
    let later := [.failed "2024-01-02T00:00:00.000Z" Sample.farChunk 2,
      .call (.setAuthorization "other" true)]
    (add Sample.py Sample.secret conn "2024-01-02T00:00:00.000Z" Sample.farChunk).1 =
        .error .overflowError ∧
      (add Sample.py Sample.secret conn "2024-01-02T00:00:00.000Z" Sample.farChunk).2 =
        failedAdd Sample.py Sample.secret conn "2024-01-02T00:00:00.000Z" Sample.farChunk 2 ∧
      verify Sample.py Sample.secret Sample.plan (afterAll Sample.py Sample.secret later conn)
        "sha256:aa" = .ok .stale ∧
      (afterAll Sample.py Sample.secret later conn).durable.fingerprints.map (·.superseded) = [1] ∧
      verify Sample.py Sample.secret Sample.plan
        (applyAll Sample.py Sample.secret (calls later) conn) "sha256:aa" = .ok .verified := by
  refine ⟨?_, ?_, ?_, ?_, ?_⟩ <;> decide +kernel

end Provenex.Sqlite
