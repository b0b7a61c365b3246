import Provenex.Proofs.PostgresSerial
import Provenex.Proofs.Tampering

/-! A fingerprint under two documents. No `add` looks at the document under which
a fingerprint is stored, so a call that names another one is refused only when it
fails for a reason of its own. -/

namespace Provenex

namespace Sqlite

section

variable {py : Stdlib} {secret : Bytes} {conn : Connection} {t : Tables} {now : String} {a : AddArgs}
  {op : Op}

/-- The call names a fingerprint that is stored under another document. -/
def Conflicts (t : Tables) (a : AddArgs) : Prop :=
  ∃ r ∈ t.fingerprints, r.fingerprint = a.fingerprint ∧ r.documentId ≠ a.documentId

/-- The call fails before its first statement, on what it signs, or on integers that cannot be bound
where the row of the document is already as the call would leave it. -/
def Refused (t : Tables) (now : String) (a : AddArgs) : Prop :=
  (¬ ∃ payload, (Op.add now a).Signs payload) ∨
    ¬ (fitsInt64 a.chunkOffset ∧ fitsInt64 a.chunkLength) ∧
      ⟨a.documentId, sqlFlag a.authorized, a.documentVersion⟩ ∈ t.documents

/-! ## A call that raises -/

theorem add_unsigned (h : ¬ ∃ payload, (Op.add now a).Signs payload) :
    (∃ e, (add py secret conn now a).1 = .error e) ∧ (add py secret conn now a).2 = conn := by
  rw [add]
  by_cases hfp : ¬ startsWith a.fingerprint "sha256:"
  · rw [if_pos hfp]
    exact ⟨⟨_, rfl⟩, rfl⟩
  by_cases hv : ¬ startsWith a.documentVersion "sha256:"
  · rw [if_neg hfp, if_pos hv]
    exact ⟨⟨_, rfl⟩, rfl⟩
  rw [if_neg hfp, if_neg hv]
  cases hp : canonicalPayload a.fingerprint a.documentId a.documentVersion now a.chunkOffset
    a.chunkLength with
  | error e => exact ⟨⟨e, rfl⟩, rfl⟩
  | ok payload => exact absurd ⟨payload, not_not.mp hfp, not_not.mp hv, hp⟩ h

/-- Integers that cannot be bound are met after the statements on the document. -/
theorem add_overflow {payload : Bytes} (h : (Op.add now a).Signs payload)
    (hi : ¬ (fitsInt64 a.chunkOffset ∧ fitsInt64 a.chunkLength)) :
    add py secret conn now a = (.error .overflowError, { conn with
      tables := conn.tables.upsertDocument a.documentId a.documentVersion a.authorized }) := by
  obtain ⟨hfp, hv, hp⟩ := h
  rw [add, if_neg (not_not.mpr hfp), if_neg (not_not.mpr hv), hp]
  simp only [if_pos hi]

theorem upsertDocument_self (hc : Consistent py secret t) {d v : String} {authorized : Bool} :
    t.upsertDocument d v authorized = t ↔ ⟨d, sqlFlag authorized, v⟩ ∈ t.documents := by
  constructor
  · intro h
    rw [← h]
    exact (mem_upsertDocument hc).mpr (.inl rfl)
  · intro h
    have hsel : t.selectCurrentVersion d = some v := hc.selectCurrentVersion_iff.mpr ⟨_, h, rfl, rfl⟩
    have hmap : (t.documents.map fun e : DocumentRow =>
        if e.documentId = d then { e with authorized := sqlFlag authorized } else e) =
          t.documents := by
      refine (List.map_congr_left fun e he => ?_).trans (List.map_id _)
      split_ifs with hid
      · obtain rfl := hc.document_eq he h hid
        rfl
      · rfl
    rw [Tables.upsertDocument, hsel]
    simp only [ne_eq, not_true_eq_false, if_false, Tables.updateDocument, hmap]

/-- An `add` raises and leaves the tables exactly when it is refused. -/
theorem add_unchanged_iff (hc : Consistent py secret conn.tables) :
    ((∃ e, (add py secret conn now a).1 = .error e) ∧ (add py secret conn now a).2 = conn) ↔
      Refused conn.tables now a := by
  by_cases hs : ∃ payload, (Op.add now a).Signs payload
  · obtain ⟨payload, hs⟩ := hs
    have hsome : ∃ payload, (Op.add now a).Signs payload := ⟨payload, hs⟩
    by_cases hi : fitsInt64 a.chunkOffset ∧ fitsInt64 a.chunkLength
    · rw [add_ok hs.1 hs.2.1 hs.2.2 hi]
      simp [Refused, hsome, hi]
    · rw [add_overflow hs hi, Refused, ← upsertDocument_self hc]
      simp only [hsome, hi, not_true_eq_false, false_or, not_false_eq_true, true_and]
      constructor
      · rintro ⟨-, h⟩
        exact congrArg (·.tables) h
      · intro h
        exact ⟨⟨_, rfl⟩, by rw [h]⟩
  · exact iff_of_true (add_unsigned hs) (.inl hs)

theorem apply_step {conn' : Connection} (h : step py secret conn op = .ok conn') :
    apply py secret conn op = conn' := by
  cases op with
  | add now a =>
    rw [step] at h
    rw [apply]
    generalize add py secret conn now a = r at h
    obtain ⟨r, conn''⟩ := r
    cases r with
    | ok u => exact Except.ok.inj h
    | error e => cases h
  | setAuthorization d authorized => exact Except.ok.inj h
  | supersede d v => exact Except.ok.inj h

/-! ## Owners -/

/-- The fingerprints with the documents under which they are stored. -/
def Tables.owners (t : Tables) : List (String × String) :=
  t.fingerprints.map fun r => (r.fingerprint, r.documentId)

/-- No fingerprint is stored under two documents. -/
def Tables.OneOwner (t : Tables) : Prop := ∀ p ∈ t.owners, ∀ q ∈ t.owners, p.1 = q.1 → p = q

theorem conflicts_iff : Conflicts t a ↔ ∃ p ∈ t.owners, p.1 = a.fingerprint ∧ p.2 ≠ a.documentId := by
  simp [Conflicts, Tables.owners]

theorem sweep_owners (d v : String) : (t.sweep d v).owners = t.owners := by
  rw [Tables.owners, Tables.sweep, List.map_map]
  refine List.map_congr_left fun r _ => ?_
  simp only [Function.comp_apply]
  split_ifs <;> rfl

theorem upsertDocument_owners (d v : String) (authorized : Bool) :
    (t.upsertDocument d v authorized).owners = t.owners := by
  rcases upsertDocument_fingerprints t d v authorized with h | h
  · rw [Tables.owners, h, Tables.owners]
  · rw [Tables.owners, h]
    exact sweep_owners d v

/-- What a call can add to them. -/
theorem owners_apply {p : String × String} (h : p ∈ (apply py secret conn op).tables.owners) :
    p ∈ conn.tables.owners ∨ ∃ now a, op = .add now a ∧ p = (a.fingerprint, a.documentId) ∧
      (add py secret conn now a).1 = .ok () := by
  cases op with
  | add now a =>
    cases hadd : (add py secret conn now a).1 with
    | ok u =>
      obtain ⟨payload, -, heq⟩ := step_add (add_returned hadd)
      rw [apply, heq] at h
      obtain ⟨r, hr, rfl⟩ := List.mem_map.mp h
      rcases mem_insertOrIgnore.mp hr with hr | ⟨rfl, -⟩
      · rw [← upsertDocument_owners a.documentId a.documentVersion a.authorized]
        exact .inl (List.mem_map_of_mem hr)
      · exact .inr ⟨now, a, rfl, rfl, hadd⟩
    | error e =>
      left
      rw [apply] at h
      rcases add_raised hadd with heq | heq
      · rwa [heq] at h
      · rw [heq] at h
        rwa [upsertDocument_owners] at h
  | setAuthorization d authorized => exact .inl h
  | supersede d v =>
    left
    rw [← sweep_owners d v]
    exact h

theorem oneOwner_iff : t.OneOwner ↔ ∀ r ∈ t.fingerprints, ∀ r' ∈ t.fingerprints,
    r.fingerprint = r'.fingerprint → r.documentId = r'.documentId := by
  simp only [Tables.OneOwner, Tables.owners, List.forall_mem_map, Prod.mk.injEq]
  exact ⟨fun h r hr r' hr' hfp => (h r hr r' hr' hfp).2,
    fun h r hr r' hr' hfp => ⟨hfp, h r hr r' hr' hfp⟩⟩

/-! ## Runs -/

/-- Each `add` of the history met a state of which this is true. -/
def EachAdd {σ : Type} (state : List Op → σ) (cond : σ → String → AddArgs → Prop)
    (ops : List Op) : Prop :=
  ∀ earlier now a later, ops = earlier ++ .add now a :: later → cond (state earlier) now a

section

variable {σ : Type} {state : List Op → σ} {cond : σ → String → AddArgs → Prop} {ops : List Op}

theorem EachAdd.earlier (h : EachAdd state cond (ops ++ [op])) : EachAdd state cond ops :=
  fun earlier now a later heq => h earlier now a (later ++ [op]) (by rw [heq]; simp)

theorem EachAdd.last (h : EachAdd state cond (ops ++ [.add now a])) : cond (state ops) now a :=
  h ops now a [] rfl

end

/-- One more owner, of a fingerprint that no other document has. -/
theorem Tables.OneOwner.extend {t' : Tables} {p : String × String} (h : t.OneOwner)
    (hp : ¬ ∃ q ∈ t.owners, q.1 = p.1 ∧ q.2 ≠ p.2)
    (howners : ∀ q ∈ t'.owners, q ∈ t.owners ∨ q = p) : t'.OneOwner := by
  have hnew {q : String × String} (hq : q ∈ t.owners) (hfp : q.1 = p.1) : q = p := by
    by_contra hne
    exact hp ⟨q, hq, hfp, fun h2 => hne (Prod.ext hfp h2)⟩
  intro q hq q' hq' hfp
  rcases howners q hq with hq | rfl
  · rcases howners q' hq' with hq' | rfl
    · exact h q hq q' hq' hfp
    · exact hnew hq hfp
  · rcases howners q' hq' with hq' | rfl
    · exact (hnew hq' hfp.symm).symm
    · rfl

theorem oneOwner_apply (hc : Consistent py secret conn.tables) (h : conn.tables.OneOwner)
    (hrefused : ∀ now a, op = .add now a → Conflicts conn.tables a → Refused conn.tables now a) :
    (apply py secret conn op).tables.OneOwner := by
  by_cases hadd : ∃ now a, op = .add now a ∧ (add py secret conn now a).1 = .ok ()
  · obtain ⟨now, a, rfl, hok⟩ := hadd
    refine h.extend (p := (a.fingerprint, a.documentId)) ?_ fun q hq => ?_
    · intro hconf
      obtain ⟨⟨e, he⟩, -⟩ := (add_unchanged_iff hc).mpr
        (hrefused now a rfl (conflicts_iff.mpr hconf))
      rw [hok] at he
      cases he
    · refine (owners_apply hq).imp_right ?_
      rintro ⟨now', a', heq, rfl, -⟩
      obtain ⟨rfl, rfl⟩ := Op.add.inj heq
      rfl
  · intro p hp q hq
    have hold {p : String × String} (hp : p ∈ (apply py secret conn op).tables.owners) :
        p ∈ conn.tables.owners :=
      (owners_apply hp).resolve_right fun ⟨now, a, heq, _, hok⟩ => hadd ⟨now, a, heq, hok⟩
    exact h p (hold hp) q (hold hq)

theorem oneOwner_applyAll {history : List Op}
    (h : EachAdd (fun ops => (applyAll py secret ops .init).tables)
      (fun t now a => Conflicts t a → Refused t now a) history) :
    (applyAll py secret history .init).tables.OneOwner := by
  induction history using List.reverseRecOn with
  | nil => exact nofun
  | append_singleton ops op ih =>
    rw [applyAll_append]
    refine oneOwner_apply (applyAll_consistent ops consistent_init) (ih h.earlier) ?_
    rintro now a rfl
    exact h.last

theorem verify_revoked (plan : QueryPlan) (hc : Consistent py secret conn.tables)
    (h : conn.tables.OneOwner) {r : FingerprintRow} (hr : r ∈ conn.tables.fingerprints) :
    verify py secret plan (setAuthorization conn r.documentId false) r.fingerprint =
      .ok .unauthorized := by
  have hc' : Consistent py secret (setAuthorization conn r.documentId false).tables :=
    hc.authorize _
  rw [verify_eq plan _ hc']
  cases hl : lookup plan (setAuthorization conn r.documentId false) r.fingerprint with
  | none => exact absurd ⟨r, hr, rfl⟩ ((lookup_none plan hc').mp hl)
  | some entry =>
    obtain ⟨row, hrow, rfl⟩ := lookup_some hl
    obtain ⟨hf, hfp, hd, hid⟩ := mem_joined.mp hrow
    have howner : row.1.documentId = r.documentId := oneOwner_iff.mp h _ hf r hr hfp
    obtain ⟨e, he, heq⟩ := List.mem_map.mp hd
    rw [← heq] at hid
    have hflag : row.2.authorized = 0 := by
      rw [← heq]
      split_ifs at hid ⊢ with hed
      · rfl
      · exact absurd (hid.trans howner) hed
    simp [entryOf, hflag]

end

end Sqlite

namespace Postgres

open Transactions
open Sqlite (EachAdd)

section

variable {py : Stdlib} {secret : Bytes} {hashtext : String → ℤ} {t : Tables} {op : Sqlite.Op}

/-! ## Postgres -/

/-- The call names a fingerprint that is stored under another document. -/
def Conflicts (t : Tables) (a : Sqlite.AddArgs) : Prop :=
  ∃ r ∈ t.fingerprints, r.fingerprint = a.fingerprint ∧ r.documentId ≠ a.documentId

theorem toSqlite_conflicts {a : Sqlite.AddArgs} : Sqlite.Conflicts t.toSqlite a ↔ Conflicts t a := by
  simp [Sqlite.Conflicts, Conflicts, Tables.toSqlite, FingerprintRow.toSqlite]

theorem toSqlite_oneOwner : t.toSqlite.OneOwner ↔ ∀ r ∈ t.fingerprints, ∀ r' ∈ t.fingerprints,
    r.fingerprint = r'.fingerprint → r.documentId = r'.documentId := by
  rw [Sqlite.oneOwner_iff, Tables.toSqlite]
  simp only [List.forall_mem_map, FingerprintRow.toSqlite]

theorem apply_rejected (h : ¬ Accepted op) : apply py secret hashtext t op = t :=
  (program_locks py secret hashtext op).alone_doomed (doomed_program py secret hashtext h) t

theorem insertRow_returns {r : FingerprintRow} (h : fitsInt32 r.chunkOffset ∧ fitsInt32 r.chunkLength)
    (ws : List RowWrite) : (insertRow r .done).raises Tables.write t ws = false := by
  rw [insertRow, if_pos h]
  rfl

theorem add_returns {now : String} {a : Sqlite.AddArgs} (h : Accepted (.add now a)) :
    (program py secret hashtext (.add now a)).raises Tables.write t [] = false := by
  obtain ⟨hfp, hv, ⟨payload, hp⟩, hi⟩ := h
  have hscheme : ¬ (¬ startsWith a.fingerprint "sha256:" = true ∨
      ¬ startsWith a.documentVersion "sha256:" = true) := by simp [hfp, hv]
  have hinsert (ws : List RowWrite) :
      (insertRow (row py secret a now payload) .done).raises Tables.write t ws = false :=
    insertRow_returns hi ws
  rw [program, add, if_neg hscheme, hp]
  simp only [addTransaction, Program.raises]
  cases Tables.selectCurrentVersion (List.foldl Tables.write t []) a.documentId with
  | none => exact hinsert _
  | some current =>
    rw [afterSelect]
    split_ifs
    · exact hinsert _
    · exact hinsert _

/-- An `add` raises and leaves the tables exactly when it does not pass the checks. -/
theorem add_unchanged_iff {now : String} {a : Sqlite.AddArgs} :
    (program py secret hashtext (.add now a)).raises Tables.write t [] = true ∧
        apply py secret hashtext t (.add now a) = t ↔
      ¬ Accepted (.add now a) := by
  constructor
  · rintro ⟨hraises, -⟩ hok
    rw [add_returns hok] at hraises
    cases hraises
  · intro h
    exact ⟨raises_of_doomed (doomed_program py secret hashtext h) t [], apply_rejected h⟩

theorem applyAll_snoc (ops : List Sqlite.Op) :
    applyAll py secret hashtext (ops ++ [op]) t =
      apply py secret hashtext (applyAll py secret hashtext ops t) op := by
  rw [applyAll, List.foldl_append]
  rfl

variable (hashtext) in
/-- An accepted call, on an SQLite connection to the same tables. -/
theorem accepted_apply (hc : Sqlite.Consistent py secret t.toSqlite) (h : Accepted op) :
    ∃ conn', Sqlite.step py secret (.commit t.toSqlite) op = .ok conn' ∧
      conn'.tables = (apply py secret hashtext t op).toSqlite :=
  toSqlite_apply rfl hc h

theorem apply_consistent (hc : Sqlite.Consistent py secret t.toSqlite) :
    Sqlite.Consistent py secret (apply py secret hashtext t op).toSqlite := by
  by_cases hok : Accepted op
  · obtain ⟨conn', hstep, ht⟩ := accepted_apply hashtext hc hok
    rw [← ht]
    exact Sqlite.step_consistent hc hstep
  · rwa [apply_rejected hok]

theorem toSqlite_consistent (ops : List Sqlite.Op) :
    Sqlite.Consistent py secret (applyAll py secret hashtext ops .init).toSqlite := by
  induction ops using List.reverseRecOn with
  | nil => exact Sqlite.consistent_init
  | append_singleton ops op ih =>
    rw [applyAll_snoc]
    exact apply_consistent ih

theorem oneOwner_apply (h : t.toSqlite.OneOwner) (hc : Sqlite.Consistent py secret t.toSqlite)
    (hrefused : ∀ now a, op = .add now a → Conflicts t a → ¬ Accepted op) :
    (apply py secret hashtext t op).toSqlite.OneOwner := by
  by_cases hok : Accepted op
  · obtain ⟨conn', hstep, ht⟩ := accepted_apply hashtext hc hok
    rw [← ht, ← Sqlite.apply_step hstep]
    refine Sqlite.oneOwner_apply hc h ?_
    intro now a hop hconf
    exact absurd hok (hrefused now a hop (toSqlite_conflicts.mp hconf))
  · rwa [apply_rejected hok]

theorem oneOwner_applyAll {history : List Sqlite.Op}
    (h : EachAdd (fun ops => applyAll py secret hashtext ops .init)
      (fun t now a => Conflicts t a → ¬ Accepted (.add now a)) history) :
    (applyAll py secret hashtext history .init).toSqlite.OneOwner := by
  induction history using List.reverseRecOn with
  | nil => exact nofun
  | append_singleton ops op ih =>
    rw [applyAll_snoc]
    refine oneOwner_apply (ih h.earlier) (toSqlite_consistent ops) ?_
    rintro now a rfl
    exact h.last

theorem mem_joined {fp : String} {row : FingerprintRow × DocumentRow} :
    row ∈ t.joined fp ↔ row.1 ∈ t.fingerprints ∧ row.1.fingerprint = fp ∧
      row.2 ∈ t.documents ∧ row.2.documentId = row.1.documentId := by
  simp only [Tables.joined, List.mem_flatMap, List.mem_filter, List.mem_map, decide_eq_true_eq]
  constructor
  · rintro ⟨f, ⟨hf, hfp⟩, d, ⟨hd, hid⟩, rfl⟩
    exact ⟨hf, hfp, hd, hid⟩
  · rintro ⟨hf, hfp, hd, hid⟩
    exact ⟨row.1, ⟨hf, hfp⟩, row.2, ⟨hd, hid⟩, rfl⟩

/-- The row that `lookup` reads; there is one for every fingerprint that is stored. -/
theorem lookup_stored (plan : QueryPlan) (hc : Sqlite.Consistent py secret t.toSqlite)
    {r : FingerprintRow} (hr : r ∈ t.fingerprints) :
    ∃ row ∈ t.joined r.fingerprint, lookup plan t r.fingerprint = some (entryOf row) := by
  have hne : t.joined r.fingerprint ≠ [] := by
    obtain ⟨e, he, hid⟩ := List.mem_map.mp (hc.owner r.toSqlite (List.mem_map_of_mem hr))
    obtain ⟨d, hd, rfl⟩ := List.mem_map.mp he
    exact List.ne_nil_of_mem (mem_joined.mpr ⟨hr, rfl, hd, hid⟩ : (r, d) ∈ _)
  have hperm := (List.perm_insertionSort orderedBefore
    (plan.scan (t.joined r.fingerprint))).trans (plan.perm (t.joined r.fingerprint))
  rw [lookup]
  cases hs : (plan.scan (t.joined r.fingerprint)).insertionSort orderedBefore with
  | nil =>
    rw [hs] at hperm
    exact absurd hperm.nil_eq.symm hne
  | cons row rows =>
    rw [hs] at hperm
    exact ⟨row, hperm.mem_iff.mp List.mem_cons_self, rfl⟩

/-- A stored fingerprint is unauthorized when every document that it is stored under is. -/
theorem verify_unauthorized (plan : QueryPlan) (hc : Sqlite.Consistent py secret t.toSqlite)
    {r : FingerprintRow} (hr : r ∈ t.fingerprints)
    (h : ∀ row ∈ t.joined r.fingerprint, row.2.authorized = false) :
    verify py secret plan t r.fingerprint = .ok .unauthorized := by
  obtain ⟨row, hrow, hl⟩ := lookup_stored plan hc hr
  obtain ⟨payload, hp, hs⟩ := hc.signed row.1.toSqlite
    (List.mem_map_of_mem (mem_joined.mp hrow).1)
  have hpayload : Sqlite.canonicalPayload row.1.fingerprint row.1.documentId row.1.documentVersion
      row.1.ingestedAt row.1.chunkOffset row.1.chunkLength = .ok payload := hp
  have hsignature : row.1.signature = Sqlite.sign py payload secret := hs
  have hsame : compareDigest (Sqlite.sign py payload secret) (Sqlite.sign py payload secret) =
      .ok true := compareDigest_self (hexdigest_ascii _)
  unfold verify
  simp only [hl, entryOf, hpayload, hsignature, bind, Except.bind, hsame, h row hrow]
  rfl

variable (py secret hashtext) in
theorem apply_setAuthorization (hu : UniqueKeys t) {d : String} (hd : hasNul d = false)
    (authorized : Bool) :
    apply py secret hashtext t (.setAuthorization d authorized) = { t with
      documents := t.documents.map fun e =>
        if e.documentId = d then { e with authorized := authorized } else e } := by
  have hset : ∀ e : DocumentRow, { e with authorized := authorized }.documentId = e.documentId :=
    fun _ => rfl
  rw [apply, program, setAuthorization, if_neg (by simp [hd]), Program.alone,
    alone_write _ _ (f := id) alone_commit]
  exact exec_updateDocument hu hset

theorem hasNul_of_clean {s : String} (h : Sqlite.Clean s) : hasNul s = false := by
  rw [hasNul, List.any_eq_false]
  intro c hc hnul
  obtain rfl : c = '\x00' := by simpa using hnul
  exact h _ hc (by decide)

theorem verify_revoked (plan : QueryPlan) (hc : Sqlite.Consistent py secret t.toSqlite)
    (h : t.toSqlite.OneOwner) {r : FingerprintRow} (hr : r ∈ t.fingerprints) :
    verify py secret plan (apply py secret hashtext t (.setAuthorization r.documentId false))
      r.fingerprint = .ok .unauthorized := by
  obtain ⟨payload, hp, -⟩ := hc.signed r.toSqlite (List.mem_map_of_mem hr)
  have hclean : hasNul r.documentId = false :=
    hasNul_of_clean (Sqlite.canonicalPayload_ok.mp hp).1.1.2.1
  have htables := apply_setAuthorization py secret hashtext (uniqueKeys hc) hclean false
  refine verify_unauthorized plan (apply_consistent hc) (r := r) ?_ ?_
  · rw [htables]
    exact hr
  · rw [htables]
    intro row hrow
    obtain ⟨hf, hfp, hd, hid⟩ := mem_joined.mp hrow
    have howner : row.1.documentId = r.documentId := toSqlite_oneOwner.mp h _ hf r hr hfp
    obtain ⟨e, he, heq⟩ := List.mem_map.mp hd
    rw [← heq] at hid ⊢
    split_ifs at hid ⊢ with hed
    · rfl
    · exact absurd (hid.trans howner) hed

end

end Postgres

/-- For a call to `add`, conflicting or not: it raises and leaves the tables exactly when it fails
for a reason of its own. In a run in which every conflicting call failed so, a fingerprint has one
document, and is unauthorized once this is revoked. -/
theorem one_document (py : Stdlib) (secret : Bytes) (hashtext : String → ℤ)
    (plan : Sqlite.QueryPlan) (postgresPlan : Postgres.QueryPlan) (history : List Sqlite.Op) :
    let conn := Sqlite.applyAll py secret history .init
    let t := Postgres.applyAll py secret hashtext history .init
    ((∀ now a, (∃ e, (Sqlite.add py secret conn now a).1 = .error e) ∧
        (Sqlite.add py secret conn now a).2 = conn ↔ Sqlite.Refused conn.tables now a) ∧
      (Sqlite.EachAdd (fun ops => (Sqlite.applyAll py secret ops .init).tables)
          (fun t now a => Sqlite.Conflicts t a → Sqlite.Refused t now a) history →
        (∀ r ∈ conn.tables.fingerprints, ∀ r' ∈ conn.tables.fingerprints,
          r.fingerprint = r'.fingerprint → r.documentId = r'.documentId) ∧
        ∀ r ∈ conn.tables.fingerprints, Sqlite.verify py secret plan
          (Sqlite.setAuthorization conn r.documentId false) r.fingerprint = .ok .unauthorized)) ∧
    ((∀ now a, (Postgres.program py secret hashtext (.add now a)).raises Postgres.Tables.write t [] =
          true ∧ Postgres.apply py secret hashtext t (.add now a) = t ↔
        ¬ Postgres.Accepted (.add now a)) ∧
      (Sqlite.EachAdd (fun ops => Postgres.applyAll py secret hashtext ops .init)
          (fun t now a => Postgres.Conflicts t a → ¬ Postgres.Accepted (.add now a)) history →
        (∀ r ∈ t.fingerprints, ∀ r' ∈ t.fingerprints,
          r.fingerprint = r'.fingerprint → r.documentId = r'.documentId) ∧
        ∀ r ∈ t.fingerprints, Postgres.verify py secret postgresPlan
          (Postgres.apply py secret hashtext t (.setAuthorization r.documentId false))
            r.fingerprint = .ok .unauthorized)) := by
  have hc : Sqlite.Consistent py secret (Sqlite.applyAll py secret history .init).tables :=
    Sqlite.applyAll_consistent history Sqlite.consistent_init
  have hp : Sqlite.Consistent py secret
      (Postgres.applyAll py secret hashtext history .init).toSqlite :=
    Postgres.toSqlite_consistent history
  refine ⟨⟨fun now a => Sqlite.add_unchanged_iff hc, fun h => ?_⟩,
    fun now a => Postgres.add_unchanged_iff, fun h => ?_⟩
  · have hone := Sqlite.oneOwner_applyAll h
    exact ⟨Sqlite.oneOwner_iff.mp hone, fun r hr => Sqlite.verify_revoked plan hc hone hr⟩
  · have hone := Postgres.oneOwner_applyAll h
    exact ⟨Postgres.toSqlite_oneOwner.mp hone,
      fun r hr => Postgres.verify_revoked postgresPlan hp hone hr⟩

namespace Sample

def postgresPlan : Postgres.QueryPlan := ⟨id, fun _ => .refl _⟩

end Sample

/-- A history of one document, which is then revoked. -/
theorem one_document_sample :
    Sqlite.verify Sqlite.Sample.py Sqlite.Sample.secret Sqlite.Sample.plan
        (Sqlite.setAuthorization (Sqlite.applyAll Sqlite.Sample.py Sqlite.Sample.secret
          Sqlite.Sample.history .init) "doc" false) "sha256:bb" = .ok .unauthorized ∧
      Postgres.verify Sqlite.Sample.py Sqlite.Sample.secret Sample.postgresPlan
        (Postgres.apply Sqlite.Sample.py Sqlite.Sample.secret Postgres.Sample.hashtext
          (Postgres.applyAll Sqlite.Sample.py Sqlite.Sample.secret Postgres.Sample.hashtext
            Sqlite.Sample.history .init) (.setAuthorization "doc" false)) "sha256:bb" =
          .ok .unauthorized := by
  have hone := one_document Sqlite.Sample.py Sqlite.Sample.secret Postgres.Sample.hashtext
    Sqlite.Sample.plan Sample.postgresPlan Sqlite.Sample.history
  have hadds {earlier later : List Sqlite.Op} {now : String} {a : Sqlite.AddArgs}
      (h : Sqlite.Sample.history = earlier ++ .add now a :: later) :
      earlier = [] ∧ a.documentId = "doc" ∨
        earlier = Sqlite.Sample.history.take 1 ∧ a.documentId = "doc" := by
    rcases earlier with _ | ⟨x, _ | ⟨y, earlier⟩⟩
    · simp only [Sqlite.Sample.history, List.nil_append, List.cons.injEq, Sqlite.Op.add.injEq] at h
      exact .inl ⟨rfl, h.1.2 ▸ rfl⟩
    · simp only [Sqlite.Sample.history, List.cons_append, List.nil_append, List.cons.injEq,
        Sqlite.Op.add.injEq] at h
      exact .inr ⟨by rw [← h.1]; rfl, h.2.1.2 ▸ rfl⟩
    · simp [Sqlite.Sample.history] at h
  refine ⟨(hone.1.2 ?_).2 ⟨"sha256:bb", "doc", "sha256:02", "2024-01-02T00:00:00.000Z", 0, 5, 0,
    hexdigest Sqlite.Sample.macSecond⟩ ?_, (hone.2.2 ?_).2 ⟨"sha256:bb", "doc", "sha256:02",
      "2024-01-02T00:00:00.000Z", 0, 5, false, hexdigest Sqlite.Sample.macSecond⟩ ?_⟩
  · rintro earlier now a later heq ⟨r, hr, -, hne⟩
    rcases hadds heq with ⟨rfl, hd⟩ | ⟨rfl, hd⟩
    · cases hr
    · obtain rfl := List.mem_singleton.mp hr
      exact absurd hd.symm hne
  · exact List.mem_of_elem_eq_true (by decide +kernel)
  · rintro earlier now a later heq ⟨r, hr, -, hne⟩
    rcases hadds heq with ⟨rfl, hd⟩ | ⟨rfl, hd⟩
    · cases hr
    · obtain rfl := List.mem_singleton.mp hr
      exact absurd hd.symm hne
  · exact List.mem_of_elem_eq_true (by decide +kernel)

/-! One chunk in two documents, of which the first is revoked. -/

namespace Sample

open Sqlite.Sample (plan secret macs)

def macOther : Bytes :=
  [158, 164, 82, 72, 147, 142, 20, 160, 43, 242, 36, 153, 252, 159, 76, 246, 48, 148, 155, 39, 146,
   2, 158, 221, 70, 87, 130, 56, 70, 85, 229, 239]

def twoDocumentsPy : Stdlib :=
  { Stdlib.blank with
    hmacSha256 := fun _ payload =>
      (((encodeUtf8 "sha256:aa\nother\nsha256:02\n2024-01-02T00:00:00.000Z\n0\n5", macOther) ::
        macs).lookup payload).getD (List.replicate 32 0) }

def sharedChunk : List Sqlite.Op :=
  [.add "2024-01-01T00:00:00.000Z" ⟨"sha256:aa", "doc", "sha256:01", 0, 5, true⟩,
    .add "2024-01-02T00:00:00.000Z" ⟨"sha256:aa", "other", "sha256:02", 0, 5, true⟩]

end Sample

/-- The call that conflicts returns, and hides the revocation of the first document. -/
theorem masked_revocation :
    let first := Sqlite.applyAll Sample.twoDocumentsPy Sqlite.Sample.secret
      (Sample.sharedChunk.take 1) .init
    let both := Sqlite.applyAll Sample.twoDocumentsPy Sqlite.Sample.secret Sample.sharedChunk .init
    let t := Postgres.applyAll Sample.twoDocumentsPy Sqlite.Sample.secret Postgres.Sample.hashtext
      Sample.sharedChunk .init
    first.tables.owners = [("sha256:aa", "doc")] ∧
      both.tables.owners = [("sha256:aa", "doc"), ("sha256:aa", "other")] ∧
      Sqlite.verify Sample.twoDocumentsPy Sqlite.Sample.secret Sqlite.Sample.plan
        (Sqlite.setAuthorization both "doc" false) "sha256:aa" = .ok .verified ∧
      t.toSqlite.owners = both.tables.owners ∧
      Postgres.verify Sample.twoDocumentsPy Sqlite.Sample.secret Sample.postgresPlan
        (Postgres.apply Sample.twoDocumentsPy Sqlite.Sample.secret Postgres.Sample.hashtext t
          (.setAuthorization "doc" false)) "sha256:aa" = .ok .verified := by
  refine ⟨?_, ?_, ?_, ?_, ?_⟩ <;> decide +kernel

end Provenex
