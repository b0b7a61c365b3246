import Provenex.Proofs.Answers
import Provenex.Proofs.PostgresSerial

/-! Reads of the Postgres index while others write it. A reader sees what has been committed, which
is what the calls that have returned leave one after another; and on that the two indexes answer
alike. -/

namespace Provenex.Postgres

open Effect Transactions

section

variable {py : Stdlib} {secret : Bytes} {hashtext : String → ℤ}

/-! ## Calls that return -/

theorem sure_afterSelect (a : Sqlite.AddArgs) {r : FingerprintRow}
    (h : fitsInt32 r.chunkOffset ∧ fitsInt32 r.chunkLength) (current : Option String) :
    (afterSelect a r .done current).Sure := by
  have hinsert : (insertRow r .done).Sure := by
    rw [insertRow, if_pos h]
    trivial
  cases current with
  | none => exact hinsert
  | some current =>
    rw [afterSelect]
    split_ifs
    · exact hinsert
    · exact hinsert

theorem sure_program {op : Sqlite.Op} (h : Accepted op) : (program py secret hashtext op).Sure := by
  cases op with
  | add now a =>
    obtain ⟨hfp, hv, ⟨payload, hp⟩, hfits⟩ := h
    have hscheme : ¬ (¬ startsWith a.fingerprint "sha256:" = true ∨
        ¬ startsWith a.documentVersion "sha256:" = true) := by simp [hfp, hv]
    rw [program, add, if_neg hscheme, hp]
    exact fun t => sure_afterSelect a hfits _
  | setAuthorization d authorized =>
    rw [program, setAuthorization, if_neg (by simpa [Accepted] using h)]
    trivial
  | supersede d v =>
    rw [program, supersede, if_neg (by simpa [Accepted] using h.1),
      if_neg (by simpa [Accepted] using h.2)]
    trivial

theorem program_ends (op : Sqlite.Op) :
    (program py secret hashtext op).Doomed ∨ (program py secret hashtext op).Sure := by
  by_cases h : Accepted op
  · exact .inr (sure_program h)
  · exact .inl (doomed_program py secret hashtext h)

/-! ## The joined rows -/

def joinedToSqlite (row : FingerprintRow × DocumentRow) : Sqlite.FingerprintRow × Sqlite.DocumentRow :=
  (row.1.toSqlite, row.2.toSqlite)

theorem toSqlite_joined (t : Tables) (fp : String) :
    t.toSqlite.joined fp = (t.joined fp).map joinedToSqlite := by
  simp only [Sqlite.Tables.joined, Tables.joined, Tables.toSqlite, List.filter_map, List.flatMap_map,
    List.map_flatMap, List.map_map]
  rfl

theorem joined_perm {t t' : Tables} (hd : t.documents.Perm t'.documents)
    (hf : t.fingerprints.Perm t'.fingerprints) (fp : String) :
    (t.joined fp).Perm (t'.joined fp) :=
  (hf.filter _).flatMap fun _ _ => (hd.filter _).map _

theorem orderedBefore_toSqlite (a b : FingerprintRow × DocumentRow) :
    orderedBefore a b ↔ Sqlite.orderedBefore (joinedToSqlite a) (joinedToSqlite b) := by
  obtain ⟨a, d⟩ := a
  obtain ⟨b, e⟩ := b
  unfold orderedBefore Sqlite.orderedBefore
  cases ha : a.superseded <;> cases hb : b.superseded <;>
    simp [joinedToSqlite, FingerprintRow.toSqlite, Sqlite.sqlFlag, ha, hb]

theorem entryOf_toSqlite (row : FingerprintRow × DocumentRow) :
    Sqlite.entryOf (joinedToSqlite row) = entryOf row := by
  unfold Sqlite.entryOf entryOf
  simp only [joinedToSqlite, FingerprintRow.toSqlite, DocumentRow.toSqlite, Sqlite.sqlFlag_ne_zero]

/-! ## Plans -/

/-- A plan of the SQLite index that visits the rows as this one does in these tables. -/
def QueryPlan.onSqlite (plan : QueryPlan) (t : Tables) : Sqlite.QueryPlan where
  scan rows :=
    let fingerprint := (rows.head?.map (·.1.fingerprint)).getD ""
    let visited := (plan.scan (t.joined fingerprint)).map joinedToSqlite
    if visited.Perm rows then visited else rows
  perm rows := by
    dsimp only
    split_ifs with h
    · exact h
    · exact .refl _

theorem onSqlite_scan (plan : QueryPlan) {t : Tables} {fp : String}
    {rows : List (Sqlite.FingerprintRow × Sqlite.DocumentRow)}
    (hperm : ((t.joined fp).map joinedToSqlite).Perm rows) :
    (plan.onSqlite t).scan rows = (plan.scan (t.joined fp)).map joinedToSqlite := by
  have hvisited : ((plan.scan (t.joined fp)).map joinedToSqlite).Perm rows :=
    ((plan.perm _).map _).trans hperm
  cases rows with
  | nil =>
    rw [hvisited.eq_nil]
    exact (plan.onSqlite t).perm [] |>.eq_nil
  | cons row rows =>
    have hfp : row.1.fingerprint = fp := by
      obtain ⟨x, hx, rfl⟩ := List.mem_map.mp (hperm.mem_iff.mpr List.mem_cons_self)
      obtain ⟨f, hf, hx⟩ := List.mem_flatMap.mp hx
      obtain ⟨d, -, rfl⟩ := List.mem_map.mp hx
      have hfp : f.fingerprint = fp := by simpa using (List.mem_filter.mp hf).2
      exact hfp
    simp only [QueryPlan.onSqlite, List.head?_cons, Option.map_some, Option.getD_some, hfp,
      if_pos hvisited]

theorem lookup_onSqlite (plan : QueryPlan) {t t' : Tables} (hd : t.documents.Perm t'.documents)
    (hf : t.fingerprints.Perm t'.fingerprints) {conn : Sqlite.Connection}
    (hconn : conn.tables = t'.toSqlite) (fp : String) :
    Sqlite.lookup (plan.onSqlite t) conn fp = lookup plan t fp := by
  have hperm : ((t.joined fp).map joinedToSqlite).Perm (conn.tables.joined fp) := by
    rw [hconn, toSqlite_joined]
    exact (joined_perm hd hf fp).map _
  have hsort : ((plan.scan (t.joined fp)).insertionSort orderedBefore).map joinedToSqlite =
      ((plan.scan (t.joined fp)).map joinedToSqlite).insertionSort Sqlite.orderedBefore :=
    List.map_insertionSort _ _ joinedToSqlite _ fun a _ b _ => orderedBefore_toSqlite a b
  rw [Sqlite.lookup, onSqlite_scan plan hperm, lookup, ← hsort, List.head?_map, Option.map_map]
  exact congrArg (Option.map · _) (funext entryOf_toSqlite)

theorem verify_eq_sqlite {plan : QueryPlan} {t : Tables} {sqlitePlan : Sqlite.QueryPlan}
    {conn : Sqlite.Connection} {fp : String}
    (h : Sqlite.lookup sqlitePlan conn fp = lookup plan t fp) :
    Sqlite.verify py secret sqlitePlan conn fp = verify py secret plan t fp := by
  cases hl : lookup plan t fp with
  | none =>
    rw [hl] at h
    simp only [Sqlite.verify, verify, h, hl]
  | some entry =>
    rw [hl] at h
    simp only [Sqlite.verify, verify, h, hl]

/-- On the same rows, the two indexes answer alike. -/
theorem answers_onSqlite (plan : QueryPlan) {t t' : Tables} (hd : t.documents.Perm t'.documents)
    (hf : t.fingerprints.Perm t'.fingerprints) {conn : Sqlite.Connection}
    (hconn : conn.tables = t'.toSqlite) :
    AnswersAlike py (asIndex py secret plan) (Sqlite.asIndex py secret (plan.onSqlite t)) t conn := by
  have hlookup := lookup_onSqlite plan hd hf hconn
  have hsim : SimulatesReads (fun u c => u = t ∧ c = conn) (asIndex py secret plan)
      (Sqlite.asIndex py secret (plan.onSqlite t)) := by
    refine ⟨?_, ?_⟩
    · rintro fp _ _ ⟨hu, hc⟩
      rw [hu, hc]
      change Ends _ (lift (verify py secret plan t fp) t)
        (lift (Sqlite.verify py secret (plan.onSqlite t) conn fp) conn)
      rw [verify_eq_sqlite (hlookup fp)]
      cases verify py secret plan t fp with
      | ok o => exact .ok o ⟨rfl, rfl⟩
      | error e => exact .error e ⟨rfl, rfl⟩
    · rintro fp _ _ ⟨hu, hc⟩
      rw [hu, hc]
      change Ends _ (.ok (lookup plan t fp) t) (.ok (Sqlite.lookup (plan.onSqlite t) conn fp) conn)
      rw [hlookup fp]
      exact .ok _ ⟨rfl, rfl⟩
  exact hsim.answers py ⟨rfl, rfl⟩

end

/-- At every moment of every run of writers, what a reader of the Postgres index is answered, and
the receipts that are issued from it, are those of the SQLite index after the calls that have
returned, one after another in the order in which they got their locks. -/
theorem postgres_answers_alike {ι : Type} [DecidableEq ι] (py : Stdlib) (secret : Bytes)
    (hashtext : String → ℤ) (plan : QueryPlan) (call : ι → Sqlite.Op) (schedule : List ι)
    (s : System Tables RowWrite ℤ ι)
    (h : run Tables.write (.init .init fun i => program py secret hashtext (call i)) schedule =
      .ok s) :
    ∃ conn sqlitePlan, Sqlite.run py secret (s.returned.map call) = .ok conn ∧
      AnswersAlike py (asIndex py secret plan) (Sqlite.asIndex py secret sqlitePlan) s.db conn := by
  set serially := applyAll py secret hashtext (s.returned.map call) .init with hserially
  have hpart (d : String) : part d s.db = part d serially := by
    rw [hserially, applyAll, List.foldl_map]
    exact returned_serial (fun i => (call i).documentId) hashtext
      (fun i => program_locks py secret hashtext (call i)) (fun i => program_ends (call i)) h d
  have hdocuments : s.db.documents.Perm serially.documents :=
    Rows.perm_of_owners fun d => (Prod.mk.inj (hpart d)).1
  have hfingerprints : s.db.fingerprints.Perm serially.fingerprints :=
    Rows.perm_of_owners fun d => (Prod.mk.inj (hpart d)).2
  have haccepted : ∀ op ∈ s.returned.map call, Accepted op := by
    intro op hop
    obtain ⟨i, hi, rfl⟩ := List.mem_map.mp hop
    by_contra hnot
    exact run_not_done h (doomed_program py secret hashtext hnot)
      (Program.returned_iff.mp (List.mem_filter.mp hi).2)
  obtain ⟨conn, hrun, hconn⟩ : ∃ conn, Sqlite.run py secret (s.returned.map call) = .ok conn ∧
      conn.tables = serially.toSqlite := toSqlite_applyAll haccepted
  exact ⟨conn, plan.onSqlite s.db, hrun, answers_onSqlite plan hdocuments hfingerprints hconn⟩

namespace Sample

/-- An add has returned and its document was revoked, while another add is still at work. -/
theorem returned_then :
    (run Tables.write (.init .init fun i => program Sqlite.Sample.py Sqlite.Sample.secret hashtext
      (calls i)) (schedule.take 12)).map (·.returned) = .ok [0, 2] := by decide +kernel

end Sample

theorem postgres_answers_alike_sample :
    ∃ s, run Tables.write (.init .init fun i => program Sqlite.Sample.py Sqlite.Sample.secret
        Sample.hashtext (Sample.calls i)) (Sample.schedule.take 12) = .ok s ∧ ∃ conn sqlitePlan,
      Sqlite.run Sqlite.Sample.py Sqlite.Sample.secret ([0, 2].map Sample.calls) = .ok conn ∧
        outcomeOf ((asIndex Sqlite.Sample.py Sqlite.Sample.secret ⟨id, fun _ => .refl _⟩).verify
            "sha256:aa" s.db) =
          outcomeOf ((Sqlite.asIndex Sqlite.Sample.py Sqlite.Sample.secret sqlitePlan).verify
            "sha256:aa" conn) := by
  obtain ⟨s, hs, hreturned⟩ := Guard.map_ok.mp Sample.returned_then
  obtain ⟨conn, sqlitePlan, hrun, hanswers⟩ := postgres_answers_alike Sqlite.Sample.py
    Sqlite.Sample.secret Sample.hashtext ⟨id, fun _ => .refl _⟩ Sample.calls (Sample.schedule.take 12)
    s hs
  rw [hreturned] at hrun
  exact ⟨s, hs, conn, sqlitePlan, hrun, hanswers.verify "sha256:aa"⟩

end Provenex.Postgres
