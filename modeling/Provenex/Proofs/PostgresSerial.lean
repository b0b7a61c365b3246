import Provenex.Index.Postgres
import Provenex.Proofs.SqliteSafety

/-! Concurrent writers of the Postgres index. A call reads and writes the rows of
one document, whose lock it holds, so the tables are those of a serial run; and a
serial run leaves the tables that the SQLite index would hold. -/

namespace Provenex.Postgres

open Transactions Rows

/-! ## The rows of one document -/

/-- The part of the tables that belongs to a document. -/
def part (d : String) (t : Tables) : List DocumentRow × List FingerprintRow :=
  (t.documents.filter (·.documentId = d), t.fingerprints.filter (·.documentId = d))

def RowWrite.owner : RowWrite → Option String
  | .document d => some d.documentId
  | .fingerprint r => some r.documentId
  | .leaf _ => none

variable {d : String} {t t' : Tables}

theorem key_owner (a b : FingerprintRow) (h : a.key = b.key) : a.documentId = b.documentId :=
  congrArg (·.2.1) h

theorem confined {w : RowWrite} (h : w.owner = some d) : Confined Tables.write part d w := by
  cases w with
  | document e =>
    obtain rfl : e.documentId = d := Option.some.inj h
    refine ⟨?_, ?_⟩
    · intro t t' hpart
      obtain ⟨hd, hf⟩ := Prod.mk.inj hpart
      simp only [part, Tables.write, filter_put_self (fun _ _ h => h) rfl, hd, hf]
    · intro d' hd' t
      simp only [part, Tables.write, filter_put_other (fun _ _ h => h) (Ne.symm hd')]
  | fingerprint r =>
    obtain rfl : r.documentId = d := Option.some.inj h
    refine ⟨?_, ?_⟩
    · intro t t' hpart
      obtain ⟨hd, hf⟩ := Prod.mk.inj hpart
      simp only [part, Tables.write, filter_put_self key_owner rfl, hd, hf]
    · intro d' hd' t
      simp only [part, Tables.write, filter_put_other key_owner (Ne.symm hd')]
  | leaf l => cases h

/-! ## Statements on one document -/

theorem selectCurrentVersion_part (h : part d t = part d t') :
    t.selectCurrentVersion d = t'.selectCurrentVersion d := by
  have hd := (Prod.mk.inj h).1
  simp only [Tables.selectCurrentVersion, ← List.head?_filter, hd]

/-- A statement that reads and writes the rows of one document. -/
structure OnDocument (d : String) (stmt : Tables → List RowWrite) : Prop where
  reads : ∀ t t', part d t = part d t' → stmt t = stmt t'
  writes : ∀ t, ∀ w ∈ stmt t, w.owner = some d

theorem onDocument_update {set : DocumentRow → DocumentRow}
    (hset : ∀ e, (set e).documentId = e.documentId) :
    OnDocument d (Tables.updateDocument d set) := by
  refine ⟨?_, ?_⟩
  · intro t t' h
    simp only [Tables.updateDocument, (Prod.mk.inj h).1]
  · intro t w hw
    obtain ⟨e, he, rfl⟩ := List.mem_map.mp hw
    have := (List.mem_filter.mp he).2
    simpa [RowWrite.owner, hset] using this

theorem onDocument_insert (e : DocumentRow) :
    OnDocument e.documentId (Tables.insertDocument e) := by
  refine ⟨?_, ?_⟩
  · intro t t' h
    have hany (t : Tables) : ((t.documents.filter (·.documentId = e.documentId)).any
        fun r => r.documentId = e.documentId) =
          t.documents.any fun r => r.documentId = e.documentId :=
      any_key_filter (fun _ _ h => h) rfl
    unfold Tables.insertDocument
    rw [← hany t, ← hany t', (Prod.mk.inj h).1]
  · intro t w hw
    unfold Tables.insertDocument at hw
    split_ifs at hw
    · cases hw
    · rw [List.mem_singleton.mp hw]
      rfl

theorem onDocument_sweep (v : String) : OnDocument d (Tables.sweep d v) := by
  have hfilter (t : Tables) : t.fingerprints.filter (Tables.isOther d v) =
      (t.fingerprints.filter (·.documentId = d)).filter (·.documentVersion ≠ v) := by
    rw [List.filter_filter]
    refine List.filter_congr fun r _ => ?_
    rw [Bool.eq_iff_iff]
    simp [Tables.isOther, and_comm]
  refine ⟨?_, ?_⟩
  · intro t t' h
    simp only [Tables.sweep, hfilter, (Prod.mk.inj h).2]
  · intro t w hw
    obtain ⟨r, hr, rfl⟩ := List.mem_map.mp hw
    have := (List.mem_filter.mp hr).2
    simp only [Tables.isOther, decide_eq_true_eq] at this
    simp [RowWrite.owner, this.1]

theorem onDocument_insertFingerprint (r : FingerprintRow) :
    OnDocument r.documentId (Tables.insertFingerprint r) := by
  refine ⟨?_, ?_⟩
  · intro t t' h
    have hany (t : Tables) : ((t.fingerprints.filter (·.documentId = r.documentId)).any
        fun x => x.key = r.key) = t.fingerprints.any fun x => x.key = r.key :=
      any_key_filter key_owner rfl
    unfold Tables.insertFingerprint
    rw [← hany t, ← hany t', (Prod.mk.inj h).2]
  · intro t w hw
    unfold Tables.insertFingerprint at hw
    split_ifs at hw
    · cases hw
    · rw [List.mem_singleton.mp hw]
      rfl

theorem owned_write {stmt : Tables → List RowWrite} (h : OnDocument d stmt) {rest : Program}
    (hrest : rest.Owned Tables.write part d) :
    Program.Owned Tables.write part d (.write stmt rest) :=
  ⟨h.reads, fun t w hw => confined (h.writes t w hw), hrest⟩

theorem owned_commit : (.commit .done : Program).Owned Tables.write part d := rfl

/-! ## Calls on one document -/

section

variable (py : Stdlib) (secret : Bytes) (hashtext : String → ℤ)

theorem owned_insertRow (r : FingerprintRow) :
    (insertRow r .done).Owned Tables.write part r.documentId := by
  unfold insertRow
  split_ifs
  · exact owned_write (onDocument_insertFingerprint r) rfl
  · trivial

theorem owned_afterSelect (a : Sqlite.AddArgs) {r : FingerprintRow}
    (hr : (insertRow r .done).Owned Tables.write part a.documentId) (current : Option String) :
    (afterSelect a r .done current).Owned Tables.write part a.documentId := by
  cases current with
  | none =>
    exact owned_write (onDocument_insert ⟨a.documentId, a.authorized, a.documentVersion⟩) hr
  | some current =>
    rw [afterSelect]
    split_ifs
    · refine owned_write (onDocument_sweep _) (owned_write (onDocument_update ?_) hr)
      exact fun _ => rfl
    · refine owned_write (onDocument_update ?_) hr
      exact fun _ => rfl

theorem owned_addTransaction (a : Sqlite.AddArgs) (now : String) (payload : Bytes) :
    (addTransaction hashtext a (row py secret a now payload) .done).Locks Tables.write part
      (hashtext a.documentId) a.documentId := by
  have hinsert : (insertRow (row py secret a now payload) .done).Owned Tables.write part
      a.documentId := owned_insertRow (row py secret a now payload)
  refine .inr ⟨_, rfl, ?_, fun t => owned_afterSelect a hinsert _⟩
  intro t t' h
  exact congrArg _ (selectCurrentVersion_part h)

/-- A call is one transaction, on the rows of its document. -/
theorem program_locks (op : Sqlite.Op) :
    (program py secret hashtext op).Locks Tables.write part (hashtext op.documentId)
      op.documentId := by
  cases op with
  | add now a =>
    rw [program, add]
    split_ifs with h
    · exact .inl rfl
    · cases Sqlite.canonicalPayload a.fingerprint a.documentId a.documentVersion now a.chunkOffset
        a.chunkLength with
      | error e => exact .inl rfl
      | ok payload => exact owned_addTransaction py secret hashtext a now payload
  | setAuthorization d authorized =>
    rw [program, setAuthorization]
    split_ifs
    · exact .inl rfl
    · refine .inr ⟨_, rfl, owned_write (onDocument_update ?_) owned_commit⟩
      exact fun _ => rfl
  | supersede d v =>
    rw [program, supersede]
    split_ifs
    · exact .inl rfl
    · exact .inr ⟨_, rfl, trivial⟩
    · refine .inr ⟨_, rfl, owned_write (onDocument_sweep v)
        (owned_write (onDocument_update ?_) owned_commit)⟩
      exact fun _ => rfl

/-! ## Calls that return -/

/-- The call passes every check, so that it returns. -/
def Accepted : Sqlite.Op → Prop
  | .add now a => startsWith a.fingerprint "sha256:" = true ∧
      startsWith a.documentVersion "sha256:" = true ∧
      (∃ payload, Sqlite.canonicalPayload a.fingerprint a.documentId a.documentVersion now
        a.chunkOffset a.chunkLength = .ok payload) ∧
      fitsInt32 a.chunkOffset ∧ fitsInt32 a.chunkLength
  | .setAuthorization d _ => hasNul d = false
  | .supersede d v => hasNul d = false ∧ hasNul v = false

theorem doomed_afterSelect (a : Sqlite.AddArgs) {r : FingerprintRow}
    (hr : ¬ (fitsInt32 r.chunkOffset ∧ fitsInt32 r.chunkLength)) (current : Option String) :
    (afterSelect a r .done current).Doomed := by
  have hinsert : (insertRow r .done).Doomed := by
    rw [insertRow, if_neg hr]
    trivial
  cases current with
  | none => exact hinsert
  | some current =>
    rw [afterSelect]
    split_ifs
    · exact hinsert
    · exact hinsert

theorem doomed_program {op : Sqlite.Op} (h : ¬ Accepted op) :
    (program py secret hashtext op).Doomed := by
  cases op with
  | add now a =>
    rw [program, add]
    split_ifs with hscheme
    · trivial
    · cases hp : Sqlite.canonicalPayload a.fingerprint a.documentId a.documentVersion now
        a.chunkOffset a.chunkLength with
      | error e => trivial
      | ok payload =>
        intro t
        refine doomed_afterSelect a (fun hfits => h ?_) _
        push Not at hscheme
        exact ⟨hscheme.1, hscheme.2, ⟨payload, hp⟩, hfits⟩
  | setAuthorization d authorized =>
    rw [program, setAuthorization, if_pos (by simpa [Accepted] using h)]
    trivial
  | supersede d v =>
    rw [program, supersede]
    split_ifs with hd hv
    · trivial
    · trivial
    · exact h ⟨by simpa using hd, by simpa using hv⟩

/-! ## A call by itself -/

/-- What a statement by itself leaves. -/
def exec (stmt : Tables → List RowWrite) (t : Tables) : Tables := (stmt t).foldl Tables.write t

theorem alone_write (stmt : Tables → List RowWrite) (rest : Program) {f : Tables → Tables}
    (hrest : ∀ t ws, rest.alone Tables.write t ws = f (ws.foldl Tables.write t)) (t : Tables)
    (ws : List RowWrite) :
    (.write stmt rest : Program).alone Tables.write t ws = f (exec stmt (ws.foldl Tables.write t)) := by
  rw [Program.alone, hrest, List.foldl_append, exec]

theorem alone_commit (t : Tables) (ws : List RowWrite) :
    (.commit .done : Program).alone Tables.write t ws = ws.foldl Tables.write t := rfl

theorem foldl_documents (ds : List DocumentRow) (t : Tables) :
    (ds.map RowWrite.document).foldl Tables.write t =
      { t with documents := ds.foldl (put (·.documentId)) t.documents } := by
  induction ds generalizing t with
  | nil => rfl
  | cons e ds ih =>
    rw [List.map_cons, List.foldl_cons, ih]
    rfl

theorem foldl_fingerprints (rs : List FingerprintRow) (t : Tables) :
    (rs.map RowWrite.fingerprint).foldl Tables.write t =
      { t with fingerprints := rs.foldl (put (·.key)) t.fingerprints } := by
  induction rs generalizing t with
  | nil => rfl
  | cons r rs ih =>
    rw [List.map_cons, List.foldl_cons, ih]
    rfl

/-- The primary keys hold. -/
structure UniqueKeys (t : Tables) : Prop where
  documents : (t.documents.map (·.documentId)).Nodup
  fingerprints : (t.fingerprints.map (·.key)).Nodup

theorem exec_updateDocument (h : UniqueKeys t) {set : DocumentRow → DocumentRow}
    (hset : ∀ e, (set e).documentId = e.documentId) :
    exec (Tables.updateDocument d set) t = { t with
      documents := t.documents.map fun e => if e.documentId = d then set e else e } := by
  have hmap : t.updateDocument d set =
      ((t.documents.filter (·.documentId = d)).map set).map RowWrite.document := by
    rw [Tables.updateDocument, List.map_map]
    rfl
  rw [exec, hmap, foldl_documents, foldl_put_map _ set hset h.documents]
  simp

theorem exec_sweep (h : UniqueKeys t) (v : String) :
    exec (Tables.sweep d v) t = { t with
      fingerprints := t.fingerprints.map fun r =>
        if Tables.isOther d v r then { r with superseded := true } else r } := by
  have hmap : t.sweep d v = ((t.fingerprints.filter (Tables.isOther d v)).map
      fun r => { r with superseded := true }).map RowWrite.fingerprint := by
    rw [Tables.sweep, List.map_map]
    rfl
  rw [exec, hmap, foldl_fingerprints]
  have hput := foldl_put_map (Tables.isOther d v)
    (fun r : FingerprintRow => { r with superseded := true }) (fun _ => rfl) h.fingerprints
  rw [hput]

theorem exec_insertDocument {e : DocumentRow} (h : ∀ x ∈ t.documents, x.documentId ≠ e.documentId) :
    exec (Tables.insertDocument e) t = { t with documents := t.documents ++ [e] } := by
  rw [exec, Tables.insertDocument, if_neg (by simpa using h), List.foldl_cons, List.foldl_nil,
    Tables.write, put_new h]

theorem exec_insertFingerprint (r : FingerprintRow) :
    exec (Tables.insertFingerprint r) t =
      if t.fingerprints.any fun x => x.key = r.key then t
      else { t with fingerprints := t.fingerprints ++ [r] } := by
  rw [exec, Tables.insertFingerprint]
  split_ifs with h
  · rfl
  · rw [List.foldl_cons, List.foldl_nil, Tables.write, put_new (by simpa using h)]

end

/-! ## The SQLite tables -/

def DocumentRow.toSqlite (e : DocumentRow) : Sqlite.DocumentRow :=
  ⟨e.documentId, Sqlite.sqlFlag e.authorized, e.currentVersion⟩

def FingerprintRow.toSqlite (r : FingerprintRow) : Sqlite.FingerprintRow where
  fingerprint := r.fingerprint
  documentId := r.documentId
  documentVersion := r.documentVersion
  ingestedAt := r.ingestedAt
  chunkOffset := r.chunkOffset
  chunkLength := r.chunkLength
  superseded := Sqlite.sqlFlag r.superseded
  signature := r.signature

/-- The same rows, with their flags as integers. -/
def Tables.toSqlite (t : Tables) : Sqlite.Tables :=
  ⟨t.documents.map (·.toSqlite), t.fingerprints.map (·.toSqlite)⟩

theorem toSqlite_selectCurrentVersion (t : Tables) (d : String) :
    t.toSqlite.selectCurrentVersion d = t.selectCurrentVersion d := by
  rw [Sqlite.Tables.selectCurrentVersion, Tables.selectCurrentVersion, Tables.toSqlite,
    List.find?_map, Option.map_map]
  rfl

theorem toSqlite_update (h : UniqueKeys t) (d : String) (set : DocumentRow → DocumentRow)
    (set' : Sqlite.DocumentRow → Sqlite.DocumentRow)
    (hset : ∀ e, (set e).documentId = e.documentId)
    (hset' : ∀ e, (set e).toSqlite = set' e.toSqlite) :
    (exec (Tables.updateDocument d set) t).toSqlite = t.toSqlite.updateDocument d set' := by
  rw [exec_updateDocument h hset]
  simp only [Tables.toSqlite, Sqlite.Tables.updateDocument, List.map_map]
  congr 1
  refine List.map_congr_left fun e _ => ?_
  have hid : e.toSqlite.documentId = e.documentId := rfl
  simp only [Function.comp_apply, hid]
  split_ifs
  · exact hset' e
  · rfl

theorem toSqlite_sweep (h : UniqueKeys t) (v : String) :
    (exec (Tables.sweep d v) t).toSqlite = t.toSqlite.sweep d v := by
  rw [exec_sweep h]
  simp only [Tables.toSqlite, Sqlite.Tables.sweep, List.map_map]
  congr 1
  refine List.map_congr_left fun r _ => ?_
  have hother : Sqlite.Tables.isOther d v r.toSqlite = Tables.isOther d v r := rfl
  simp only [Function.comp_apply, hother]
  split_ifs <;> rfl

theorem toSqlite_insertDocument {e : DocumentRow}
    (h : ∀ x ∈ t.documents, x.documentId ≠ e.documentId) :
    (exec (Tables.insertDocument e) t).toSqlite = t.toSqlite.insertDocument e.toSqlite := by
  rw [exec_insertDocument h]
  simp [Tables.toSqlite, Sqlite.Tables.insertDocument]

theorem toSqlite_insertFingerprint (r : FingerprintRow) :
    (exec (Tables.insertFingerprint r) t).toSqlite = t.toSqlite.insertOrIgnore r.toSqlite := by
  have hany : (t.toSqlite.fingerprints.any fun x => x.key = r.toSqlite.key) =
      t.fingerprints.any fun x => x.key = r.key := by
    rw [Tables.toSqlite, List.any_map]
    rfl
  rw [exec_insertFingerprint, Sqlite.Tables.insertOrIgnore, hany]
  split_ifs
  · rfl
  · simp [Tables.toSqlite]

theorem UniqueKeys.sweep (h : UniqueKeys t) (d v : String) :
    UniqueKeys (exec (Tables.sweep d v) t) := by
  rw [exec_sweep h]
  refine ⟨h.documents, ?_⟩
  have hkeys : (t.fingerprints.map fun r =>
      if Tables.isOther d v r then { r with superseded := true } else r).map (·.key) =
        t.fingerprints.map (·.key) := by
    rw [List.map_map]
    refine List.map_congr_left fun r _ => ?_
    simp only [Function.comp_apply]
    split_ifs <;> rfl
  rw [hkeys]
  exact h.fingerprints

section

variable {py : Stdlib} {secret : Bytes} {hashtext : String → ℤ}

theorem uniqueKeys (h : Sqlite.Consistent py secret t.toSqlite) : UniqueKeys t := by
  refine ⟨?_, ?_⟩
  · have := h.ids
    rw [Sqlite.Tables.ids, Tables.toSqlite, List.map_map] at this
    exact this
  · have := h.keys
    rw [Tables.toSqlite, List.map_map] at this
    exact this

theorem alone_insertRow {r : FingerprintRow} (h : fitsInt32 r.chunkOffset ∧ fitsInt32 r.chunkLength)
    (t : Tables) (ws : List RowWrite) : (insertRow r .done).alone Tables.write t ws =
      exec (Tables.insertFingerprint r) (ws.foldl Tables.write t) := by
  rw [insertRow, if_pos h]
  exact alone_write _ _ (f := id) alone_commit t ws

/-- The statements of an add leave the tables that those of the SQLite index do. -/
theorem toSqlite_afterSelect (hu : UniqueKeys t) (a : Sqlite.AddArgs) {r : FingerprintRow}
    (h : fitsInt32 r.chunkOffset ∧ fitsInt32 r.chunkLength) :
    ((afterSelect a r .done (t.selectCurrentVersion a.documentId)).alone Tables.write t []).toSqlite =
      (t.toSqlite.upsertDocument a.documentId a.documentVersion a.authorized).insertOrIgnore
        r.toSqlite := by
  rw [Sqlite.Tables.upsertDocument, toSqlite_selectCurrentVersion]
  cases hs : t.selectCurrentVersion a.documentId with
  | none =>
    have hnew : ∀ x ∈ t.documents, x.documentId ≠ a.documentId := by
      simpa [Tables.selectCurrentVersion] using hs
    rw [afterSelect, alone_write _ _ (alone_insertRow h), toSqlite_insertFingerprint,
      toSqlite_insertDocument hnew]
    rfl
  | some current =>
    rw [afterSelect]
    by_cases hv : current ≠ a.documentVersion
    · have hupdate := toSqlite_update (hu.sweep a.documentId a.documentVersion) a.documentId
        (fun e => { e with currentVersion := a.documentVersion, authorized := a.authorized })
        (fun e => { e with
          currentVersion := a.documentVersion, authorized := Sqlite.sqlFlag a.authorized })
        (fun _ => rfl) (fun _ => rfl)
      rw [if_pos hv, alone_write _ _ (f := fun t => exec (Tables.insertFingerprint r) (exec _ t))
        (alone_write _ _ (alone_insertRow h)), toSqlite_insertFingerprint, List.foldl_nil, hupdate,
        toSqlite_sweep hu]
      simp only [if_pos hv]
    · have hupdate := toSqlite_update hu a.documentId
        (fun e => { e with authorized := a.authorized })
        (fun e => { e with authorized := Sqlite.sqlFlag a.authorized }) (fun _ => rfl)
        (fun _ => rfl)
      rw [if_neg hv, alone_write _ _ (alone_insertRow h), toSqlite_insertFingerprint,
        List.foldl_nil, hupdate]
      simp only [if_neg hv]

theorem fitsInt32.fitsInt64 {i : ℤ} (h : fitsInt32 i) : Sqlite.fitsInt64 i := by
  unfold fitsInt32 at h
  unfold Sqlite.fitsInt64
  omega

/-- A call by itself leaves the tables that the SQLite index does. -/
theorem toSqlite_apply {conn : Sqlite.Connection} (ht : conn.tables = t.toSqlite)
    (hc : Sqlite.Consistent py secret conn.tables) {op : Sqlite.Op} (h : Accepted op) :
    ∃ conn', Sqlite.step py secret conn op = .ok conn' ∧
      conn'.tables = (apply py secret hashtext t op).toSqlite := by
  have hu := uniqueKeys (ht ▸ hc)
  cases op with
  | add now a =>
    obtain ⟨hfp, hv, ⟨payload, hp⟩, ho, hl⟩ := h
    rw [Sqlite.step, Sqlite.add_ok hfp hv hp ⟨ho.fitsInt64, hl.fitsInt64⟩]
    refine ⟨_, rfl, ?_⟩
    have hscheme : ¬ (¬ startsWith a.fingerprint "sha256:" = true ∨
        ¬ startsWith a.documentVersion "sha256:" = true) := by simp [hfp, hv]
    have hrow := toSqlite_afterSelect hu a (r := row py secret a now payload) ⟨ho, hl⟩
    rw [apply, program, add, if_neg hscheme, hp, ht]
    exact hrow.symm
  | setAuthorization d authorized =>
    refine ⟨_, rfl, ?_⟩
    rw [apply, program, setAuthorization, if_neg (by simpa [Accepted] using h)]
    have hupdate := toSqlite_update hu d (fun e => { e with authorized := authorized })
      (fun e => { e with authorized := Sqlite.sqlFlag authorized }) (fun _ => rfl) (fun _ => rfl)
    rw [Program.alone, alone_write _ _ (f := id) alone_commit]
    refine Eq.trans ?_ hupdate.symm
    rw [Sqlite.setAuthorization, ht]
    rfl
  | supersede d v =>
    refine ⟨_, rfl, ?_⟩
    rw [apply, program, supersede, if_neg (by simpa [Accepted] using h.1)]
    have hupdate := toSqlite_update (hu.sweep d v) d (fun e => { e with currentVersion := v })
      (fun e => { e with currentVersion := v }) (fun _ => rfl) (fun _ => rfl)
    rw [Program.alone, if_neg (by simpa [Accepted] using h.2),
      alone_write _ _ (f := fun t => exec _ t) (alone_write _ _ (f := id) alone_commit)]
    refine Eq.trans ?_ hupdate.symm
    rw [toSqlite_sweep hu, Sqlite.supersede, ht]
    rfl

/-- A serial run of calls that return, on both indexes. -/
theorem toSqlite_applyAll {ops : List Sqlite.Op} (h : ∀ op ∈ ops, Accepted op) :
    ∃ conn, Sqlite.run py secret ops = .ok conn ∧
      conn.tables = (applyAll py secret hashtext ops .init).toSqlite := by
  induction ops using List.reverseRecOn with
  | nil => exact ⟨_, rfl, rfl⟩
  | append_singleton ops op ih =>
    obtain ⟨conn, hrun, ht⟩ := ih fun o ho => h o (List.mem_append_left _ ho)
    obtain ⟨conn', hstep, ht'⟩ := toSqlite_apply ht (Sqlite.run_inv hrun).1
      (h op (List.mem_append_right _ (List.mem_singleton_self op)))
    refine ⟨conn', Run.run_snoc_ok.mpr ⟨conn, hrun, hstep⟩, ?_⟩
    rw [applyAll, List.foldl_append]
    exact ht'

/-! ## Concurrent writers -/

/-- Concurrent calls that return leave the tables of a serial run, in the order in which they
acquired their locks, and these are the tables that the SQLite index would hold. -/
theorem postgres_serialisable {ι : Type} [DecidableEq ι] (call : ι → Sqlite.Op)
    (schedule : List ι) (s : System Tables RowWrite ℤ ι)
    (h : run Tables.write (.init .init fun i => program py secret hashtext (call i)) schedule =
      .ok s) (hreturned : ∀ i ∈ s.granted, (s.clients i).program = .done) :
    let serial := applyAll py secret hashtext (s.granted.map call) .init
    s.db.documents.Perm serial.documents ∧ s.db.fingerprints.Perm serial.fingerprints ∧
      ∃ conn, Sqlite.run py secret (s.granted.map call) = .ok conn ∧
        conn.tables = serial.toSqlite := by
  have hserial : serial Tables.write (fun i => program py secret hashtext (call i)) s.granted .init =
      applyAll py secret hashtext (s.granted.map call) .init := by
    rw [applyAll, List.foldl_map]
    rfl
  have hpart (d : String) : part d s.db =
      part d (applyAll py secret hashtext (s.granted.map call) .init) := by
    rw [← hserial]
    refine serialisable (fun i => (call i).documentId) hashtext
      (fun i => program_locks py secret hashtext (call i)) h ?_ d
    intro i hi
    rw [Over, hreturned i hi]
    rfl
  refine ⟨?_, ?_, ?_⟩
  · exact perm_of_owners fun d => (Prod.mk.inj (hpart d)).1
  · exact perm_of_owners fun d => (Prod.mk.inj (hpart d)).2
  · refine toSqlite_applyAll fun op hop => ?_
    obtain ⟨i, hi, rfl⟩ := List.mem_map.mp hop
    by_contra hnot
    exact run_not_done h (doomed_program py secret hashtext hnot) (hreturned i hi)

end

/-! Two adds to different documents, statement by statement, and a revocation that waits. -/

namespace Sample

open Sqlite.Sample

def calls : Fin 3 → Sqlite.Op
  | 0 => .add "2024-01-01T00:00:00.000Z" ⟨"sha256:aa", "doc", "sha256:01", 0, 5, true⟩
  | 1 => .add "2024-01-02T00:00:00.000Z" ⟨"sha256:bb", "other", "sha256:02", 0, 5, true⟩
  | 2 => .setAuthorization "doc" false

def hashtext (s : String) : ℤ := s.length

def schedule : List (Fin 3) := [1, 0, 1, 0, 0, 1, 0, 0, 2, 1, 2, 2, 1]

end Sample

theorem postgres_serialisable_sample :
    ∃ s, run Tables.write (.init .init fun i => program Sqlite.Sample.py Sqlite.Sample.secret
        Sample.hashtext (Sample.calls i)) Sample.schedule = .ok s ∧ s.granted = [1, 0, 2] ∧
      s.db.fingerprints.Perm (applyAll Sqlite.Sample.py Sqlite.Sample.secret Sample.hashtext
        ([1, 0, 2].map Sample.calls) .init).fingerprints := by
  refine ⟨_, rfl, rfl, ?_⟩
  refine (postgres_serialisable Sample.calls Sample.schedule _ rfl ?_).2.1
  intro i _
  fin_cases i <;> rfl

end Provenex.Postgres
