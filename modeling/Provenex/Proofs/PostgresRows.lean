import Provenex.Index.MerklePostgres
import Provenex.Proofs.PostgresSerial

/-! What the transaction of an `add` can do to the rows that others read. A stored
row keeps every field but its flag, and at most the row of the call is new. -/

namespace Provenex.Postgres

open Transactions Rows

/-- The row without its flag. -/
def FingerprintRow.fixed (r : FingerprintRow) : FingerprintRow := { r with superseded := false }

@[simp] theorem fixed_key (r : FingerprintRow) : r.fixed.key = r.key := rfl

@[simp] theorem fixed_payload (r : FingerprintRow) : r.fixed.payload = r.payload := rfl

def Tables.fixedRows (t : Tables) : List FingerprintRow := t.fingerprints.map (·.fixed)

theorem fixedRows_keys (t : Tables) : t.fixedRows.map (·.key) = t.fingerprints.map (·.key) := by
  rw [Tables.fixedRows, List.map_map]
  rfl

/-- Some row has this key. -/
def Tables.Held (t : Tables) (key : String × String × String) : Prop :=
  ∃ y ∈ t.fixedRows, y.key = key

theorem existed_iff {t : Tables} {key : String × String × String} :
    t.existed key = true ↔ t.Held key := by
  simp [Tables.existed, Tables.Held, Tables.fixedRows]

variable {t db : Tables} {r : FingerprintRow} {w : RowWrite} {ws : List RowWrite}

/-- Rewriting a row with its own fields changes no field that is fixed. -/
theorem fixedRows_put {rows : List FingerprintRow} (hnd : (rows.map (·.key)).Nodup)
    (h : r.fixed ∈ rows.map (·.fixed)) : (put (·.key) rows r).map (·.fixed) = rows.map (·.fixed) := by
  obtain ⟨r0, h0, hr0⟩ := List.mem_map.mp h
  have hk : r0.key = r.key := congrArg (·.key) hr0
  rw [put, if_pos (List.any_eq_true.mpr ⟨r0, h0, by simpa using hk⟩), List.map_map]
  refine List.map_congr_left fun x hx => ?_
  simp only [Function.comp_apply]
  split_ifs with hxk
  · rw [List.inj_on_of_nodup_map hnd hx h0 (hxk.trans hk.symm), hr0]
  · rfl

/-- What an open transaction of an `add` has written. -/
structure Good (db : Tables) (r : FingerprintRow) (ws : List RowWrite) : Prop where
  rows : ∀ x, .fingerprint x ∈ ws →
    x.fixed ∈ db.fixedRows ∨ x.fixed = r.fixed ∧ ¬ db.Held r.key
  leaves : ∀ l, .leaf l ∉ ws

/-- The tables with no new row, or with this one. -/
def Extends (db : Tables) (r : FingerprintRow) (t : Tables) : Prop :=
  t.fixedRows = db.fixedRows ∨ ¬ db.Held r.key ∧ t.fixedRows = db.fixedRows ++ [r.fixed]

theorem Extends.keys (h : Extends db r t) (hnd : (db.fixedRows.map (·.key)).Nodup) :
    (t.fingerprints.map (·.key)).Nodup := by
  rw [← fixedRows_keys]
  rcases h with h | ⟨hnew, h⟩
  · rwa [h]
  · rw [h, List.map_append, List.map_singleton, fixed_key]
    refine List.nodup_append'.mpr ⟨hnd, by simp, ?_⟩
    rw [List.disjoint_singleton]
    rintro hm
    obtain ⟨y, hy, hk⟩ := List.mem_map.mp hm
    exact hnew ⟨y, hy, hk⟩

theorem Extends.write (h : Extends db r t) (hnd : (db.fixedRows.map (·.key)).Nodup)
    {x : FingerprintRow} (hx : x.fixed ∈ db.fixedRows ∨ x.fixed = r.fixed ∧ ¬ db.Held r.key) :
    Extends db r (t.write (.fingerprint x)) := by
  have hsame (hm : x.fixed ∈ t.fixedRows) : (t.write (.fingerprint x)).fixedRows = t.fixedRows :=
    fixedRows_put (h.keys hnd) hm
  rcases h with h | ⟨hnew, h⟩
  · rcases hx with hx | ⟨hxr, hnew⟩
    · exact .inl ((hsame (h ▸ hx)).trans h)
    · refine .inr ⟨hnew, ?_⟩
      have hkey : x.key = r.key := congrArg (·.key) hxr
      have hput : put (·.key) t.fingerprints x = t.fingerprints ++ [x] := by
        refine put_new fun y hy hk => hnew ⟨y.fixed, ?_, hk.trans hkey⟩
        rw [← h]
        exact List.mem_map_of_mem hy
      rw [Tables.fixedRows, Tables.write, hput, List.map_append, ← h, List.map_singleton, hxr]
      rfl
  · refine .inr ⟨hnew, (hsame ?_).trans h⟩
    rw [h, List.mem_append]
    exact hx.imp id fun hx => List.mem_singleton.mpr hx.1

theorem good_view (h : Good db r ws) (hnd : (db.fixedRows.map (·.key)).Nodup) :
    Extends db r (ws.foldl Tables.write db) ∧
      (ws.foldl Tables.write db).merkleLeaves = db.merkleLeaves := by
  induction ws using List.reverseRecOn with
  | nil => exact ⟨.inl rfl, rfl⟩
  | append_singleton ws w ih =>
    obtain ⟨hext, hleaves⟩ := ih ⟨fun x hx => h.rows x (List.mem_append_left _ hx),
      fun l hl => h.leaves l (List.mem_append_left _ hl)⟩
    have hw : w ∈ ws ++ [w] := List.mem_append_right _ (List.mem_singleton_self w)
    rw [List.foldl_append, List.foldl_cons, List.foldl_nil]
    cases w with
    | document d => exact ⟨hext, hleaves⟩
    | fingerprint x => exact ⟨hext.write hnd (h.rows x hw), hleaves⟩
    | leaf l => exact absurd hw (h.leaves l)

/-- The transaction sees every committed row, and every row that it wrote. -/
theorem held_view {key : String × String × String} :
    (ws.foldl Tables.write db).Held key ↔
      db.Held key ∨ ∃ x, .fingerprint x ∈ ws ∧ x.key = key := by
  have hiff (t : Tables) : t.Held key ↔ key ∈ t.fingerprints.map (·.key) := by
    rw [← fixedRows_keys, List.mem_map]
    rfl
  induction ws using List.reverseRecOn with
  | nil => simp
  | append_singleton ws w ih =>
    rw [List.foldl_append, List.foldl_cons, List.foldl_nil]
    have hsplit : (∃ x, .fingerprint x ∈ ws ++ [w] ∧ x.key = key) ↔
        (∃ x, .fingerprint x ∈ ws ∧ x.key = key) ∨ ∃ x, w = .fingerprint x ∧ x.key = key := by
      simp only [List.mem_append, List.mem_singleton, or_and_right, exists_or, eq_comm]
    rw [hsplit, ← or_assoc]
    refine Iff.trans ?_ (or_congr_left ih)
    cases w with
    | document d => simp [Tables.write, Tables.Held, Tables.fixedRows]
    | leaf l => simp [Tables.write, Tables.Held, Tables.fixedRows]
    | fingerprint x =>
      rw [hiff, hiff, Tables.write, keys_put]
      split_ifs with hex
      · obtain ⟨y, hy, hk⟩ := hex
        simp only [RowWrite.fingerprint.injEq, exists_eq_left']
        constructor
        · exact .inl
        · rintro (hm | rfl)
          · exact hm
          · exact List.mem_map.mpr ⟨y, hy, hk⟩
      · simp [eq_comm]

/-! ## The statements before the insert -/

/-- The statement rewrites rows that it sees, and no leaf. -/
structure SafeStmt (stmt : Tables → List RowWrite) : Prop where
  rows : ∀ t x, .fingerprint x ∈ stmt t → x.fixed ∈ t.fixedRows
  leaves : ∀ t l, .leaf l ∉ stmt t

theorem safe_update (d : String) (set : DocumentRow → DocumentRow) :
    SafeStmt (Tables.updateDocument d set) := by
  refine ⟨?_, ?_⟩
  · intro t x hx
    simp [Tables.updateDocument] at hx
  · intro t l hl
    simp [Tables.updateDocument] at hl

theorem safe_insertDocument (e : DocumentRow) : SafeStmt (Tables.insertDocument e) := by
  refine ⟨?_, ?_⟩
  · intro t x hx
    unfold Tables.insertDocument at hx
    split_ifs at hx <;> simp at hx
  · intro t l hl
    unfold Tables.insertDocument at hl
    split_ifs at hl <;> simp at hl

theorem safe_sweep (d v : String) : SafeStmt (Tables.sweep d v) := by
  refine ⟨?_, ?_⟩
  · intro t x hx
    obtain ⟨y, hy, heq⟩ := List.mem_map.mp hx
    obtain rfl := RowWrite.fingerprint.inj heq
    exact List.mem_map.mpr ⟨y, (List.mem_filter.mp hy).1, rfl⟩
  · intro t l hl
    simp [Tables.sweep] at hl

theorem Good.write (h : Good db r ws) (hnd : (db.fixedRows.map (·.key)).Nodup)
    {stmt : Tables → List RowWrite} (hs : SafeStmt stmt) :
    Good db r (ws ++ stmt (ws.foldl Tables.write db)) := by
  refine ⟨?_, ?_⟩
  · intro x hx
    rcases List.mem_append.mp hx with hx | hx
    · exact h.rows x hx
    · have hm := hs.rows _ x hx
      rcases (good_view h hnd).1 with hv | ⟨hnew, hv⟩
      · exact .inl (hv ▸ hm)
      · rw [hv, List.mem_append, List.mem_singleton] at hm
        exact hm.imp id fun hx => ⟨hx, hnew⟩
  · intro l hl
    rcases List.mem_append.mp hl with hl | hl
    · exact h.leaves l hl
    · exact hs.leaves _ l hl

/-- After the insert, the transaction has its row. -/
theorem Good.insert (h : Good db r ws) :
    Good db r (ws ++ Tables.insertFingerprint r (ws.foldl Tables.write db)) ∧
      ((ws ++ Tables.insertFingerprint r (ws.foldl Tables.write db)).foldl Tables.write db).Held
        r.key := by
  unfold Tables.insertFingerprint
  split_ifs with hex
  · rw [List.append_nil]
    exact ⟨h, existed_iff.mp hex⟩
  · have hnew : ¬ db.Held r.key := fun hk => hex (existed_iff.mpr (held_view.mpr (.inl hk)))
    refine ⟨⟨?_, ?_⟩, held_view.mpr (.inr ⟨r, by simp, rfl⟩)⟩
    · intro x hx
      rcases List.mem_append.mp hx with hx | hx
      · exact h.rows x hx
      · obtain rfl := RowWrite.fingerprint.inj (List.mem_singleton.mp hx)
        exact .inr ⟨rfl, hnew⟩
    · intro l hl
      rcases List.mem_append.mp hl with hl | hl
      · exact h.leaves l hl
      · simp at hl

/-- What is left of the transaction of an `add`, before its insert. -/
inductive AddBody (r : FingerprintRow) (next : Program) : Program → Prop
  | insert (h : fitsInt32 r.chunkOffset ∧ fitsInt32 r.chunkLength) :
    AddBody r next (.write (Tables.insertFingerprint r) (.commit next))
  | refuse (h : ¬ (fitsInt32 r.chunkOffset ∧ fitsInt32 r.chunkLength)) : AddBody r next .rollback
  | query {f : Tables → Program} (h : ∀ t, AddBody r next (f t)) : AddBody r next (.query f)
  | write {stmt : Tables → List RowWrite} {rest : Program} (hs : SafeStmt stmt)
    (h : AddBody r next rest) : AddBody r next (.write stmt rest)

theorem addBody_insertRow (r : FingerprintRow) (next : Program) :
    AddBody r next (insertRow r next) := by
  unfold insertRow
  split_ifs with h
  · exact .insert h
  · exact .refuse h

theorem addBody_afterSelect (a : Sqlite.AddArgs) (r : FingerprintRow) (next : Program)
    (current : Option String) : AddBody r next (afterSelect a r next current) := by
  cases current with
  | none => exact .write (safe_insertDocument _) (addBody_insertRow r next)
  | some current =>
    rw [afterSelect]
    split_ifs
    · exact .write (safe_sweep _ _) (.write (safe_update _ _) (addBody_insertRow r next))
    · exact .write (safe_update _ _) (addBody_insertRow r next)

end Provenex.Postgres
