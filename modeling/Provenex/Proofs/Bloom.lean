import Provenex.Index.Bloom
import Provenex.Proofs.Answers
import Provenex.Proofs.Ingest

/-! A filter in front of an index changes no answer, as long as it is told of everything that is
stored: over any history, and so for everything that is computed from the index. -/

namespace Provenex

open Effect
open BloomAcceleratedIndex (accelerated onBase guarded)

section

variable {σ φ α : Type}

/-- What an index stores, by the fingerprints that it may answer for. -/
structure WritableIndex.Tracks (index : WritableIndex σ) (held : σ → String → Prop) : Prop where
  absent : ∀ s fp, ¬ held s fp →
    index.verify fp s = .ok .unverified s ∧ index.lookup fp s = .ok none s
  verify : ∀ s fp fp', held (stateOf (index.verify fp s)) fp' → held s fp'
  lookup : ∀ s fp fp', held (stateOf (index.lookup fp s)) fp' → held s fp'
  added : ∀ now a s t fp, index.add now a s = .ok () t → held t fp → held s fp ∨ fp = a.fingerprint
  raised : ∀ now a s e t fp, index.add now a s = .error e t → held t fp → held s fp
  setAuthorization : ∀ d authorized s fp, held (stateOf (index.setAuthorization d authorized s)) fp →
    held s fp
  supersede : ∀ d v s fp, held (stateOf (index.supersede d v s)) fp → held s fp

/-- No false negatives: what a filter was told of, it probably contains. -/
def BloomFilterIndex.NoFalseNegatives (bloom : BloomFilterIndex φ) (empty : φ) : Prop :=
  ∀ (told : List String) fp, fp ∈ told → bloom.probablyContains (told.foldl bloom.add empty) fp = true

/-- The filter was told of everything that is stored. -/
def Accelerates (bloom : BloomFilterIndex φ) (empty : φ) (held : σ → String → Prop) (t : σ × φ)
    (s : σ) : Prop :=
  t.1 = s ∧ ∃ told : List String, t.2 = told.foldl bloom.add empty ∧ ∀ fp, held s fp → fp ∈ told

variable {base : WritableIndex σ} {bloom : BloomFilterIndex φ} {empty : φ} {held : σ → String → Prop}

/-- A call on the base that stores nothing. -/
theorem onBase_simulates {x : EStateM PyErr σ α} (hx : ∀ s fp, held (stateOf (x s)) fp → held s fp) :
    Simulates (Accelerates bloom empty held) (onBase x) x := by
  rintro ⟨s, f⟩ _ ⟨rfl, told, rfl, htold⟩
  have hheld := hx s
  unfold onBase
  dsimp only
  cases h : x s with
  | ok a s' =>
    rw [h] at hheld
    exact .ok a ⟨rfl, told, rfl, fun fp hfp => htold fp (hheld fp hfp)⟩
  | error e s' =>
    rw [h] at hheld
    exact .error e ⟨rfl, told, rfl, fun fp hfp => htold fp (hheld fp hfp)⟩

/-- What the filter denies is not stored, and the base says so too. -/
theorem guarded_simulates (hbloom : bloom.NoFalseNegatives empty) {fp : String} {absent : α}
    {x : EStateM PyErr σ α} (habsent : ∀ s, ¬ held s fp → x s = .ok absent s)
    (hx : ∀ s fp', held (stateOf (x s)) fp' → held s fp') :
    Simulates (Accelerates bloom empty held) (guarded bloom fp absent x) x := by
  intro t s h
  unfold guarded
  split_ifs with hdenied
  · exact onBase_simulates hx t s h
  · have hnot : ¬ held s fp := by
      obtain ⟨-, told, hf, htold⟩ := h
      intro hfp
      rw [hf] at hdenied
      exact hdenied (hbloom told fp (htold fp hfp))
    rw [habsent s hnot]
    exact .ok absent h

theorem add_simulates (hbase : base.Tracks held) (now : String) (a : Sqlite.AddArgs) :
    Simulates (Accelerates bloom empty held) ((accelerated base bloom).add now a) (base.add now a) := by
  rintro ⟨s, f⟩ _ ⟨rfl, told, rfl, htold⟩
  change Ends _ (EStateM.bind (onBase (base.add now a)) _ _) _
  unfold EStateM.bind onBase
  dsimp only
  cases h : base.add now a s with
  | ok u s' =>
    refine .ok () ⟨rfl, told ++ [a.fingerprint], ?_, fun fp hfp => ?_⟩
    · rw [List.foldl_append]
      rfl
    · obtain hfp | rfl := hbase.added now a s s' fp h hfp
      · exact List.mem_append_left _ (htold fp hfp)
      · exact List.mem_append_right _ List.mem_cons_self
  | error e s' =>
    exact .error e ⟨rfl, told, rfl, fun fp hfp => htold fp (hbase.raised now a s e s' fp h hfp)⟩

theorem accelerated_simulates (hbase : base.Tracks held) (hbloom : bloom.NoFalseNegatives empty) :
    SimulatesIndex (Accelerates bloom empty held) (accelerated base bloom) base where
  verify fp := guarded_simulates hbloom (fun s h => (hbase.absent s fp h).1) (hbase.verify · fp)
  lookup fp := guarded_simulates hbloom (fun s h => (hbase.absent s fp h).2) (hbase.lookup · fp)
  add := add_simulates hbase
  setAuthorization d authorized := onBase_simulates (hbase.setAuthorization d authorized)
  supersede d v := onBase_simulates (hbase.supersede d v)

end

/-! ## The SQLite index -/

namespace Sqlite

section

variable {py : Stdlib} {secret : Bytes}

/-- There is a row of the fingerprint. -/
def Stores (conn : Connection) (fp : String) : Prop := ∃ r ∈ conn.tables.fingerprints, r.fingerprint = fp

theorem lookup_unstored {conn : Connection} {fp : String} (plan : QueryPlan) (h : ¬ Stores conn fp) :
    lookup plan conn fp = none := by
  cases hl : lookup plan conn fp with
  | none => rfl
  | some entry =>
    obtain ⟨row, hrow, -⟩ := lookup_some hl
    obtain ⟨hr, hfp, -⟩ := mem_joined.mp hrow
    exact absurd ⟨row.1, hr, hfp⟩ h

theorem stores_insertOrIgnore {t : Tables} {row : FingerprintRow} {fp : String} :
    (∃ r ∈ (t.insertOrIgnore row).fingerprints, r.fingerprint = fp) ↔
      (∃ r ∈ t.fingerprints, r.fingerprint = fp) ∨ fp = row.fingerprint := by
  constructor
  · rintro ⟨r, hr, hfp⟩
    obtain hr | ⟨rfl, -⟩ := mem_insertOrIgnore.mp hr
    · exact .inl ⟨r, hr, hfp⟩
    · exact .inr hfp.symm
  · rintro (⟨r, hr, hfp⟩ | rfl)
    · exact ⟨r, mem_insertOrIgnore.mpr (.inl hr), hfp⟩
    · by_cases hkey : ∀ r ∈ t.fingerprints, r.key ≠ row.key
      · exact ⟨row, mem_insertOrIgnore.mpr (.inr ⟨rfl, hkey⟩), rfl⟩
      · push Not at hkey
        obtain ⟨r, hr, hkey⟩ := hkey
        exact ⟨r, mem_insertOrIgnore.mpr (.inl hr), (Prod.mk.inj hkey).1⟩

/-- An `add` that returns stores its fingerprint. -/
theorem stores_added {conn conn' : Connection} {now : String} {a : AddArgs} {fp : String}
    (h : step py secret conn (.add now a) = .ok conn') :
    Stores conn' fp ↔ Stores conn fp ∨ fp = a.fingerprint := by
  obtain ⟨payload, -, rfl⟩ := step_add h
  change (∃ r ∈ (Tables.insertOrIgnore _ _).fingerprints, r.fingerprint = fp) ↔ _
  rw [stores_insertOrIgnore, upsertDocument_fingerprint]
  rfl

/-- An `add` that raises stores nothing. -/
theorem stores_raised {conn : Connection} {now : String} {a : AddArgs} {e : PyErr} {fp : String}
    (h : (add py secret conn now a).1 = .error e) :
    Stores (add py secret conn now a).2 fp ↔ Stores conn fp := by
  obtain heq | heq := add_raised h
  · rw [heq]
  · rw [heq]
    exact upsertDocument_fingerprint fp

theorem asWritable_tracks (plan : QueryPlan) :
    (asWritable py secret plan).Tracks Stores where
  absent conn fp h := by
    have hnone := lookup_unstored plan h
    constructor
    · change lift (verify py secret plan conn fp) conn = _
      rw [verify, hnone]
      rfl
    · change EStateM.Result.ok (lookup plan conn fp) conn = _
      rw [hnone]
  verify conn fp fp' h := by
    have hstate : stateOf (lift (verify py secret plan conn fp) conn) = conn := by
      cases verify py secret plan conn fp <;> rfl
    change Stores (stateOf (lift (verify py secret plan conn fp) conn)) fp' at h
    rwa [hstate] at h
  lookup conn fp fp' h := h
  added now a conn conn' fp h hstored := by
    obtain ⟨hreturned, rfl⟩ := lift_ok.mp h
    exact (stores_added (add_returned hreturned)).mp hstored
  raised now a conn e conn' fp h hstored := by
    obtain ⟨hraised, rfl⟩ := lift_error.mp h
    exact (stores_raised hraised).mp hstored
  setAuthorization d authorized conn fp h := h
  supersede d v conn fp h := by
    change ∃ r ∈ (conn.tables.sweep d v).fingerprints, r.fingerprint = fp at h
    rwa [sweep_fingerprint] at h

end

end Sqlite

/-! ## The wrapper -/

theorem noop_simulates {σ : Type} (base : WritableIndex σ) :
    SimulatesIndex (fun (t : σ × ℕ) s => t.1 = s) (accelerated base noopBloomFilter) base := by
  have hcall {α : Type} (x : EStateM PyErr σ α) :
      Simulates (fun (t : σ × ℕ) s => t.1 = s) (onBase x) x := by
    rintro t _ rfl
    unfold onBase
    cases x t.1 with
    | ok a s => exact .ok a rfl
    | error e s => exact .error e rfl
  refine ⟨⟨fun fp => hcall _, fun fp => hcall _⟩, fun now a => ?_, fun d authorized => hcall _,
    fun d v => hcall _⟩
  have hadd := (hcall (base.add now a)).bind (f := fun _ => modify fun s => (s.1, s.2 + 1))
    (g := fun _ => pure ()) fun _ t s hts => .ok () hts
  rwa [bind_pure_unit] at hadd

namespace Sample

/-- A filter that is exact. -/
def exactFilter : BloomFilterIndex (List String) where
  probablyContains := fun told fp => told.contains fp
  add := fun told fp => fp :: told
  size := List.length

theorem exactFilter_told : exactFilter.NoFalseNegatives [] := by
  intro told fp hfp
  have hreverse : told.foldl exactFilter.add [] = told.reverse :=
    List.foldl_flip_cons_eq_append'.trans (List.append_nil _)
  rw [hreverse]
  exact List.contains_iff_mem.mpr (List.mem_reverse.mpr hfp)

def plainIndex : WritableIndex Sqlite.Connection := Sqlite.asWritable gatePy [107] gatePlan

end Sample

end Provenex
