import Provenex.Proofs.Totality

/-! A limit of `not_older_than` that the validator accepts and no report can hold: as many
digits as `int` reads, which are more once the days are counted in seconds. -/

namespace Provenex

open Guard

namespace Sample

/-- So many nines, in days. -/
def ninesOfDays (k : ℕ) : String := String.ofList (List.replicate k '9' ++ ['d'])

/-- A clock that reads every text as the epoch. -/
def epochClock : Runtime Empty :=
  { Runtime.blank with fromisoformat := fun _ => some ⟨true, 0⟩ }

theorem matchDuration_nines {k : ℕ} (hk : 0 < k) :
    matchDuration epochClock.toStdlib (ninesOfDays k) = some (List.replicate k '9', 'd') := by
  obtain ⟨n, rfl⟩ : ∃ n, k = n + 1 := ⟨k - 1, by omega⟩
  have hnine : (epochClock.toStdlib.decimal '9').isSome = true := rfl
  have htail : ['d'].takeWhile (fun c => (epochClock.toStdlib.decimal c).isSome) = [] := rfl
  have hall : ∀ c ∈ List.replicate (n + 1) '9', (epochClock.toStdlib.decimal c).isSome = true := by
    intro c hc
    rw [List.eq_of_mem_replicate hc]
    exact hnine
  have hspace : (List.replicate (n + 1) '9' ++ ['d']).dropWhile isSpace =
      List.replicate (n + 1) '9' ++ ['d'] := by
    rw [List.replicate_succ, List.cons_append, List.dropWhile_cons_of_neg (by decide)]
  unfold matchDuration ninesOfDays
  rw [String.toList_ofList, hspace]
  dsimp only
  rw [List.takeWhile_append_of_pos hall, List.dropWhile_append_of_pos hall, htail,
    List.append_nil, List.replicate_succ]
  rfl

theorem nines_value (k : ℕ) : ∀ n : ℤ, (List.replicate k '9').foldl
    (fun n c => 10 * n + ((epochClock.toStdlib.decimal c).getD 0 : ℤ)) n = (n + 1) * 10 ^ k - 1 := by
  induction k with
  | zero => intro n; simp
  | succ k ih =>
    intro n
    have hnine : ((epochClock.toStdlib.decimal '9').getD 0 : ℤ) = 9 := rfl
    rw [List.replicate_succ, List.foldl_cons, ih, hnine, pow_succ]
    ring

theorem parse_nines {k : ℕ} (hk : 0 < k) (hmax : k ≤ maxIntDigits) (place : String) :
    parseDuration epochClock.toStdlib (.str (ninesOfDays k)) place =
      .ok ((10 ^ k - 1) * 86400) := by
  have hvalue : intOfDigits epochClock.toStdlib (List.replicate k '9') = .ok (10 ^ k - 1) := by
    rw [intOfDigits, if_neg (by simpa using hmax), nines_value]
    simp
  simp only [parseDuration, matchDuration_nines hk, hvalue, Except.map]
  rfl

theorem nines_unwritten (k : ℕ) :
    ¬ digitsWithin (k + 1) ((10 ^ (k + 1) - 1) * 86400 : ℤ).natAbs = true := by
  rw [digitsWithin_iff]
  have hp : 10 ≤ 10 ^ (k + 1) := Nat.le_self_pow (by omega) 10
  have hcast : ((10 : ℤ) ^ (k + 1)) = ((10 ^ (k + 1) : ℕ) : ℤ) := by push_cast; rfl
  rw [hcast]
  generalize 10 ^ (k + 1) = p at hp ⊢
  omega

/-- The longest limit that is read. -/
def longest : String := ninesOfDays maxIntDigits

theorem longest_parses (place : String) : parseDuration epochClock.toStdlib (.str longest) place =
    .ok ((10 ^ maxIntDigits - 1) * 86400) :=
  parse_nines (by decide) le_rfl place

theorem longest_unwritten : ¬ writableInt ((10 ^ maxIntDigits - 1) * 86400) = true := by
  obtain ⟨k, hk⟩ : ∃ k, maxIntDigits = k + 1 := ⟨4299, rfl⟩
  rw [writableInt, hk]
  exact nines_unwritten k

/-! ### Two constraints -/

/-- A constraint that fails of the chunk below. -/
def tierEntry : PyAtom × PyVal := (.str "chunk.metadata.tier", .str "a")

/-- A constraint that holds of it, and cannot say so. -/
def ageEntry : PyAtom × PyVal :=
  (.str "chunk.metadata.seen", .dict [(.str "not_older_than", .str longest)])

def seenChunk : ChunkContext :=
  ⟨.str "sha256:aa", .none, .none, .none,
    [(.str "tier", .str "b"), (.str "seen", .str "1970-01-01T00:00:00Z")], .none⟩

theorem tierEntry_fails : requireEntryHolds epochClock "deny" ⟨some seenChunk, none, request⟩
    tierEntry = .ok false := rfl

theorem ageEntry_mapping : RequireMapping epochClock.toStdlib ageEntry.2 := by
  rintro d ⟨⟩
  refine ⟨by simp [KeysWithin, keysOf, knownRequireOperators], fun op v hv => ?_⟩
  cases op with
  | notOlderThan =>
    obtain rfl := Option.some.inj hv
    exact ⟨_, longest_parses ""⟩
  | _ => cases hv

theorem ageEntry_raises : requireEntryHolds epochClock "deny" ⟨some seenChunk, none, request⟩
    ageEntry = .error (.valueError none) := by
  have hnot : ¬ AgeWritten epochClock ⟨some seenChunk, none, request⟩ ageEntry := by
    intro h
    have hwritten := h _ (.val (.str "1970-01-01T00:00:00Z")) rfl rfl rfl
      "1970-01-01T00:00:00Z" "2026-01-01T00:00:00Z" _ 0 0 rfl rfl (longest_parses "") rfl rfl
    exact longest_unwritten hwritten.2
  have houtcome : ReturnsIf (AgeWritten epochClock ⟨some seenChunk, none, request⟩ ageEntry)
      (.valueError none) (requireEntryHolds epochClock "deny" ⟨some seenChunk, none, request⟩
        ageEntry) :=
    requireEntryHolds_outcome "deny" ageEntry_mapping rfl rfl ⟨_, rfl, by decide⟩
  rcases houtcome with ⟨h, -⟩ | ⟨-, h⟩
  · exact absurd h hnot
  · exact h

/-! ### Bundles of them -/

/-- A rule with these constraints, as it is written and as it is read. -/
def writtenRule (require : PyDict) : PyDict := [(.str "name", .str "r"), (.str "require", .dict require)]

def readRule (require : PyDict) : Rule := ⟨"r", [], require, .str "deny"⟩

theorem writtenRule_checked {require : PyDict} (h : ∀ e ∈ require, e = tierEntry ∨ e = ageEntry) :
    RuleChecked epochClock.toStdlib chunkDomainRoots (writtenRule require) (readRule require) where
  name := rfl
  name_ne := by simp [readRule]
  keys := by simp [KeysWithin, keysOf, ruleKeys, writtenRule]
  when := rfl
  when_flat := by simp [Flat, readRule, keysOf]
  when_entries := by simp [readRule]
  require := by
    change pyOr (.dict require) (.dict []) = .dict require
    cases require <;> rfl
  require_flat := by
    intro k hk s hs heq
    obtain ⟨e, he, rfl⟩ := List.mem_map.mp hk
    rcases h e he with rfl | rfl
    · exact absurd (PyAtom.str.inj heq ▸ hs) (by decide)
    · exact absurd (PyAtom.str.inj heq ▸ hs) (by decide)
  require_entries := by
    intro e he
    rcases h e he with rfl | rfl
    · exact ⟨by rintro s ⟨⟩ -; decide, fun m hm => by cases hm⟩
    · exact ⟨by rintro s ⟨⟩ -; decide, ageEntry_mapping⟩
  require_places := by
    intro e he d _ v _
    rcases h e he with rfl | rfl <;> rfl
  onViolation := rfl
  deny := rfl

/-- A policy of one rule for each of these lists of constraints. -/
def agedBundle (rules : List PyDict) : PyDict :=
  [(.str "version", .int 1), (.str "policy_id", .str "aged"),
    (.str "rules", .list (rules.map fun require => .dict (writtenRule require)))]

def agedEvaluator (rules : List PyDict) : NativeYaml :=
  ⟨"policy.yaml", agedBundle rules, rules.map readRule, ⟨"deny", "deny"⟩, "aged",
    "sha256:" ++ hexdigest (List.replicate 32 0)⟩

theorem agedBundle_checked {rules : List PyDict}
    (h : ∀ require ∈ rules, ∀ e ∈ require, e = tierEntry ∨ e = ageEntry)
    (hj : jsonable (.dict (agedBundle rules)) = true) :
    InitChecked epochClock.toStdlib chunkDomainRoots (agedBundle rules) "policy.yaml"
      (agedEvaluator rules) where
  bundle := rfl
  origin := rfl
  version := rfl
  rules := by
    refine ⟨_, rfl, ?_⟩
    unfold RulesChecked
    rw [agedEvaluator, List.forall₂_map_left_iff, List.forall₂_map_right_iff, List.forall₂_same]
    exact fun require hr => ⟨_, rfl, writtenRule_checked (h require hr)⟩
  defaults := rfl
  policyId := rfl
  policyId_ne := by simp [agedEvaluator]
  hash := by
    obtain ⟨b, hb⟩ := (canonicalBytes_ok epochClock.toStdlib).mpr hj
    rw [computePolicyVersionHash, hb]
    rfl

end Sample

end Provenex
