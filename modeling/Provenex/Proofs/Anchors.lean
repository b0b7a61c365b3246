import Provenex.Proofs.Admission

/-! The hash that a memory write or an inference call is anchored by, among parameters
that the caller's own are merged into. -/

namespace Provenex

open Guard

/-- The caller's parameters do not set the item to anything else. -/
def Leaves (extraParameters : Option PyDict) (k : String) (v : PyVal) : Prop :=
  ∀ w, getKey (extraParameters.getD []) k = some w → w = v

/-- Of several writes to a key the last counts, and a mapping has each key once. -/
theorem getKey_updateDict {d e : PyDict} (hn : (keysOf e).Nodup) (k : String) :
    getKey (updateDict d e) k = (getKey e k).or (getKey d k) := by
  induction e generalizing d with
  | nil => rfl
  | cons p rest ih =>
    obtain ⟨hnot, hrest⟩ := List.nodup_cons.mp hn
    change getKey (updateDict (setItem d p.1 p.2) rest) k = _
    rw [ih hrest]
    obtain ⟨key, v⟩ := p
    by_cases hk : key = .str k
    · subst hk
      have hnone : getKey rest k = none := by
        rw [getKey, dictGet, Option.map_eq_none_iff, List.find?_eq_none]
        intro q hq heq
        exact hnot (List.mem_map.mpr ⟨q, hq, PyAtom.eq_str.mp heq⟩)
      rw [hnone, getKey_setItem_self, getKey_cons, if_pos rfl]
      rfl
    · rw [getKey_setItem_ne hk]
      have hskip : getKey ((key, v) :: rest) k = getKey rest k := by
        rw [getKey, dictGet_cons, if_neg fun h => hk (PyAtom.eq_str.mp h)]
        rfl
      rw [hskip]

theorem updateDict_item {d e : PyDict} (hn : (keysOf e).Nodup) {k : String} {v : PyVal}
    (hd : getKey d k = some v) :
    getKey (updateDict d e) k = some v ↔ Leaves (some e) k v := by
  rw [getKey_updateDict hn, hd, Leaves, Option.getD_some]
  cases getKey e k with
  | none => simp
  | some w => simp

section

variable {py : Stdlib} {hashKey valueKey : String} {value : HashedValue} {items : PyDict}
  {redact : Bool} {extraParameters : Option PyDict} {parameters : PyDict}

/-- The hash, or an item beside it, is a parameter exactly where the caller leaves it. -/
theorem anchoredParameters_iff (hn : (keysOf (extraParameters.getD [])).Nodup)
    (h : anchoredParameters py hashKey valueKey value items redact extraParameters = .ok parameters) :
    ∃ hash, computeValueHash py value = .ok hash ∧
      (getKey parameters hashKey = some (.str hash) ↔ Leaves extraParameters hashKey (.str hash)) ∧
      ∀ k v, k ≠ hashKey → getKey items k = some v →
        (getKey parameters k = some v ↔ Leaves extraParameters k v) := by
  obtain ⟨hash, hhash, h⟩ := bind_ok.mp h
  obtain ⟨verbatim, -, h⟩ := bind_ok.mp h
  obtain rfl := Except.ok.inj h
  refine ⟨hash, hhash, updateDict_item hn ?_, fun k v hk hitem => updateDict_item hn ?_⟩
  · rw [getKey_cons, if_pos rfl]
  · rw [getKey_cons, if_neg hk.symm, getKey_append, hitem, Option.some_or]

end

/-- A memory write, or an inference call, has its policy asked about parameters with the hash of the
value, and with the store and the time to live that were passed, and has them recorded, exactly where
the caller's own parameters leave these keys. -/
theorem anchored_iff (py : Stdlib) (value : HashedValue) (request : RequestContext)
    (extraParameters : Option PyDict) (hn : (keysOf (extraParameters.getD [])).Nodup) (redact : Bool)
    (stepKind : Option (Option String)) (args : AdmissionArgs) (issue : Issue)
    (result : AdmissionResult) :
    (∀ memoryKey storeId ttl, admitMemoryWrite py memoryKey value request storeId ttl extraParameters
        redact stepKind args issue = .ok result →
      ∃ parameters hash, anchoredParameters py "value_hash" "value" value
          (optionalItem "store_id" storeId ++ optionalItem "ttl" ttl) redact extraParameters =
            .ok parameters ∧
        Evaluated py args.policy ⟨.str "memory.write", memoryKey, parameters, storeId, .none⟩ request
          args.redactParameters args.redactInputs result.decision result.receipt ∧
        computeValueHash py value = .ok hash ∧
        (getKey parameters "value_hash" = some (.str hash) ↔
          Leaves extraParameters "value_hash" (.str hash)) ∧
        (storeId ≠ .none → (getKey parameters "store_id" = some storeId ↔
          Leaves extraParameters "store_id" storeId)) ∧
        (ttl ≠ .none → (getKey parameters "ttl" = some ttl ↔ Leaves extraParameters "ttl" ttl))) ∧
      ∀ modelName targetProvider operation, admitModelInference py modelName value request
          targetProvider operation extraParameters redact stepKind args issue = .ok result →
        ∃ parameters hash, anchoredParameters py "prompt_hash" "prompt" value [] redact
            extraParameters = .ok parameters ∧
          Evaluated py args.policy ⟨modelName, operation, parameters, targetProvider, .none⟩ request
            args.redactParameters args.redactInputs result.decision result.receipt ∧
          computeValueHash py value = .ok hash ∧
          (getKey parameters "prompt_hash" = some (.str hash) ↔
            Leaves extraParameters "prompt_hash" (.str hash)) := by
  refine ⟨fun memoryKey storeId ttl h => ?_, fun modelName targetProvider operation h => ?_⟩
  · obtain ⟨parameters, hparameters, h⟩ := bind_ok.mp h
    obtain ⟨hash, hhash, hvalue, hitem⟩ := anchoredParameters_iff hn hparameters
    have hevaluated := admissionCheck_evaluated h
    refine ⟨parameters, hash, hparameters, hevaluated, hhash, hvalue, fun hstore => ?_, fun httl => ?_⟩
    · refine hitem "store_id" storeId (by decide) ?_
      rw [getKey_append, getKey_optional hstore, Option.some_or]
    · refine hitem "ttl" ttl (by decide) ?_
      rw [getKey_append, getKey_optionalItem (by decide), Option.none_or, getKey_optional httl]
  · obtain ⟨parameters, hparameters, h⟩ := bind_ok.mp h
    obtain ⟨hash, hhash, hvalue, -⟩ := anchoredParameters_iff hn hparameters
    have hevaluated := admissionCheck_evaluated h
    exact ⟨parameters, hash, hparameters, hevaluated, hhash, hvalue⟩

namespace Sample

def writeArgs : AdmissionArgs :=
  ⟨.policy ⟨.default, none, none⟩, none, none, none, none, "", false, false, none⟩

/-- A write under these further parameters. -/
def memoryWrite (extraParameters : Option PyDict) : Except PyErr AdmissionResult :=
  admitMemoryWrite Stdlib.blank (.str "profile") (.data (.str "v")) anyone (.str "redis") (.int 60)
    extraParameters true none writeArgs ⟨"r", "now"⟩

end Sample

theorem anchored_sample :
    ∃ result parameters hash, Sample.memoryWrite (some [(.str "tag", .str "x")]) = .ok result ∧
      Evaluated Stdlib.blank Sample.writeArgs.policy
        ⟨.str "memory.write", .str "profile", parameters, .str "redis", .none⟩ Sample.anyone false
        false result.decision result.receipt ∧
      computeValueHash Stdlib.blank (.data (.str "v")) = .ok hash ∧
      getKey parameters "value_hash" = some (.str hash) ∧
      getKey parameters "store_id" = some (.str "redis") ∧
      getKey parameters "ttl" = some (.int 60) := by
  have hrun : Sample.memoryWrite (some [(.str "tag", .str "x")]) = .ok _ := rfl
  obtain ⟨hmemory, -⟩ := anchored_iff Stdlib.blank (.data (.str "v")) Sample.anyone
    (some [(.str "tag", .str "x")]) (by decide) true none Sample.writeArgs ⟨"r", "now"⟩ _
  obtain ⟨parameters, hash, -, hevaluated, hhash, hvalue, hstore, httl⟩ :=
    hmemory (.str "profile") (.str "redis") (.int 60) hrun
  have hleaves {k : String} (hk : k ≠ "tag") (v : PyVal) :
      Leaves (some [(.str "tag", .str "x")]) k v := by
    intro w hw
    rw [Option.getD_some, getKey_cons, if_neg hk.symm] at hw
    exact absurd hw (by simp [getKey_nil])
  exact ⟨_, parameters, hash, hrun, hevaluated, hhash, hvalue.mpr (hleaves (by decide) _),
    (hstore (by simp)).mpr (hleaves (by decide) _), (httl (by simp)).mpr (hleaves (by decide) _)⟩

/-- A caller's parameter replaces the hash on the receipt. -/
theorem anchor_displaced :
    ∃ result a hash, Sample.memoryWrite (some [(.str "value_hash", .str "forged")]) = .ok result ∧
      result.receipt.actions = [a] ∧
      (a.parameters.bind fun d => getKey d "value_hash") = some (.str "forged") ∧
      computeValueHash Stdlib.blank (.data (.str "v")) = .ok hash ∧ hash ≠ "forged" :=
  ⟨_, _, _, rfl, rfl, rfl, rfl, by decide⟩

end Provenex
