import Provenex.Core.Receipt
import Provenex.Proofs.KeyOrder

/-! What a lookup reads back: of a mapping that was written to, and of the mapping that a
receipt serialises to. -/

namespace Provenex

/-! ## Writing to a mapping -/

theorem getKey_nil {V : Type} (k : String) : getKey ([] : List (PyAtom × V)) k = none := rfl

theorem getKey_map_value {d : PyDict} {f : PyAtom × PyVal → PyAtom × PyVal} (hf : ∀ e, (f e).1 = e.1)
    {k : String} : getKey (d.map f) k = (d.find? fun e => e.1.eq (.str k)).map fun e => (f e).2 := by
  have hcomp : ((fun e : PyAtom × PyVal => e.1.eq (.str k)) ∘ f) = fun e => e.1.eq (.str k) := by
    funext e
    simp [hf]
  rw [getKey, dictGet, List.find?_map, hcomp, Option.map_map]
  rfl

theorem getKey_setItem_ne {d : PyDict} {k : PyAtom} {v : PyVal} {l : String} (h : k ≠ .str l) :
    getKey (setItem d k v) l = getKey d l := by
  unfold setItem
  split_ifs
  · rw [getKey_map_value fun e => by split_ifs <;> rfl, getKey, dictGet]
    refine Option.map_congr fun e he => ?_
    have hl : e.1 = .str l := PyAtom.eq_str.mp (List.find?_some (p := fun e : PyAtom × PyVal =>
      e.1.eq (.str l)) he)
    have hne : ¬ e.1.eq k = true := by
      rw [hl, PyAtom.str_eq]
      exact h
    rw [if_neg hne]
  · rw [getKey_append]
    have hnone : getKey [(k, v)] l = none := by
      rw [getKey, dictGet_cons, if_neg fun hk => h (PyAtom.eq_str.mp hk)]
      rfl
    rw [hnone, Option.or_none]

theorem getKey_setItem_self {d : PyDict} {k : String} {v : PyVal} :
    getKey (setItem d (.str k) v) k = some v := by
  unfold setItem
  split_ifs with h
  · rw [getKey_map_value fun e => by split_ifs <;> rfl]
    obtain ⟨e, he, hek⟩ := List.any_eq_true.mp h
    obtain ⟨f, hf⟩ : ∃ f, d.find? (fun e => e.1.eq (.str k)) = some f := by
      rw [← Option.isSome_iff_exists, List.find?_isSome]
      exact ⟨e, he, hek⟩
    have hfk := List.find?_some (p := fun e : PyAtom × PyVal => e.1.eq (.str k)) hf
    rw [hf, Option.map_some, if_pos hfk]
  · rw [getKey_append]
    have hnone : getKey d k = none := by
      rw [getKey, dictGet, Option.map_eq_none_iff, List.find?_eq_none]
      exact fun e he hek => h (List.any_eq_true.mpr ⟨e, he, hek⟩)
    rw [hnone, Option.none_or, getKey_cons, if_pos rfl]

/-! ## Optional items -/

theorem getKey_optional {k : String} {v : PyVal} (h : v ≠ .none) :
    getKey (optionalItem k v) k = some v := by
  unfold optionalItem
  split
  · exact absurd rfl h
  · rw [getKey_cons, if_pos rfl]

/-- An optional item is read back with its default. -/
theorem getD_optional {k : String} {v : PyVal} : (getKey (optionalItem k v) k).getD .none = v := by
  unfold optionalItem
  split
  · rfl
  · rw [getKey_cons, if_pos rfl]
    rfl

/-! ## Receipts -/

namespace ProvenanceReceipt

variable (r : ProvenanceReceipt)

theorem get_receiptId : getKey r.toDict "receipt_id" = some (.str r.receiptId) := by
  simp [toDict, body, getKey_cons]

theorem get_issuedAt : getOrNone r.toDict "issued_at" = .str r.issuedAt := by
  simp [getOrNone, toDict, body, getKey_cons]

theorem get_issuer : getOrNone r.toDict "issuer" = .str issuer := by
  simp [getOrNone, toDict, body, getKey_cons]

theorem get_sources :
    getOrNone r.toDict "sources" = .list (r.sources.map fun s => .dict s.toDict) := by
  simp [getOrNone, toDict, body, getKey_append, getKey_cons, getKey_optionalItem]

theorem get_policy : getOrNone r.toDict "policy" = .dict r.policyBlock := by
  simp [getOrNone, toDict, body, getKey_append, getKey_cons, getKey_optionalItem]

theorem get_summary : getKey r.toDict "summary" = some (.dict r.summary) := by
  simp [toDict, body, getKey_append, getKey_cons, getKey_optionalItem]

theorem get_actions : getOrNone r.toDict "actions" =
    if r.actions.isEmpty then .none else .list (r.actions.map fun a => .dict a.toDict) := by
  by_cases hactions : r.actions = [] <;>
    simp [getOrNone, toDict, body, getKey_append, getKey_cons, getKey_optionalItem, hactions]

theorem get_trajectory : getOrNone r.toDict "trajectory" = orNull .dict r.trajectory := by
  by_cases hactions : r.actions = [] <;>
    simp [getOrNone, toDict, body, getKey_append, getKey_cons, getKey_optionalItem, hactions,
      getD_optional]

theorem get_transparencyLog :
    getOrNone r.toDict "transparency_log" = orNull .dict r.transparencyLog := by
  by_cases hactions : r.actions = [] <;>
    simp [getOrNone, toDict, body, getKey_append, getKey_cons, getKey_optionalItem, hactions,
      getD_optional]

theorem get_verification : getOrNone r.policyBlock "verification" = .dict r.policy.toDict := by
  simp [getOrNone, policyBlock, getKey_cons]

theorem get_accessControl :
    getOrNone r.policyBlock "access_control" = orNull (fun c => .dict c.toDict) r.accessControl := by
  simp [getOrNone, policyBlock, getKey_cons, getKey_append, getKey_optionalItem, getD_optional]

theorem get_toolCallControl : getOrNone r.policyBlock "tool_call_control" =
    orNull (fun c => .dict c.toDict) r.toolCallControl := by
  simp [getOrNone, policyBlock, getKey_cons, getKey_append, getKey_optionalItem, getD_optional]

end ProvenanceReceipt

end Provenex
