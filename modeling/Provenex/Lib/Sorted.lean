import Mathlib.Tactic

/-! Insertion sort by a relation that orders the items of one list, and need not
order others. Where two such relations sort the list alike. -/

namespace Sorted

variable {α : Type}

/-- The items of a list can be ordered among themselves. -/
structure Ordered (r : α → α → Prop) (l : List α) : Prop where
  total : ∀ a ∈ l, ∀ b ∈ l, r a b ∨ r b a
  trans : ∀ a ∈ l, ∀ b ∈ l, ∀ c ∈ l, r a b → r b c → r a c
  antisymm : ∀ a ∈ l, ∀ b ∈ l, r a b → r b a → a = b

variable {r s : α → α → Prop} [DecidableRel r] [DecidableRel s] {l : List α}

theorem Ordered.pairwise (h : Ordered r l) : (l.insertionSort r).Pairwise r := by
  let q : {a // a ∈ l} → {a // a ∈ l} → Prop := fun a b => r a b
  have : DecidableRel q := fun a b => inferInstanceAs (Decidable (r a b))
  have : Std.Total q := ⟨fun a b => h.total a a.2 b b.2⟩
  have : IsTrans _ q := ⟨fun a b c => h.trans a a.2 b b.2 c c.2⟩
  have hmap : (l.attach.insertionSort q).map Subtype.val = l.insertionSort r := by
    rw [List.map_insertionSort q r Subtype.val l.attach fun _ _ _ _ => Iff.rfl,
      List.attach_map_subtype_val]
  rw [← hmap, List.pairwise_map]
  exact List.pairwise_insertionSort q l.attach

/-- Two orders sort a list alike only where they agree on it. -/
theorem insertionSort_eq_iff (hr : Ordered r l) (hs : Ordered s l) :
    l.insertionSort r = l.insertionSort s ↔ ∀ a ∈ l, ∀ b ∈ l, r a b → s a b := by
  have hperm := List.perm_insertionSort r l
  constructor
  · intro heq
    have hrefl : ∀ a ∈ l.insertionSort r, s a a := fun a ha =>
      (hs.total a (hperm.mem_iff.mp ha) a (hperm.mem_iff.mp ha)).elim id id
    have hsorted : (l.insertionSort r).Pairwise s := heq ▸ hs.pairwise
    have hleft : (l.insertionSort r).Pairwise fun a b => r a b → s a b := by
      refine hsorted.imp ?_
      intro a b hab _
      exact hab
    -- of two items the later one is below the earlier only where they are equal
    have hright : (l.insertionSort r).Pairwise (flip fun a b => r a b → s a b) := by
      refine hr.pairwise.imp_of_mem fun {a b} ha hb hab hba => ?_
      obtain rfl := hr.antisymm a (hperm.mem_iff.mp ha) b (hperm.mem_iff.mp hb) hab hba
      exact hrefl a ha
    intro a ha b hb
    exact List.Pairwise.forall_of_forall_of_flip (fun a ha _ => hrefl a ha) hleft hright
      (hperm.mem_iff.mpr ha) (hperm.mem_iff.mpr hb)
  · intro hle
    have hsorted : (l.insertionSort r).Pairwise s := by
      refine hr.pairwise.imp_of_mem fun ha hb => ?_
      exact hle _ (hperm.mem_iff.mp ha) _ (hperm.mem_iff.mp hb)
    refine List.Perm.eq_of_pairwise ?_ hsorted hs.pairwise
      (hperm.trans (List.perm_insertionSort s l).symm)
    intro a b ha hb
    exact hs.antisymm a (hperm.mem_iff.mp ha) b ((List.perm_insertionSort s l).mem_iff.mp hb)

end Sorted
