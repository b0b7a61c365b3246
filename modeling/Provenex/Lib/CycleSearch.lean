import Mathlib.Data.List.Basic
import Mathlib.Logic.Function.Basic
import Mathlib.Logic.Relation
import Mathlib.Tactic

/-! A three-colour depth-first search for a cycle, with an explicit stack of
suspended iterators. The graph is a list of nodes with their successors; nodes
are told apart by a key, and successors that are not nodes are passed over. -/

namespace CycleSearch

inductive Color
  | white
  | gray
  | black
  deriving DecidableEq

open Relation Function

section

variable {α κ : Type} [DecidableEq κ] (key : α → κ) (graph : List (α × List α))

/-- The successors of a node; none for what is no node. -/
def successors (k : κ) : Option (List α) :=
  (graph.find? fun e => key e.1 = k).map Prod.snd

/-- An edge between two nodes. -/
def Edge (k l : κ) : Prop :=
  (successors key graph l).isSome ∧ ∃ ps ∈ successors key graph k, ∃ p ∈ ps, key p = l

/-! ## The search -/

/-- What the white nodes still cost. -/
def weight (color : κ → Color) : ℕ :=
  (graph.map fun e => if color (key e.1) = .white then e.2.length + 2 else 0).sum

/-- What the suspended iterators still cost. -/
def pending (stack : List (α × List α)) : ℕ := (stack.map fun e => e.2.length + 1).sum

variable {key graph}

omit [DecidableEq κ] in
theorem weight_mono {color color' : κ → Color} (h : ∀ k, color' k = .white → color k = .white) :
    weight key graph color' ≤ weight key graph color := by
  refine List.sum_le_sum fun e _ => ?_
  split_ifs with h' hc
  · exact le_rfl
  · exact absurd (h _ h') hc
  · exact Nat.zero_le _
  · exact le_rfl

theorem weight_gray {color : κ → Color} {k : κ} {ps : List α}
    (hk : successors key graph k = some ps) (hc : color k = .white) :
    weight key graph (update color k .gray) + (ps.length + 2) ≤ weight key graph color := by
  have hmono : ∀ l, update color k .gray l = .white → color l = .white := by
    intro l
    rw [update_apply]
    split_ifs <;> simp
  induction graph with
  | nil => cases hk
  | cons e rest ih =>
    simp only [successors, List.find?_cons] at hk
    have hrest : weight key rest (update color k .gray) ≤ weight key rest color := weight_mono hmono
    simp only [weight, List.map_cons, List.sum_cons] at hrest ⊢
    by_cases he : key e.1 = k
    · obtain rfl : e.2 = ps := by simpa [he] using hk
      simp only [he, hc, update_self, reduceCtorEq, if_false, if_true]
      omega
    · have hih := ih (by simpa [he, successors] using hk)
      simp only [weight] at hih
      rw [update_of_ne he]
      omega

variable (key graph)

/-- The loop: the cycle's node, or the colours at its end. -/
def visit (color : κ → Color) (stack : List (α × List α)) : α ⊕ (κ → Color) :=
  match stack with
  | [] => .inr color
  | (node, []) :: stack => visit (update color (key node) .black) stack
  | (node, p :: ps) :: stack =>
    match _ : successors key graph (key p), _ : color (key p) with
    | none, _ => visit color ((node, ps) :: stack)
    | some _, .gray => .inl p
    | some qs, .white => visit (update color (key p) .gray) ((p, qs) :: (node, ps) :: stack)
    | some _, .black => visit color ((node, ps) :: stack)
  termination_by weight key graph color + pending stack
  decreasing_by
    · have : weight key graph (update color (key node) .black) ≤ weight key graph color := by
        refine weight_mono fun l => ?_
        rw [update_apply]
        split_ifs <;> simp
      simp only [pending, List.map_cons, List.sum_cons, List.length_nil]
      omega
    · simp only [pending, List.map_cons, List.sum_cons, List.length_cons]
      omega
    · have := weight_gray ‹successors key graph (key p) = some qs› ‹color (key p) = .white›
      simp only [pending, List.map_cons, List.sum_cons, List.length_cons]
      omega
    · simp only [pending, List.map_cons, List.sum_cons, List.length_cons]
      omega

section

variable {key graph} {color : κ → Color} {node p : α} {ps qs : List α} {stack : List (α × List α)}

theorem visit_nil : visit key graph color [] = .inr color := by rw [visit]

theorem visit_pop : visit key graph color ((node, []) :: stack) =
    visit key graph (update color (key node) .black) stack := by rw [visit]

theorem visit_outside (h : successors key graph (key p) = none) :
    visit key graph color ((node, p :: ps) :: stack) = visit key graph color ((node, ps) :: stack) := by
  rw [visit]
  split <;> simp_all

theorem visit_gray (h : successors key graph (key p) = some qs) (hc : color (key p) = .gray) :
    visit key graph color ((node, p :: ps) :: stack) = .inl p := by
  rw [visit]
  split <;> simp_all

theorem visit_white (h : successors key graph (key p) = some qs) (hc : color (key p) = .white) :
    visit key graph color ((node, p :: ps) :: stack) =
      visit key graph (update color (key p) .gray) ((p, qs) :: (node, ps) :: stack) := by
  rw [visit]
  split <;> simp_all

theorem visit_black (h : successors key graph (key p) = some qs) (hc : color (key p) = .black) :
    visit key graph color ((node, p :: ps) :: stack) = visit key graph color ((node, ps) :: stack) := by
  rw [visit]
  split <;> simp_all

end

/-- The search from each start that is still white. -/
def search (color : κ → Color) : List α → Option α
  | [] => none
  | start :: rest =>
    if color (key start) ≠ .white then search color rest
    else
      match visit key graph (update color (key start) .gray)
        [(start, (successors key graph (key start)).getD [])] with
      | .inl p => some p
      | .inr color => search color rest

/-- A node on a cycle. -/
def findCycle : Option α := search key graph (fun _ => .white) (graph.map Prod.fst)

/-! ## What the search keeps -/

/-- The iterators below a node: each has yielded the node above it, and before that only nodes that
are black by now. -/
def Suspended (color : κ → Color) : Option κ → List (α × List α) → Prop
  | _, [] => True
  | above, (node, rest) :: stack =>
    (∃ ps ∈ successors key graph (key node), rest ⊆ ps ∧
      ∀ p ∈ ps, (successors key graph (key p)).isSome →
        p ∈ rest ∨ color (key p) = .black ∨ above = some (key p)) ∧
    (∀ k ∈ above, Edge key graph (key node) k) ∧ Suspended color (some (key node)) stack

/-- The stack holds the gray nodes, and no cycle meets the black ones. -/
structure Inv (color : κ → Color) (stack : List (α × List α)) : Prop where
  gray : ∀ k, color k = .gray ↔ k ∈ stack.map fun e => key e.1
  nodup : (stack.map fun e => key e.1).Nodup
  closed : ∀ k, color k = .black → ∀ l, Edge key graph k l → color l = .black
  acyclic : ∀ k, color k = .black → ¬ TransGen (Edge key graph) k k
  suspended : Suspended key graph color none stack

variable {key graph} {color color' : κ → Color} {stack : List (α × List α)}

/-! ## Colouring a node -/

theorem update_gray {c k : κ} : update color c .gray k = .gray ↔ k = c ∨ color k = .gray := by
  rw [update_apply]
  split_ifs with heq
  · simp [heq]
  · simp [heq]

/-- A node that was white is not black when it is gray. -/
theorem update_gray_black {c : κ} (hwhite : color c = .white) (k : κ) :
    update color c .gray k = .black ↔ color k = .black := by
  rw [update_apply]
  split_ifs with heq
  · simp [heq, hwhite]
  · rfl

/-- What has been met stays so. -/
theorem update_met {c k : κ} {v : Color} (hv : v ≠ .white) (hk : color k ≠ .white) :
    update color c v k ≠ .white := by
  rw [update_apply]
  split_ifs
  · exact hv
  · exact hk

/-! ## The stack -/

theorem Suspended.mono {above : Option κ} (h : Suspended key graph color above stack)
    (hblack : ∀ k, color k = .black → color' k = .black) :
    Suspended key graph color' above stack := by
  induction stack generalizing above with
  | nil => trivial
  | cons e stack ih =>
    obtain ⟨⟨ps, hps, hsub, hdone⟩, hedge, hrest⟩ := h
    refine ⟨⟨ps, hps, hsub, fun p hp hsome => ?_⟩, hedge, ih hrest⟩
    exact (hdone p hp hsome).imp_right (Or.imp_left (hblack _))

/-- Once the node above is black, the iterator goes on. -/
theorem Suspended.resume {k : κ} (h : Suspended key graph color (some k) stack)
    (hk : color k = .black) : Suspended key graph color none stack := by
  cases stack with
  | nil => trivial
  | cons e stack =>
    obtain ⟨⟨ps, hps, hsub, hdone⟩, -, hrest⟩ := h
    refine ⟨⟨ps, hps, hsub, fun p hp hsome => ?_⟩, by simp, hrest⟩
    obtain hin | hblack | habove := hdone p hp hsome
    · exact .inl hin
    · exact .inr (.inl hblack)
    · exact .inr (.inl (Option.some.inj habove ▸ hk))

/-- Every node on the stack leads to the one on top. -/
theorem Suspended.reaches {above : Option κ} {node : α} {rest : List α}
    (h : Suspended key graph color above ((node, rest) :: stack)) :
    ∀ k ∈ ((node, rest) :: stack).map (fun e => key e.1),
      ReflTransGen (Edge key graph) k (key node) := by
  induction stack generalizing above node rest with
  | nil =>
    intro k hk
    rw [List.mem_singleton.mp hk]
  | cons e stack ih =>
    obtain ⟨-, -, hbelow⟩ := h
    intro k hk
    obtain rfl | hk := List.mem_cons.mp hk
    · exact .refl
    · exact (ih hbelow k hk).tail (hbelow.2.1 _ rfl)

/-- The top iterator passes over a successor. -/
theorem Inv.skip {node p : α} {ps : List α} (h : Inv key graph color ((node, p :: ps) :: stack))
    (hp : (successors key graph (key p)).isSome → color (key p) = .black) :
    Inv key graph color ((node, ps) :: stack) := by
  obtain ⟨⟨qs, hqs, hsub, hdone⟩, hedge, hrest⟩ := h.suspended
  refine ⟨h.gray, h.nodup, h.closed, h.acyclic, ⟨qs, hqs, ?_, fun q hq hsome => ?_⟩, hedge, hrest⟩
  · exact fun q hq => hsub (List.mem_cons_of_mem p hq)
  · obtain hin | hother := hdone q hq hsome
    · obtain rfl | hin := List.mem_cons.mp hin
      · exact .inr (.inl (hp hsome))
      · exact .inl hin
    · exact .inr hother

/-- The top iterator is at its end. -/
theorem Inv.pop {node : α} (h : Inv key graph color ((node, []) :: stack)) :
    Inv key graph (update color (key node) .black) stack := by
  obtain ⟨⟨ps, hps, -, hdone⟩, -, hrest⟩ := h.suspended
  have hgray : color (key node) = .gray := (h.gray _).mpr (by simp)
  have hnotin : key node ∉ stack.map fun e => key e.1 := (List.nodup_cons.mp h.nodup).1
  have hgrown (k : κ) (hk : color k = .black) : update color (key node) .black k = .black := by
    rw [update_apply]
    split_ifs
    · rfl
    · exact hk
  -- all that the node leads to is black already, and does not lead back
  have hnext (l : κ) (hl : Edge key graph (key node) l) : color l = .black := by
    obtain ⟨hsome, qs, hqs, p, hp, rfl⟩ := hl
    obtain rfl := Option.some.inj (hps.symm.trans hqs)
    simpa using hdone p hp hsome
  have hblack (k l : κ) (hk : color k = .black) (hl : ReflTransGen (Edge key graph) k l) :
      color l = .black := by
    induction hl with
    | refl => exact hk
    | tail _ hedge ih => exact h.closed _ ih _ hedge
  constructor
  · intro k
    have hk := h.gray k
    rw [List.map_cons, List.mem_cons] at hk
    rw [update_apply]
    split_ifs with heq
    · simp [heq, hnotin]
    · simpa [heq] using hk
  · exact (List.nodup_cons.mp h.nodup).2
  · intro k hk l hl
    rw [update_apply] at hk
    split_ifs at hk with heq
    · exact hgrown l (hnext l (heq ▸ hl))
    · exact hgrown l (h.closed k hk l hl)
  · intro k hk hcycle
    rw [update_apply] at hk
    split_ifs at hk with heq
    · subst heq
      obtain ⟨l, hl, hback⟩ := TransGen.head'_iff.mp hcycle
      rw [hblack l _ (hnext l hl) hback] at hgray
      cases hgray
    · exact h.acyclic k hk hcycle
  · exact (hrest.mono hgrown).resume (update_self ..)

/-- A white successor goes on the stack. -/
theorem Inv.push {node p : α} {ps qs : List α}
    (h : Inv key graph color ((node, p :: ps) :: stack))
    (hqs : successors key graph (key p) = some qs) (hwhite : color (key p) = .white) :
    Inv key graph (update color (key p) .gray) ((p, qs) :: (node, ps) :: stack) := by
  obtain ⟨⟨rs, hrs, hsub, hdone⟩, hedge, hrest⟩ := h.suspended
  have hsome : (successors key graph (key p)).isSome := by rw [hqs, Option.isSome_some]
  have hp : p ∈ rs := hsub List.mem_cons_self
  have hgrown := update_gray_black hwhite
  constructor
  · intro k
    rw [update_gray, h.gray k]
    simp
  · refine List.nodup_cons.mpr ⟨fun hin => ?_, h.nodup⟩
    rw [(h.gray (key p)).mpr hin] at hwhite
    cases hwhite
  · intro k hk l hl
    exact (hgrown l).mpr (h.closed k ((hgrown k).mp hk) l hl)
  · exact fun k hk => h.acyclic k ((hgrown k).mp hk)
  · refine ⟨⟨qs, hqs, List.Subset.refl _, fun q hq _ => .inl hq⟩, by simp, ?_, ?_,
      hrest.mono fun k => (hgrown k).mpr⟩
    · refine ⟨rs, hrs, fun q hq => hsub (List.mem_cons_of_mem p hq), fun q hq hq' => ?_⟩
      obtain hin | hblack | habove := hdone q hq hq'
      · obtain rfl | hin := List.mem_cons.mp hin
        · exact .inr (.inr rfl)
        · exact .inl hin
      · exact .inr (.inl ((hgrown _).mpr hblack))
      · cases habove
    · rintro k ⟨⟩
      exact ⟨hsome, rs, hrs, p, hp, rfl⟩

/-! ## What the search finds -/

/-- The loop ends at a node on a cycle, or with every node it has met black. -/
theorem visit_spec (h : Inv key graph color stack) :
    (∀ p, visit key graph color stack = .inl p →
      TransGen (Edge key graph) (key p) (key p)) ∧
    ∀ color', visit key graph color stack = .inr color' →
      Inv key graph color' [] ∧ ∀ k, color k ≠ .white → color' k = .black := by
  induction color, stack using visit.induct key graph with
  | case1 color =>
    rw [visit_nil]
    refine ⟨by simp, fun color' heq => ?_⟩
    obtain rfl := Sum.inr.inj heq
    refine ⟨h, fun k hk => ?_⟩
    have hgray := h.gray k
    cases hc : color k <;> simp_all
  | case2 color node stack ih =>
    rw [visit_pop]
    obtain ⟨hcycle, hdone⟩ := ih h.pop
    refine ⟨hcycle, fun color' heq => ⟨(hdone color' heq).1, fun k hk => ?_⟩⟩
    exact (hdone color' heq).2 k (update_met (by decide) hk)
  | case3 color node p ps stack hnone ih =>
    rw [visit_outside hnone]
    exact ih (h.skip (by simp [hnone]))
  | case4 color node p ps stack qs hqs hgray =>
    rw [visit_gray hqs hgray]
    refine ⟨fun q hq => ?_, by simp⟩
    obtain rfl := Sum.inl.inj hq
    obtain ⟨⟨rs, hrs, hsub, -⟩, -, -⟩ := h.suspended
    have hedge : Edge key graph (key node) (key p) :=
      ⟨by rw [hqs, Option.isSome_some], rs, hrs, p, hsub List.mem_cons_self, rfl⟩
    exact .tail' (h.suspended.reaches _ ((h.gray _).mp hgray)) hedge
  | case5 color node p ps stack qs hqs hwhite ih =>
    rw [visit_white hqs hwhite]
    obtain ⟨hcycle, hdone⟩ := ih (h.push hqs hwhite)
    refine ⟨hcycle, fun color' heq => ⟨(hdone color' heq).1, fun k hk => ?_⟩⟩
    exact (hdone color' heq).2 k (update_met (by decide) hk)
  | case6 color node p ps stack qs hqs hblack ih =>
    rw [visit_black hqs hblack]
    exact ih (h.skip fun _ => hblack)

theorem Inv.start {start : α} {ps : List α} (h : Inv key graph color [])
    (hps : successors key graph (key start) = some ps) (hwhite : color (key start) = .white) :
    Inv key graph (update color (key start) .gray) [(start, ps)] := by
  have hgrown := update_gray_black hwhite
  constructor
  · intro k
    rw [update_gray, h.gray k]
    simp
  · simp
  · exact fun k hk l hl => (hgrown l).mpr (h.closed k ((hgrown k).mp hk) l hl)
  · exact fun k hk => h.acyclic k ((hgrown k).mp hk)
  · exact ⟨⟨ps, hps, List.Subset.refl _, fun q hq _ => .inl hq⟩, by simp, trivial⟩

theorem search_spec {starts : List α}
    (hstarts : ∀ a ∈ starts, (successors key graph (key a)).isSome) (h : Inv key graph color []) :
    (∀ p, search key graph color starts = some p → TransGen (Edge key graph) (key p) (key p)) ∧
    (search key graph color starts = none → ∃ color', Inv key graph color' [] ∧
      (∀ k, color k = .black → color' k = .black) ∧ ∀ a ∈ starts, color' (key a) = .black) := by
  induction starts generalizing color with
  | nil => exact ⟨by simp [search], fun _ => ⟨color, h, fun _ hk => hk, by simp⟩⟩
  | cons start rest ih =>
    have hrest : ∀ a ∈ rest, (successors key graph (key a)).isSome :=
      fun a ha => hstarts a (List.mem_cons_of_mem _ ha)
    obtain ⟨ps, hps⟩ := Option.isSome_iff_exists.mp (hstarts start List.mem_cons_self)
    rw [search]
    split_ifs with hwhite
    · have hblack : color (key start) = .black := by
        have hgray := h.gray (key start)
        cases hc : color (key start) <;> simp_all
      obtain ⟨hcycle, hdone⟩ := ih hrest h
      refine ⟨hcycle, fun hn => ?_⟩
      obtain ⟨color', hinv, hgrown, hall⟩ := hdone hn
      exact ⟨color', hinv, hgrown, List.forall_mem_cons.mpr ⟨hgrown _ hblack, hall⟩⟩
    · rw [hps, Option.getD_some]
      obtain ⟨hcycle, hdone⟩ := visit_spec (h.start hps (not_not.mp hwhite))
      cases hv : visit key graph (update color (key start) .gray) [(start, ps)] with
      | inl p => exact ⟨fun q hq => Option.some.inj hq ▸ hcycle p hv, by simp⟩
      | inr color₁ =>
        obtain ⟨hinv₁, hgrown₁⟩ := hdone color₁ hv
        obtain ⟨hcycle', hdone'⟩ := ih hrest hinv₁
        refine ⟨hcycle', fun hn => ?_⟩
        obtain ⟨color', hinv, hgrown, hall⟩ := hdone' hn
        refine ⟨color', hinv, fun k hk => hgrown k (hgrown₁ k ?_),
          List.forall_mem_cons.mpr ⟨hgrown _ (hgrown₁ _ (by simp)), hall⟩⟩
        exact update_met (by decide) (hk ▸ by decide)

theorem successors_isSome {k : κ} :
    (successors key graph k).isSome ↔ k ∈ graph.map fun e => key e.1 := by
  simp [successors]

/-- The search finds a node on a cycle where there is one. -/
theorem findCycle_spec :
    (∀ p, findCycle key graph = some p → TransGen (Edge key graph) (key p) (key p)) ∧
    (findCycle key graph = none ↔ ∀ k, ¬ TransGen (Edge key graph) k k) := by
  have hstarts : ∀ a ∈ graph.map Prod.fst, (successors key graph (key a)).isSome := fun a ha => by
    obtain ⟨e, he, rfl⟩ := List.mem_map.mp ha
    exact successors_isSome.mpr (List.mem_map.mpr ⟨e, he, rfl⟩)
  have hinit : Inv key graph (fun _ => .white) [] :=
    ⟨by simp, by simp, by simp, by simp, trivial⟩
  obtain ⟨hcycle, hdone⟩ := search_spec hstarts hinit
  refine ⟨hcycle, fun hn k hk => ?_, fun hacyclic => ?_⟩
  · obtain ⟨color, hinv, -, hall⟩ := hdone hn
    obtain ⟨l, ⟨-, ps, hps, -⟩, -⟩ := TransGen.head'_iff.mp hk
    obtain ⟨e, he, rfl⟩ := List.mem_map.mp
      (successors_isSome.mp (Option.isSome_of_mem hps))
    exact hinv.acyclic _ (hall e.1 (List.mem_map_of_mem he)) hk
  · cases hf : findCycle key graph with
    | none => rfl
    | some p => exact absurd (hcycle p hf) (hacyclic _)

end

/-- Edges that lead down a ranking close no cycle. -/
theorem acyclic_of_rank {κ : Type} {r : κ → κ → Prop} (rank : κ → ℕ)
    (h : ∀ k l, r k l → rank l < rank k) (k : κ) : ¬ TransGen r k k := by
  have hdown (k l : κ) (hkl : TransGen r k l) : rank l < rank k := by
    induction hkl with
    | single hkl => exact h _ _ hkl
    | tail _ hlm ih => exact (h _ _ hlm).trans ih
  exact fun hk => (hdown k k hk).false

/-- Where no cycle is, some member of a list has no edge to a member. -/
theorem exists_sink {κ : Type} {r : κ → κ → Prop} {nodes : List κ} (hne : nodes ≠ [])
    (h : ∀ k, ¬ TransGen r k k) : ∃ k ∈ nodes, ∀ l ∈ nodes, ¬ r k l := by
  let below : {k // k ∈ nodes} → {k // k ∈ nodes} → Prop := fun k l => TransGen r l k
  have htrans : IsTrans _ below := ⟨fun _ _ _ hab hbc => hbc.trans hab⟩
  have hirrefl : Std.Irrefl below := ⟨fun k => h k⟩
  have hfinite : Finite {k // k ∈ nodes} := (List.finite_toSet nodes).to_subtype
  obtain ⟨a, rest, rfl⟩ := List.exists_cons_of_ne_nil hne
  obtain ⟨k, -, hmin⟩ := (Finite.wellFounded_of_trans_of_irrefl below).has_min Set.univ
    ⟨⟨a, List.mem_cons_self⟩, trivial⟩
  exact ⟨k, k.2, fun l hl hkl => hmin ⟨l, hl⟩ trivial (.single hkl)⟩

end CycleSearch
