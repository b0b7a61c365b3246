import Provenex.Export.MultiSink
import Provenex.Proofs.Streaming

/-! `MultiSink` hides a total failure: its `publish` returns where every child
raised, so a retry queue in front of it takes the receipt for delivered. What is
lost in a run are the receipts that no child took while the fan-out was open. -/

namespace Provenex

open RetryQueueSink

section

variable {α : Type}

/-! ## What the fan-out reports -/

namespace MultiSink

/-- Every child is tried, in order, and the call raises exactly where every child raised. -/
structure ReportsFailure (s : MultiSink α) (receipt : α) : Prop where
  attempted : ∃ p, (s.publish receipt).2.trace = s.trace ++ [p] ∧ p.receipt = receipt ∧
    p.attempts.map Attempt.sink = List.range s.sinks.length ∧
    p.attempts.map Attempt.returned = s.sinks.map (· s.calls)
  raises : (s.publish receipt).1 = false ↔ ∀ sink ∈ s.sinks, sink s.calls = false

/-- Some child takes what is published at this call. -/
def Accepts (sinks : List (ℕ → Bool)) (call : ℕ) : Prop := ∃ sink ∈ sinks, sink call = true

theorem not_accepts {sinks : List (ℕ → Bool)} {call : ℕ} :
    ¬ Accepts sinks call ↔ ∀ sink ∈ sinks, sink call = false := by
  simp only [Accepts, not_exists, not_and, Bool.not_eq_true]

theorem fanOut_sinks (sinks : List (ℕ → Bool)) (call : ℕ) (receipt : α) :
    (fanOut sinks call receipt).attempts.map Attempt.sink = List.range sinks.length := by
  refine List.ext_getElem (by simp [fanOut]) fun i _ _ => ?_
  simp [fanOut]

theorem fanOut_returned (sinks : List (ℕ → Bool)) (call : ℕ) (receipt : α) :
    (fanOut sinks call receipt).attempts.map Attempt.returned = sinks.map (· call) := by
  refine List.ext_getElem (by simp [fanOut]) fun i _ _ => ?_
  simp [fanOut]

theorem fanOut_taken (sinks : List (ℕ → Bool)) (call : ℕ) (receipt : α) :
    (fanOut sinks call receipt).attempts.any Attempt.returned = true ↔ Accepts sinks call := by
  have hany : (fanOut sinks call receipt).attempts.any Attempt.returned =
      ((fanOut sinks call receipt).attempts.map Attempt.returned).any id := by
    rw [List.any_map, Function.id_comp]
  rw [hany, fanOut_returned, List.any_map, List.any_eq_true]
  rfl

theorem publish_open {s : MultiSink α} (hopen : s.closed = false) (receipt : α) :
    s.publish receipt =
      (true, { s with calls := s.calls + 1, trace := s.trace ++ [fanOut s.sinks s.calls receipt] }) :=
  if_neg (ne_true_of_eq_false hopen)

theorem publish_closed {s : MultiSink α} (hclosed : s.closed = true) (receipt : α) :
    s.publish receipt = (false, s) := if_pos hclosed

theorem reportsFailure_iff (s : MultiSink α) (receipt : α) :
    s.ReportsFailure receipt ↔ s.closed = false ∧ Accepts s.sinks s.calls := by
  constructor
  · intro h
    cases hclosed : s.closed with
    | true =>
      obtain ⟨p, htrace, -⟩ := h.attempted
      rw [publish_closed hclosed] at htrace
      exact absurd (List.self_eq_append_right.mp htrace) (List.cons_ne_nil _ _)
    | false =>
      refine ⟨rfl, ?_⟩
      by_contra hnone
      have hraised := h.raises.mpr (not_accepts.mp hnone)
      rw [publish_open hclosed] at hraised
      cases hraised
  · rintro ⟨hopen, haccepts⟩
    refine ⟨⟨fanOut s.sinks s.calls receipt, ?_, rfl, fanOut_sinks _ _ _, fanOut_returned _ _ _⟩, ?_⟩
    · rw [publish_open hopen]
    · rw [publish_open hopen, ← not_accepts]
      simp [haccepts]

end MultiSink

/-! ## A retry queue in front of it -/

open MultiSink

/-- What was published was taken by a child, is queued or made room for another. -/
def NothingDiscarded (published : List α) (s : RetryQueueSink α × MultiSink α) : Prop :=
  published.Subperm (taken s.2.trace ++ s.1.queue ++ overflowed s.1.trace)

/-- What a run over the open fan-out leads to: all is delivered, each receipt at a call of its own. -/
structure FannedOut (published : List α) (s t : RetryQueueSink α × MultiSink α) : Prop where
  isOpen : t.1.closed = false ∧ t.2.closed = false
  empty : t.1.queue = []
  sinks : t.2.sinks = s.2.sinks
  calls : t.2.calls = s.2.calls + published.length
  delivered : delivered t.1.trace = delivered s.1.trace ++ published
  overflowed : overflowed t.1.trace = overflowed s.1.trace
  trace : t.2.trace = s.2.trace ++ published.mapIdx fun i r => fanOut s.2.sinks (s.2.calls + i) r

theorem FannedOut.refl {s : RetryQueueSink α × MultiSink α} (hopen : s.1.closed = false)
    (hempty : s.1.queue = []) (hsink : s.2.closed = false) : FannedOut [] s s :=
  ⟨⟨hopen, hsink⟩, hempty, rfl, rfl, (List.append_nil _).symm, rfl, (List.append_nil _).symm⟩

theorem FannedOut.trans {receipt : α} {published : List α} {s t u : RetryQueueSink α × MultiSink α}
    (h : FannedOut [receipt] s t) (h' : FannedOut published t u) : FannedOut (receipt :: published) s u where
  isOpen := h'.isOpen
  empty := h'.empty
  sinks := h'.sinks.trans h.sinks
  calls := by
    rw [h'.calls, h.calls]
    simp only [List.length_cons, List.length_nil]
    omega
  delivered := by rw [h'.delivered, h.delivered, List.append_assoc, List.singleton_append]
  overflowed := h'.overflowed.trans h.overflowed
  trace := by
    rw [h'.trace, h.trace, h.sinks, h.calls, List.append_assoc, List.mapIdx_cons]
    simp only [List.mapIdx_cons, List.mapIdx_nil, List.singleton_append, List.length_singleton,
      Nat.add_assoc, Nat.add_comm 1]

/-- Over the open fan-out, `publish` takes every receipt for delivered. -/
theorem publishTo_open {s : RetryQueueSink α × MultiSink α} (hopen : s.1.closed = false)
    (hempty : s.1.queue = []) (hsink : s.2.closed = false) (receipt : α) :
    ∃ t, publishTo MultiSink.publish s receipt = some t ∧ FannedOut [receipt] s t := by
  have hoffer := offerTo_eq MultiSink.publish s receipt
  rw [publish_open hsink, if_pos rfl] at hoffer
  refine ⟨({ s.1.emit (.delivered receipt) with calls := s.1.calls + 1 }, { s.2 with
    calls := s.2.calls + 1
    trace := s.2.trace ++ [fanOut s.2.sinks s.2.calls receipt] }),
    ?_, ⟨hopen, hsink⟩, hempty, rfl, rfl, delivered_append _ _, ?_, rfl⟩
  · unfold publishTo
    rw [hopen, hempty, if_neg (by decide)]
    simp only [drainTo, hoffer]
  · simp [RetryQueueSink.emit]

theorem publishAllTo_open (published : List α) {s : RetryQueueSink α × MultiSink α}
    (hopen : s.1.closed = false) (hempty : s.1.queue = []) (hsink : s.2.closed = false) :
    ∃ t, publishAllTo MultiSink.publish s published = some t ∧ FannedOut published s t := by
  induction published generalizing s with
  | nil => exact ⟨s, rfl, FannedOut.refl hopen hempty hsink⟩
  | cons receipt published ih =>
    obtain ⟨t, ht, hstep⟩ := publishTo_open hopen hempty hsink receipt
    obtain ⟨u, hu, hrun⟩ := ih hstep.isOpen.1 hstep.empty hstep.isOpen.2
    refine ⟨u, ?_, hstep.trans hrun⟩
    unfold publishAllTo
    rw [List.foldlM_cons, ht]
    exact hu

/-- Nothing is missing from what was taken exactly where each call was taken. -/
theorem subperm_taken_iff (trace : List (Publication α)) :
    (trace.map Publication.receipt).Subperm (taken trace) ↔
      ∀ p ∈ trace, p.attempts.any Attempt.returned = true := by
  constructor
  · intro h
    have hlength := h.length_le
    rw [taken, List.length_map, List.length_map] at hlength
    exact List.length_filter_eq_length_iff.mp (le_antisymm (List.length_filter_le _ _) hlength)
  · intro h
    rw [taken, List.filter_eq_self.mpr h]

theorem receipts_fanned (sinks : List (ℕ → Bool)) (published : List α) :
    (published.mapIdx fun i r => fanOut sinks (0 + i) r).map Publication.receipt = published := by
  refine List.ext_getElem (by simp) fun i _ _ => ?_
  simp [fanOut]

theorem taken_fanned (sinks : List (ℕ → Bool)) (published : List α) :
    (∀ p ∈ published.mapIdx fun i r => fanOut sinks (0 + i) r,
        p.attempts.any Attempt.returned = true) ↔
      ∀ n < published.length, Accepts sinks n := by
  constructor
  · intro h n hn
    have hp := h (fanOut sinks (0 + n) published[n]) (List.mem_mapIdx.mpr ⟨n, hn, rfl⟩)
    rwa [fanOut_taken, Nat.zero_add] at hp
  · intro h p hp
    obtain ⟨n, hn, rfl⟩ := List.mem_mapIdx.mp hp
    rw [fanOut_taken, Nat.zero_add]
    exact h n hn

theorem enqueue_delivered (s : RetryQueueSink α) (receipt : α) :
    delivered (s.enqueue receipt).trace = delivered s.trace := by
  obtain ⟨maxlen, queue, closed, warnedFull, calls, trace⟩ := s
  cases queue <;> simp only [enqueue, RetryQueueSink.emit] <;> split_ifs <;> simp [delivered]

/-- Once the fan-out is closed, nothing reaches it. -/
theorem publishTo_closed {s t : RetryQueueSink α × MultiSink α} (hsink : s.2.closed = true)
    {receipt : α} (ht : publishTo MultiSink.publish s receipt = some t) :
    t.2 = s.2 ∧ delivered t.1.trace = delivered s.1.trace := by
  have hoffer (r : α) : offerTo MultiSink.publish s r =
      (false, { s.1 with calls := s.1.calls + 1 }, s.2) := by
    rw [offerTo_eq, publish_closed hsink]
    rfl
  unfold publishTo at ht
  split_ifs at ht with hclosed
  cases hqueue : s.1.queue with
  | nil =>
    simp only [hqueue, drainTo, hoffer, Option.some_inj] at ht
    subst ht
    refine ⟨rfl, ?_⟩
    rw [RetryQueueSink.emit, delivered_append, enqueue_delivered]
    exact List.append_nil _
  | cons pending rest =>
    simp only [hqueue, drainTo, hoffer, Option.some_inj] at ht
    subst ht
    exact ⟨rfl, enqueue_delivered _ _⟩

theorem publishAllTo_closed (published : List α) {s t : RetryQueueSink α × MultiSink α}
    (hsink : s.2.closed = true) (ht : publishAllTo MultiSink.publish s published = some t) :
    t.2 = s.2 ∧ delivered t.1.trace = delivered s.1.trace := by
  induction published generalizing s with
  | nil =>
    cases ht
    exact ⟨rfl, rfl⟩
  | cons receipt published ih =>
    unfold publishAllTo at ht
    rw [List.foldlM_cons] at ht
    obtain ⟨u, hu, hrest⟩ := Option.bind_eq_some_iff.mp ht
    obtain ⟨hsame, hdelivered⟩ := publishTo_closed hsink hu
    obtain ⟨hsame', hdelivered'⟩ := ih (hsame ▸ hsink) hrest
    exact ⟨hsame'.trans hsame, hdelivered'.trans hdelivered⟩

/-- A call of `publish` tells of a total failure exactly where the fan-out is open and some child
takes the receipt, so there is none to tell of. Of a run through a retry queue, nothing is discarded
exactly where each call made while the fan-out was open had such a child, also when the fan-out is
closed and receipts are queued after that. -/
theorem total_failure_reported_iff {α : Type} :
    (∀ (s : MultiSink α) (receipt : α),
      s.ReportsFailure receipt ↔ s.closed = false ∧ Accepts s.sinks s.calls) ∧
    ∀ (maxlen : Option ℕ) (sinks : List (ℕ → Bool)) (published : List α),
      ∃ s, publishAllTo MultiSink.publish (RetryQueueSink.init maxlen, MultiSink.init sinks) published =
          some s ∧
        (NothingDiscarded published s ↔ ∀ n < published.length, Accepts sinks n) ∧
        (maxlen ≠ some 0 → ∀ later : List α,
          ∃ t, publishAllTo MultiSink.publish (s.1, s.2.close) later = some t ∧
            (NothingDiscarded (published ++ later) t ↔ ∀ n < published.length, Accepts sinks n)) := by
  refine ⟨reportsFailure_iff, fun maxlen sinks published => ?_⟩
  obtain ⟨s, hs, hrun⟩ := publishAllTo_open published
    (s := (RetryQueueSink.init maxlen, MultiSink.init sinks)) rfl rfl rfl
  have htrace : s.2.trace = published.mapIdx fun i r => fanOut sinks (0 + i) r := hrun.trace
  have hdelivered : delivered s.1.trace = published := hrun.delivered
  have htaken : published.Subperm (taken s.2.trace) ↔ ∀ n < published.length, Accepts sinks n := by
    rw [← taken_fanned, ← subperm_taken_iff, receipts_fanned, htrace]
  refine ⟨s, hs, ?_, fun hpos later => ?_⟩
  · have hoverflowed : overflowed s.1.trace = [] := hrun.overflowed
    unfold NothingDiscarded
    rw [hrun.empty, hoverflowed, List.append_nil, List.append_nil]
    exact htaken
  · obtain ⟨s', hs', hready⟩ := Ready.publishAllTo MultiSink.publish published
      (s := (RetryQueueSink.init maxlen, MultiSink.init sinks)) (init_ready hpos)
    obtain rfl : s = s' := Option.some_inj.mp (hs.symm.trans hs')
    obtain ⟨t, ht, hready'⟩ := Ready.publishAllTo MultiSink.publish later (s := (s.1, s.2.close)) hready
    obtain ⟨hsame, hdelivered'⟩ := publishAllTo_closed later rfl ht
    refine ⟨t, ht, ?_⟩
    have hmissing := hready'.missing
    rw [List.nil_append, show delivered t.1.trace = published from hdelivered'.trans hdelivered] at hmissing
    unfold NothingDiscarded
    rw [← htaken, hsame, ← hmissing.subperm_right, List.append_assoc, List.append_assoc]
    exact List.subperm_append_right _

/-- Two children, of which one fails on every call and the other on all but the first. -/
theorem total_failure_reported_sample :
    ∃ s, publishAllTo MultiSink.publish
        (RetryQueueSink.init (some 4), MultiSink.init [fun _ => false, fun n => n == 0]) [10] = some s ∧
      ∃ t, publishAllTo MultiSink.publish (s.1, s.2.close) [20, 30] = some t ∧
        NothingDiscarded ([10] ++ [20, 30]) t := by
  obtain ⟨s, hs, -, hlater⟩ :=
    total_failure_reported_iff.2 (some 4) [fun _ => false, fun n => n == 0] [10]
  obtain ⟨t, ht, hiff⟩ := hlater (by decide) [20, 30]
  have hfirst (n : ℕ) (hn : n < 1) : Accepts [fun _ => false, fun n => n == 0] n :=
    ⟨fun n => n == 0, by simp, by simpa using hn⟩
  exact ⟨s, hs, t, ht, hiff.mpr hfirst⟩

/-- Both children raise and the call returns; the receipt is in no queue and no child has it. -/
theorem total_failure_is_hidden :
    ¬ (MultiSink.init [fun _ => false, fun _ => false]).ReportsFailure 10 ∧
      ∃ s, publishAllTo MultiSink.publish
          (RetryQueueSink.init (some 4), MultiSink.init [fun _ => false, fun _ => false]) [10] = some s ∧
        taken s.2.trace = [] ∧ s.1.queue = [] ∧ overflowed s.1.trace = [] ∧
        ¬ NothingDiscarded [10] s := by
  refine ⟨fun h => ?_, _, rfl, rfl, rfl, rfl, fun h => ?_⟩
  · have hraised := h.raises.mpr (by decide)
    cases hraised
  · have hlength := h.length_le
    revert hlength
    decide

end

end Provenex
