import Provenex.Export.MultiSink
import Mathlib.Tactic

/-! The retry queue loses nothing silently and keeps order, under every schedule
of its downstream sink. Whatever a call does is a sequence of four moves: a
queued receipt is delivered, an offer fails, a receipt is enqueued, a receipt is
delivered past the empty queue. Each keeps the account of what was published. -/

namespace Provenex

section

variable {α : Type}

/-! ## Traces -/

@[simp] theorem delivered_append (trace more : List (SinkEvent α)) :
    delivered (trace ++ more) = delivered trace ++ delivered more := List.filterMap_append ..

@[simp] theorem overflowed_append (trace more : List (SinkEvent α)) :
    overflowed (trace ++ more) = overflowed trace ++ overflowed more := List.filterMap_append ..

@[simp] theorem delivered_delivered (r : α) : delivered [.delivered r] = [r] := rfl

@[simp] theorem overflowed_delivered (r : α) : overflowed [.delivered r] = [] := rfl

@[simp] theorem delivered_overflow (r : α) : delivered [.overflow r] = [] := rfl

@[simp] theorem overflowed_overflow (r : α) : overflowed [.overflow r] = [r] := rfl

/-- The full queue was warned of, and nothing was delivered since. -/
def Warned (trace : List (SinkEvent α)) : Prop :=
  ∃ before since, trace = before ++ .queueFull :: since ∧ delivered since = []

/-- Each receipt that made room for another had such a warning before it. -/
def Announced (trace : List (SinkEvent α)) : Prop :=
  ∀ before oldest after, trace = before ++ .overflow oldest :: after → Warned before

theorem Warned.snoc {trace : List (SinkEvent α)} (h : Warned trace) {e : SinkEvent α}
    (he : delivered [e] = []) : Warned (trace ++ [e]) := by
  obtain ⟨before, since, rfl, hsince⟩ := h
  exact ⟨before, since ++ [e], by simp, by simp [hsince, he]⟩

theorem warned_queueFull (trace : List (SinkEvent α)) : Warned (trace ++ [.queueFull]) :=
  ⟨trace, [], rfl, rfl⟩

theorem Announced.snoc {trace : List (SinkEvent α)} (h : Announced trace) {e : SinkEvent α}
    (he : ∀ oldest, e = .overflow oldest → Warned trace) : Announced (trace ++ [e]) := by
  intro before oldest after heq
  obtain rfl | ⟨after, x, rfl⟩ := List.eq_nil_or_concat after
  · obtain ⟨rfl, hlast⟩ := List.append_inj' heq rfl
    exact he oldest (List.singleton_inj.mp hlast)
  · rw [List.concat_eq_append, ← List.cons_append, ← List.append_assoc] at heq
    obtain ⟨rfl, -⟩ := List.append_inj' heq rfl
    exact h before oldest after rfl

/-! ## The account of what was published -/

/-- What was delivered, what is queued and what made room are what was published. -/
structure Accounted (published : List α) (s : RetryQueueSink α) : Prop where
  bounded : ∀ n, s.maxlen = some n → s.queue.length ≤ n
  kept : (delivered s.trace ++ s.queue).Sublist published
  missing : (delivered s.trace ++ s.queue ++ overflowed s.trace).Perm published
  announced : Announced s.trace

/-- The sink between calls of `publish`: where the warning is not armed, the queue is full and was
warned of. -/
structure Ready (published : List α) (s : RetryQueueSink α) : Prop extends Accounted published s where
  isOpen : s.closed = false
  positive : s.maxlen ≠ some 0
  warned : s.warnedFull = true → s.isFull = true ∧ Warned s.trace

/-- Nothing is lost where nothing had to make room. -/
theorem Accounted.lossless {published : List α} {s : RetryQueueSink α} (h : Accounted published s)
    (hroom : overflowed s.trace = []) : delivered s.trace ++ s.queue = published := by
  have hlength := h.missing.length_eq
  rw [hroom, List.append_nil] at hlength
  exact h.kept.eq_of_length hlength

open RetryQueueSink

variable {published : List α} {s : RetryQueueSink α}

theorem init_ready {maxlen : Option ℕ} (hpos : maxlen ≠ some 0) : Ready [] (init maxlen : RetryQueueSink α) where
  bounded n _ := Nat.zero_le n
  kept := List.Sublist.refl []
  missing := List.Perm.refl []
  announced before oldest after h := by simp [init] at h
  isOpen := rfl
  positive := hpos
  warned h := by cases h

/-! ## The moves -/

theorem Ready.called (h : Ready published s) (n : ℕ) : Ready published { s with calls := n } :=
  ⟨⟨h.bounded, h.kept, h.missing, h.announced⟩, h.isOpen, h.positive, h.warned⟩

theorem Ready.emit (h : Ready published s) {e : SinkEvent α} (hd : delivered [e] = [])
    (ho : overflowed [e] = []) : Ready published (s.emit e) where
  bounded := h.bounded
  kept := by
    rw [RetryQueueSink.emit, delivered_append, hd, List.append_nil]
    exact h.kept
  missing := by
    rw [RetryQueueSink.emit, delivered_append, overflowed_append, hd, ho, List.append_nil, List.append_nil]
    exact h.missing
  announced := h.announced.snoc fun oldest heq => by
    rw [heq] at ho
    cases ho
  isOpen := h.isOpen
  positive := h.positive
  warned hw := ⟨(h.warned hw).1, (h.warned hw).2.snoc hd⟩

theorem isFull_iff : s.isFull = true ↔ ∃ n, s.maxlen = some n ∧ n ≤ s.queue.length := by
  unfold isFull
  cases s.maxlen <;> simp

/-- Before an empty queue the warning is armed. -/
theorem Ready.armed (h : Ready published s) (hqueue : s.queue = []) : s.warnedFull = false := by
  rw [Bool.eq_false_iff]
  intro hw
  obtain ⟨n, hn, hle⟩ := isFull_iff.mp (h.warned hw).1
  rw [hqueue, List.length_nil, Nat.le_zero] at hle
  exact h.positive (hle ▸ hn)

/-- Once a queued receipt is out, the queue is not full and the warning is armed. -/
theorem Ready.rearmed (h : Ready published s) {pending : α} {rest : List α}
    (hqueue : s.queue = pending :: rest) : (s.popleft rest).warnedFull = false := by
  cases hw : s.warnedFull with
  | false => simp [popleft, hw]
  | true =>
    obtain ⟨n, hn, hle⟩ := isFull_iff.mp (h.warned hw).1
    have hbound := h.bounded n hn
    rw [hqueue, List.length_cons] at hbound
    have hroom : rest.length < s.maxlenOrOne := by
      unfold maxlenOrOne
      rw [hn]
      cases n with
      | zero => exact absurd hn h.positive
      | succ n => exact hbound
    simp [popleft, hw, hroom]

theorem Ready.delivered_head (h : Ready published s) {pending : α} {rest : List α}
    (hqueue : s.queue = pending :: rest) :
    Ready published ((s.emit (.delivered pending)).popleft rest) where
  bounded n hn := by
    have hbound := h.bounded n hn
    rw [hqueue, List.length_cons] at hbound
    exact Nat.le_of_succ_le hbound
  kept := by
    have hkept := h.kept
    rw [hqueue] at hkept
    simpa [popleft, RetryQueueSink.emit] using hkept
  missing := by
    have hmissing := h.missing
    rw [hqueue] at hmissing
    simpa [popleft, RetryQueueSink.emit] using hmissing
  announced := h.announced.snoc nofun
  isOpen := h.isOpen
  positive := h.positive
  warned hw := by
    have harmed : ((s.emit (.delivered pending)).popleft rest).warnedFull = false := h.rearmed hqueue
    rw [harmed] at hw
    cases hw

theorem Ready.delivered_new (h : Ready published s) (hqueue : s.queue = []) (receipt : α) :
    Ready (published ++ [receipt]) (s.emit (.delivered receipt)) where
  bounded := h.bounded
  kept := by
    have hkept := h.kept
    rw [hqueue, List.append_nil] at hkept
    simpa [RetryQueueSink.emit, hqueue] using hkept.append_right [receipt]
  missing := by
    have hmissing := h.missing
    rw [hqueue, List.append_nil] at hmissing
    have hmiddle : (delivered s.trace ++ [receipt] ++ overflowed s.trace).Perm
        (delivered s.trace ++ overflowed s.trace ++ [receipt]) := by
      rw [List.append_assoc, List.append_assoc]
      exact List.perm_append_comm.append_left _
    simpa [RetryQueueSink.emit, hqueue] using hmiddle.trans (hmissing.append_right [receipt])
  announced := h.announced.snoc nofun
  isOpen := h.isOpen
  positive := h.positive
  warned hw := by
    have harmed : s.warnedFull = false := h.armed hqueue
    exact absurd hw (by rw [RetryQueueSink.emit, harmed]; decide)

theorem dequeAppend_room {maxlen : Option ℕ} {queue : List α}
    (hroom : ∀ n, maxlen = some n → queue.length < n) (x : α) :
    dequeAppend maxlen queue x = queue ++ [x] := by
  cases maxlen with
  | none => rfl
  | some n => rw [dequeAppend, Nat.sub_eq_zero_of_le (hroom n rfl), List.drop_zero]

theorem enqueue_room (hroom : s.isFull = false) (receipt : α) :
    s.enqueue receipt = { s with queue := s.queue ++ [receipt] } := by
  have happend := dequeAppend_room (x := receipt) fun n hn =>
    Nat.lt_of_not_le fun hle => by rw [isFull_iff.mpr ⟨n, hn, hle⟩] at hroom; cases hroom
  rw [← happend]
  unfold enqueue
  cases hqueue : s.queue <;> simp [hroom, hqueue]

/-- At full length the oldest receipt makes room, and was warned of. -/
theorem enqueue_full {oldest : α} {rest : List α} (hqueue : s.queue = oldest :: rest)
    (hfull : s.maxlen = some s.queue.length) (receipt : α) :
    s.enqueue receipt = { s with
      queue := rest ++ [receipt]
      warnedFull := true
      trace := s.trace ++ (if s.warnedFull then [] else [.queueFull]) ++ [.overflow oldest] } := by
  obtain ⟨maxlen, queue, closed, warnedFull, calls, trace⟩ := s
  simp only at hqueue hfull
  subst hqueue hfull
  cases warnedFull <;> simp [RetryQueueSink.enqueue, isFull, RetryQueueSink.emit, dequeAppend]

theorem Ready.enqueue (h : Ready published s) (receipt : α) :
    Ready (published ++ [receipt]) (s.enqueue receipt) := by
  cases hfull : s.isFull with
  | false =>
    have hroom (n : ℕ) (hn : s.maxlen = some n) : s.queue.length < n :=
      Nat.lt_of_not_le fun hle => by rw [isFull_iff.mpr ⟨n, hn, hle⟩] at hfull; cases hfull
    rw [enqueue_room hfull]
    refine ⟨⟨fun n hn => ?_, ?_, ?_, h.announced⟩, h.isOpen, h.positive, fun hw => ?_⟩
    · rw [List.length_append]
      exact hroom n hn
    · rw [← List.append_assoc]
      exact h.kept.append_right _
    · rw [← List.append_assoc]
      refine List.Perm.trans ?_ (h.missing.append_right [receipt])
      rw [List.append_assoc, List.append_assoc _ _ [receipt]]
      exact List.perm_append_comm.append_left _
    · rw [(h.warned hw).1] at hfull
      cases hfull
  | true =>
    obtain ⟨n, hn, hle⟩ := isFull_iff.mp hfull
    have hlength : s.queue.length = n := Nat.le_antisymm (h.bounded n hn) hle
    cases hqueue : s.queue with
    | nil =>
      rw [hqueue, List.length_nil] at hlength
      exact absurd (hlength ▸ hn) h.positive
    | cons oldest rest =>
      set notice : List (SinkEvent α) := if s.warnedFull then [] else [.queueFull]
      have hnotice : delivered notice = [] ∧ overflowed notice = [] := by
        cases hw : s.warnedFull <;> simp [notice, hw, delivered, overflowed]
      have hwarned : Warned (s.trace ++ notice) := by
        cases hw : s.warnedFull with
        | false => simpa [notice, hw] using warned_queueFull s.trace
        | true => simpa [notice, hw] using (h.warned hw).2
      have hannounced : Announced (s.trace ++ notice) := by
        cases hw : s.warnedFull with
        | false => simpa [notice, hw] using h.announced.snoc (e := .queueFull) nofun
        | true => simpa [notice, hw] using h.announced
      have hkept := h.kept
      have hmissing := h.missing
      rw [hqueue] at hkept hmissing
      rw [enqueue_full hqueue (hlength ▸ hn)]
      have hdelivered : delivered (s.trace ++ notice ++ [.overflow oldest]) = delivered s.trace := by
        simp [hnotice.1]
      have hoverflowed : overflowed (s.trace ++ notice ++ [.overflow oldest]) =
          overflowed s.trace ++ [oldest] := by simp [hnotice.2]
      refine ⟨⟨fun m hm => ?_, ?_, ?_, hannounced.snoc fun _ _ => hwarned⟩, h.isOpen, h.positive,
        fun _ => ⟨isFull_iff.mpr ⟨n, hn, ?_⟩, hwarned.snoc rfl⟩⟩
      · rw [← Option.some_inj.mp (hn.symm.trans hm), ← hlength, hqueue, List.length_append]
        rfl
      · change (delivered (s.trace ++ notice ++ [SinkEvent.overflow oldest]) ++
          (rest ++ [receipt])).Sublist _
        rw [hdelivered, ← List.append_assoc]
        exact (((List.sublist_cons_self oldest rest).append_left _).trans hkept).append_right _
      · change (delivered (s.trace ++ notice ++ [SinkEvent.overflow oldest]) ++ (rest ++ [receipt]) ++
          overflowed (s.trace ++ notice ++ [SinkEvent.overflow oldest])).Perm _
        rw [hdelivered, hoverflowed, ← Multiset.coe_eq_coe]
        rw [← Multiset.coe_eq_coe] at hmissing
        simp only [← Multiset.coe_add, ← Multiset.cons_coe, ← Multiset.singleton_add,
          Multiset.coe_nil, add_zero] at hmissing ⊢
        rw [← hmissing]
        abel
      · rw [← hlength, hqueue]
        simp

/-! ## The calls, over a downstream sink with a state -/

section

variable {σ : Type} (downstream : σ → α → Bool × σ)

theorem offerTo_eq (s : RetryQueueSink α × σ) (receipt : α) :
    offerTo downstream s receipt =
      if (downstream s.2 receipt).1 then
        (true, { s.1.emit (.delivered receipt) with calls := s.1.calls + 1 }, (downstream s.2 receipt).2)
      else (false, { s.1 with calls := s.1.calls + 1 }, (downstream s.2 receipt).2) := by
  simp only [offerTo, offer]
  split_ifs <;> rfl

theorem Ready.drainTo (queue : List α) {s : RetryQueueSink α × σ} (h : Ready published s.1)
    (hqueue : s.1.queue = queue) :
    Ready published (drainTo downstream queue s).2.1 ∧
      ((RetryQueueSink.drainTo downstream queue s).1 = true →
        (RetryQueueSink.drainTo downstream queue s).2.1.queue = []) := by
  induction queue generalizing s with
  | nil => exact ⟨h, fun _ => hqueue⟩
  | cons pending rest ih =>
    unfold RetryQueueSink.drainTo
    rw [offerTo_eq]
    cases (downstream s.2 pending).1 with
    | false => exact ⟨h.called _, nofun⟩
    | true =>
      have hready := (h.delivered_head hqueue).called (s.1.calls + 1)
      exact ih (s := (_, (downstream s.2 pending).2)) hready rfl

theorem Ready.publishTo {s : RetryQueueSink α × σ} (h : Ready published s.1) (receipt : α) :
    ∃ t, publishTo downstream s receipt = some t ∧ Ready (published ++ [receipt]) t.1 := by
  obtain ⟨hdrained, hempty⟩ := h.drainTo downstream s.1.queue rfl
  unfold RetryQueueSink.publishTo
  rw [h.isOpen, if_neg (by decide)]
  cases hdrain : RetryQueueSink.drainTo downstream s.1.queue s with
  | mk done t =>
    rw [hdrain] at hdrained hempty
    cases done with
    | false => exact ⟨_, rfl, hdrained.enqueue receipt⟩
    | true =>
      simp only [offerTo_eq]
      cases (downstream t.2 receipt).1 with
      | true => exact ⟨_, rfl, (hdrained.delivered_new (hempty rfl) receipt).called _⟩
      | false =>
        have hqueued := (hdrained.called (t.1.calls + 1)).enqueue receipt
        exact ⟨_, rfl, hqueued.emit rfl rfl⟩

theorem Ready.publishAllTo (receipts : List α) {s : RetryQueueSink α × σ} (h : Ready published s.1) :
    ∃ t, publishAllTo downstream s receipts = some t ∧ Ready (published ++ receipts) t.1 := by
  induction receipts generalizing s published with
  | nil => exact ⟨s, rfl, by rwa [List.append_nil]⟩
  | cons receipt receipts ih =>
    obtain ⟨t, ht, hready⟩ := h.publishTo downstream receipt
    obtain ⟨u, hu, hdone⟩ := ih hready
    refine ⟨u, ?_, by rwa [List.append_assoc] at hdone⟩
    unfold RetryQueueSink.publishAllTo
    rw [List.foldlM_cons, ht]
    exact hu

end

/-! ## The calls, under a schedule -/

/-- A downstream sink that is a schedule over its calls. -/
def scheduled (succeeds : ℕ → Bool) (calls : ℕ) (_ : α) : Bool × ℕ := (succeeds calls, calls + 1)

/-- The sink, beside the count of its calls. -/
def withCalls (s : RetryQueueSink α) : RetryQueueSink α × ℕ := (s, s.calls)

theorem offerTo_scheduled (succeeds : ℕ → Bool) (s : RetryQueueSink α) (receipt : α) :
    offerTo (scheduled succeeds) (withCalls s) receipt =
      ((s.offer succeeds receipt).1, withCalls (s.offer succeeds receipt).2) := by
  unfold offerTo scheduled withCalls offer
  cases succeeds s.calls <;> rfl

theorem drainTo_scheduled (succeeds : ℕ → Bool) (queue : List α) (s : RetryQueueSink α) :
    drainTo (scheduled succeeds) queue (withCalls s) =
      ((drain succeeds queue s).1, withCalls (drain succeeds queue s).2) := by
  induction queue generalizing s with
  | nil => rfl
  | cons pending rest ih =>
    unfold drainTo drain
    rw [offerTo_scheduled]
    cases hoffer : s.offer succeeds pending with
    | mk returned t =>
      cases returned with
      | false => rfl
      | true => exact ih (t.popleft rest)

theorem enqueue_calls (s : RetryQueueSink α) (receipt : α) : (s.enqueue receipt).calls = s.calls := by
  obtain ⟨maxlen, queue, closed, warnedFull, calls, trace⟩ := s
  cases queue <;> simp only [enqueue, RetryQueueSink.emit] <;> split_ifs <;> rfl

/-- With a schedule for the state, it is the sink over a schedule. -/
theorem publishTo_scheduled (succeeds : ℕ → Bool) (s : RetryQueueSink α) (receipt : α) :
    publishTo (scheduled succeeds) (withCalls s) receipt =
      (publish succeeds s receipt).map withCalls := by
  unfold publishTo publish
  rw [show (withCalls s).1 = s from rfl, drainTo_scheduled]
  cases hclosed : s.closed with
  | true => rfl
  | false =>
    rw [if_neg (by decide), if_neg (by decide)]
    cases hdrain : drain succeeds s.queue s with
    | mk done t =>
      cases done with
      | false => exact congrArg (fun n => some (t.enqueue receipt, n)) (enqueue_calls t receipt).symm
      | true =>
        simp only [offerTo_scheduled]
        cases hoffer : t.offer succeeds receipt with
        | mk returned u =>
          cases returned with
          | false => exact congrArg (fun n => some (_, n)) (enqueue_calls u receipt).symm
          | true => rfl

theorem publishAllTo_scheduled (succeeds : ℕ → Bool) (s : RetryQueueSink α) (receipts : List α) :
    publishAllTo (scheduled succeeds) (withCalls s) receipts =
      (publishAll succeeds s receipts).map withCalls := by
  induction receipts generalizing s with
  | nil => rfl
  | cons receipt receipts ih =>
    unfold publishAllTo publishAll
    rw [List.foldlM_cons, List.foldlM_cons, publishTo_scheduled]
    cases publish succeeds s receipt with
    | none => rfl
    | some t => exact ih t

variable (succeeds : ℕ → Bool)

theorem Ready.publishAll (receipts : List α) (h : Ready published s) :
    ∃ s', publishAll succeeds s receipts = some s' ∧ Ready (published ++ receipts) s' := by
  obtain ⟨t, ht, hready⟩ := Ready.publishAllTo (scheduled succeeds) receipts (s := withCalls s) h
  rw [publishAllTo_scheduled, Option.map_eq_some_iff] at ht
  obtain ⟨s', hs', rfl⟩ := ht
  exact ⟨s', hs', hready⟩

/-- What `close` does: the queue is delivered up to the first attempt that fails, and the rest of it
is kept. -/
structure Closed (s t : RetryQueueSink α) : Prop where
  delivers : ∃ n ≤ s.queue.length, (∀ m < n, succeeds (s.calls + m) = true) ∧
    (n < s.queue.length → succeeds (s.calls + n) = false) ∧
    delivered t.trace = delivered s.trace ++ s.queue.take n ∧ t.queue = s.queue.drop n
  closed : t.closed = true
  overflowed : overflowed t.trace = overflowed s.trace
  announced : Announced s.trace → Announced t.trace
  maxlen : t.maxlen = s.maxlen

theorem drainAtClose_closed (queue : List α) (hqueue : s.queue = queue) (hclosed : s.closed = true) :
    Closed succeeds s (drainAtClose succeeds queue s) := by
  induction queue generalizing s with
  | nil =>
    refine ⟨⟨0, Nat.zero_le _, fun m hm => absurd hm (Nat.not_lt_zero m), fun h => ?_, ?_, rfl⟩, hclosed,
      rfl, id, rfl⟩
    · rw [hqueue] at h
      exact absurd h (Nat.not_lt_zero 0)
    · simp [drainAtClose]
  | cons pending rest ih =>
    unfold drainAtClose offer
    cases hoffer : succeeds s.calls with
    | false =>
      exact ⟨⟨0, Nat.zero_le _, fun m hm => absurd hm (Nat.not_lt_zero m), fun _ => hoffer, by simp, rfl⟩,
        hclosed, rfl, id, rfl⟩
    | true =>
      obtain ⟨⟨n, hn, hsucceeds, hfails, hdelivered, hrest⟩, hstays, hoverflowed, hannounced, hmaxlen⟩ :=
        ih (s := { s.emit (.delivered pending) with calls := s.calls + 1, queue := rest }) rfl hclosed
      -- the attempts on the rest are one later
      have hshift (m : ℕ) : s.calls + 1 + m = s.calls + (m + 1) := by omega
      refine ⟨⟨n + 1, ?_, fun m hm => ?_, fun h => ?_, ?_, ?_⟩, hstays, ?_, ?_, hmaxlen⟩
      · rw [hqueue]
        exact Nat.succ_le_succ hn
      · rcases m with _ | m
        · exact hoffer
        · rw [← hshift]
          exact hsucceeds m (Nat.lt_of_succ_lt_succ hm)
      · rw [← hshift]
        rw [hqueue] at h
        exact hfails (Nat.lt_of_succ_lt_succ h)
      · rw [hqueue, List.take_succ_cons]
        simpa [RetryQueueSink.emit] using hdelivered
      · rw [hqueue, List.drop_succ_cons]
        exact hrest
      · simpa [RetryQueueSink.emit] using hoverflowed
      · exact fun h => hannounced (h.snoc nofun)

theorem close_closed (s : RetryQueueSink α) : Closed succeeds s (close succeeds s) := by
  obtain ⟨hdelivers, hclosed, hoverflowed, hannounced, hmaxlen⟩ :=
    drainAtClose_closed succeeds (s := { s with closed := true }) s.queue rfl rfl
  simp only [RetryQueueSink.close]
  split_ifs
  · exact ⟨hdelivers, hclosed, hoverflowed, hannounced, hmaxlen⟩
  · refine ⟨?_, hclosed, ?_, fun h => (hannounced h).snoc nofun, hmaxlen⟩
    · simpa [RetryQueueSink.emit, Provenex.delivered] using hdelivers
    · simpa [RetryQueueSink.emit, Provenex.overflowed] using hoverflowed

theorem Accounted.close {t : RetryQueueSink α} (h : Accounted published s)
    (hclosed : Closed succeeds s t) : Accounted published t := by
  obtain ⟨⟨n, -, -, -, hdelivered, hqueue⟩, -, hoverflowed, hannounced, hmaxlen⟩ := hclosed
  have hsame : delivered t.trace ++ t.queue = delivered s.trace ++ s.queue := by
    rw [hdelivered, hqueue, List.append_assoc, List.take_append_drop]
  refine ⟨fun m hm => ?_, ?_, ?_, hannounced h.announced⟩
  · rw [hqueue, List.length_drop]
    exact (Nat.sub_le _ _).trans (h.bounded m (hmaxlen ▸ hm))
  · rw [hsame]
    exact h.kept
  · rw [hsame, hoverflowed]
    exact h.missing

/-- Under every schedule, what is delivered and queued is what was published, in order and less
what made room; each of those was warned of; and `close` delivers the queue up to the first failure. -/
theorem retry_queue_accounts (maxlen : Option ℕ) (hpos : maxlen ≠ some 0) (published : List α) :
    ∃ s, publishAll succeeds (init maxlen) published = some s ∧ Accounted published s ∧
      Closed succeeds s (close succeeds s) ∧ Accounted published (close succeeds s) ∧
      (overflowed s.trace = [] → delivered s.trace ++ s.queue = published) := by
  obtain ⟨s, hs, hready⟩ := (init_ready hpos).publishAll succeeds published
  rw [List.nil_append] at hready
  exact ⟨s, hs, hready.toAccounted, close_closed succeeds s,
    hready.toAccounted.close succeeds (close_closed succeeds s), hready.toAccounted.lossless⟩

/-- A queue of length one, and a sink that fails three times. -/
theorem retry_queue_sample :
    ∃ s, publishAll (fun n => n == 3) (init (some 1)) [10, 20, 30] = some s ∧
      Accounted [10, 20, 30] (close (fun n => n == 3) s) ∧ s.queue = [30] ∧
      overflowed s.trace = [10, 20] := by
  obtain ⟨s, hs, -, -, haccounted, -⟩ :=
    retry_queue_accounts (fun n => n == 3) (some 1) (by decide) [10, 20, 30]
  have hrun : (publishAll (fun n => n == 3) (init (some 1)) [10, 20, 30]).map
      (fun s => (s.queue, overflowed s.trace)) = some ([30], [10, 20]) := rfl
  rw [hs, Option.map_some, Option.some_inj, Prod.mk.injEq] at hrun
  exact ⟨s, hs, haccounted, hrun⟩

end

end Provenex
