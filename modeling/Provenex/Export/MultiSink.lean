import Provenex.Export.Streaming

/-! `MultiSink` of `export/streaming.py`, and a `RetryQueueSink` whose downstream
sink has a state of its own. A child sink is the schedule of its calls: whether
it returns. -/

namespace Provenex

/-- One call of a child's `publish`; where it raised, a warning names the child. -/
structure Attempt where
  sink : ℕ
  returned : Bool
  deriving DecidableEq, Repr

/-- One call of `publish`, and what the children did. -/
structure Publication (α : Type) where
  receipt : α
  attempts : List Attempt
  deriving DecidableEq, Repr

structure MultiSink (α : Type) where
  sinks : List (ℕ → Bool)
  closed : Bool
  calls : ℕ
  trace : List (Publication α)

namespace MultiSink

variable {α : Type}

def init (sinks : List (ℕ → Bool)) : MultiSink α := ⟨sinks, false, 0, []⟩

/-- The loop of `publish` over the children. -/
def fanOut (sinks : List (ℕ → Bool)) (call : ℕ) (receipt : α) : Publication α :=
  ⟨receipt, sinks.mapIdx fun i sink => ⟨i, sink call⟩⟩

/-- `publish`, and whether it returned; it raises `SinkClosedError` alone. -/
def publish (s : MultiSink α) (receipt : α) : Bool × MultiSink α :=
  if s.closed then (false, s)
  else (true, { s with
    calls := s.calls + 1
    trace := s.trace ++ [fanOut s.sinks s.calls receipt] })

/-- `close`, which closes the children as well. -/
def close (s : MultiSink α) : MultiSink α := { s with closed := true }

end MultiSink

/-- The receipts that some child took. -/
def taken {α : Type} (trace : List (Publication α)) : List α :=
  (trace.filter fun p => p.attempts.any Attempt.returned).map Publication.receipt

namespace RetryQueueSink

section

variable {α σ : Type} (downstream : σ → α → Bool × σ)

/-- `downstream.publish(receipt)`, and whether it returned. -/
def offerTo (s : RetryQueueSink α × σ) (receipt : α) : Bool × RetryQueueSink α × σ :=
  let r := downstream s.2 receipt
  ((s.1.offer (fun _ => r.1) receipt).1, (s.1.offer (fun _ => r.1) receipt).2, r.2)

/-- The loop of `publish` over the queue, and whether it came to its end. -/
def drainTo : List α → RetryQueueSink α × σ → Bool × RetryQueueSink α × σ
  | [], s => (true, s)
  | pending :: rest, s =>
    match offerTo downstream s pending with
    | (true, s, d) => drainTo rest (s.popleft rest, d)
    | (false, s) => (false, s)

/-- `publish`; none for `SinkClosedError`. -/
def publishTo (s : RetryQueueSink α × σ) (receipt : α) : Option (RetryQueueSink α × σ) :=
  if s.1.closed then none
  else match drainTo downstream s.1.queue s with
    | (false, s, d) => some (s.enqueue receipt, d)
    | (true, s) =>
      match offerTo downstream s receipt with
      | (true, s) => some s
      | (false, s, d) =>
        let s := s.enqueue receipt
        some (s.emit (.publishFailed s.queue.length), d)

/-- A sequence of `publish` calls. -/
def publishAllTo (s : RetryQueueSink α × σ) (receipts : List α) : Option (RetryQueueSink α × σ) :=
  receipts.foldlM (publishTo downstream) s

end

end RetryQueueSink

end Provenex
