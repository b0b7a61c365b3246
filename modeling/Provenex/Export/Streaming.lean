import Provenex.Py.Value

/-! `RetryQueueSink` of `export/streaming.py`. Whether the downstream sink takes
a receipt is a schedule over its calls; what it took and the warnings go to a
trace. -/

namespace Provenex

/-- `append`, of a `deque(maxlen=maxlen)`: the oldest items make room. -/
def dequeAppend {α : Type} (maxlen : Option ℕ) (queue : List α) (x : α) : List α :=
  match maxlen with
  | none => queue ++ [x]
  | some n => (queue ++ [x]).drop (queue.length + 1 - n)

inductive SinkEvent (α : Type)
  /-- The downstream sink took the receipt. -/
  | delivered (receipt : α)
  /-- A receipt is enqueued at full length, and this one is the oldest. -/
  | overflow (oldest : α)
  /-- The warning that the queue is full. -/
  | queueFull
  /-- The warning that a receipt was queued. -/
  | publishFailed (queueSize : ℕ)
  /-- The warning that receipts are pending at the end. -/
  | closedPending (pending : ℕ)
  deriving DecidableEq, Repr

/-- The sink, with the calls it has made and what came of them. -/
structure RetryQueueSink (α : Type) where
  maxlen : Option ℕ
  queue : List α
  closed : Bool
  warnedFull : Bool
  calls : ℕ
  trace : List (SinkEvent α)
  deriving DecidableEq, Repr

namespace RetryQueueSink

variable {α : Type}

def init (maxlen : Option ℕ) : RetryQueueSink α := ⟨maxlen, [], false, false, 0, []⟩

def emit (s : RetryQueueSink α) (e : SinkEvent α) : RetryQueueSink α := { s with trace := s.trace ++ [e] }

/-- `maxlen is not None and len(queue) >= maxlen` -/
def isFull (s : RetryQueueSink α) : Bool := s.maxlen.any fun n => n ≤ s.queue.length

/-- `maxlen or 1` -/
def maxlenOrOne (s : RetryQueueSink α) : ℕ :=
  match s.maxlen with
  | none | some 0 => 1
  | some n => n

/-- `_enqueue` -/
def enqueue (s : RetryQueueSink α) (receipt : α) : RetryQueueSink α :=
  let s := if ! s.warnedFull && s.isFull then { s.emit .queueFull with warnedFull := true } else s
  let s := match s.queue with
    | oldest :: _ => if s.isFull then s.emit (.overflow oldest) else s
    | [] => s
  { s with queue := dequeAppend s.maxlen s.queue receipt }

/-- `pending_count` -/
def pendingCount (s : RetryQueueSink α) : ℕ := s.queue.length

section

variable (succeeds : ℕ → Bool)

/-- `downstream.publish(receipt)`, and whether it returned. -/
def offer (s : RetryQueueSink α) (receipt : α) : Bool × RetryQueueSink α :=
  if succeeds s.calls then (true, { s.emit (.delivered receipt) with calls := s.calls + 1 })
  else (false, { s with calls := s.calls + 1 })

/-- `queue.popleft()`, and the warning is armed again. -/
def popleft (s : RetryQueueSink α) (rest : List α) : RetryQueueSink α :=
  { s with
    queue := rest
    warnedFull := if s.warnedFull && rest.length < s.maxlenOrOne then false else s.warnedFull }

/-- The loop of `publish` over the queue, and whether it came to its end. -/
def drain : List α → RetryQueueSink α → Bool × RetryQueueSink α
  | [], s => (true, s)
  | pending :: rest, s =>
    match s.offer succeeds pending with
    | (true, s) => drain rest (s.popleft rest)
    | (false, s) => (false, s)

/-- `publish`; none for `SinkClosedError`. -/
def publish (s : RetryQueueSink α) (receipt : α) : Option (RetryQueueSink α) :=
  if s.closed then none
  else match drain succeeds s.queue s with
    | (false, s) => some (s.enqueue receipt)
    | (true, s) =>
      match s.offer succeeds receipt with
      | (true, s) => some s
      | (false, s) =>
        let s := s.enqueue receipt
        some (s.emit (.publishFailed s.queue.length))

/-- The loop of `close` over the queue, which does not arm the warning. -/
def drainAtClose : List α → RetryQueueSink α → RetryQueueSink α
  | [], s => s
  | pending :: rest, s =>
    match s.offer succeeds pending with
    | (true, s) => drainAtClose rest { s with queue := rest }
    | (false, s) => s

/-- `close` -/
def close (s : RetryQueueSink α) : RetryQueueSink α :=
  let s := drainAtClose succeeds s.queue { s with closed := true }
  if s.queue.isEmpty then s else s.emit (.closedPending s.queue.length)

/-- A sequence of `publish` calls. -/
def publishAll (s : RetryQueueSink α) (receipts : List α) : Option (RetryQueueSink α) :=
  receipts.foldlM (publish succeeds) s

end

end RetryQueueSink

/-- The receipts that were delivered, in order. -/
def delivered {α : Type} (trace : List (SinkEvent α)) : List α :=
  trace.filterMap fun e => match e with
    | .delivered r => some r
    | _ => none

/-- The receipts that were oldest in the queue when one was enqueued at full length. -/
def overflowed {α : Type} (trace : List (SinkEvent α)) : List α :=
  trace.filterMap fun e => match e with
    | .overflow r => some r
    | _ => none

end Provenex
