import Provenex.Core.Verify
import Provenex.Index.Writable

/-! Indexes that answer alike. What is computed from an index is computed from its methods, so one
simulation between the methods of two indexes carries over to histories and to receipts. -/

namespace Provenex

open Effect

section

variable {σ τ : Type} {R : τ → σ → Prop}

/-- From related states, each read of the one index ends as that of the other does. -/
structure SimulatesReads (R : τ → σ → Prop) (index : ProvenanceIndex τ)
    (base : ProvenanceIndex σ) : Prop where
  verify : ∀ fp, Simulates R (index.verify fp) (base.verify fp)
  lookup : ∀ fp, Simulates R (index.lookup fp) (base.lookup fp)

/-- And so does each of the other methods. -/
structure SimulatesIndex (R : τ → σ → Prop) (index : WritableIndex τ) (base : WritableIndex σ) :
    Prop extends SimulatesReads R index.toProvenanceIndex base.toProvenanceIndex where
  add : ∀ now a, Simulates R (index.add now a) (base.add now a)
  setAuthorization : ∀ d authorized,
    Simulates R (index.setAuthorization d authorized) (base.setAuthorization d authorized)
  supersede : ∀ d v, Simulates R (index.supersede d v) (base.supersede d v)

theorem SimulatesIndex.performAll {index : WritableIndex τ} {base : WritableIndex σ}
    (h : SimulatesIndex R index base) (ops : List Sqlite.Op) :
    Simulates R (index.performAll ops) (base.performAll ops) := by
  refine simulates_forEach (fun results op => ?_) []
  have hop : Simulates R (index.perform op) (base.perform op) := by
    cases op with
    | add now a => exact (h.add now a).bind fun _ => simulates_pure 0
    | setAuthorization d authorized =>
      exact (h.setAuthorization d authorized).bind fun _ => simulates_pure 0
    | supersede d v => exact h.supersede d v
  exact hop.attempt.bind fun result => simulates_pure (results ++ [result])

variable {index : ProvenanceIndex τ} {base : ProvenanceIndex σ}

theorem SimulatesReads.verifyChunks (h : SimulatesReads R index base) (py : Stdlib)
    (args : VerifyArgs) (issue : Issue) :
    Simulates R (verifyChunks py index args issue) (verifyChunks py base args issue) := by
  refine (simulates_lift _).bind fun policy => (simulates_lift _).bind fun texts =>
    (simulates_lift _).bind fun _ => Simulates.bind ?_ fun gathered => simulates_lift _
  refine simulates_forEach (fun acc item => ?_) _
  refine (h.verify _).bind fun outcome => (h.lookup _).bind fun entry =>
    (simulates_lift _).bind fun result => ?_
  cases policy.accessControl with
  | none => exact simulates_pure _
  | some evaluator =>
    cases args.requestContext with
    | none => exact simulates_pure _
    | some request => exact (simulates_lift _).bind fun decision => simulates_pure _

/-- Two indexes, in these states, have the same answers and issue the same receipts. -/
structure AnswersAlike (py : Stdlib) (index : ProvenanceIndex τ) (base : ProvenanceIndex σ)
    (t : τ) (s : σ) : Prop where
  verify : ∀ fp, outcomeOf (index.verify fp t) = outcomeOf (base.verify fp s)
  lookup : ∀ fp, outcomeOf (index.lookup fp t) = outcomeOf (base.lookup fp s)
  receipts : ∀ args issue, outcomeOf (verifyChunks py index args issue t) =
    outcomeOf (verifyChunks py base args issue s)

theorem SimulatesReads.answers (h : SimulatesReads R index base) (py : Stdlib) {t : τ} {s : σ}
    (hts : R t s) : AnswersAlike py index base t s where
  verify fp := (h.verify fp t s hts).outcome
  lookup fp := (h.lookup fp t s hts).outcome
  receipts args issue := (h.verifyChunks py args issue t s hts).outcome

end

end Provenex
