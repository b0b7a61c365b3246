import Provenex.Index.Writable

/-! `index/bloom.py`: a filter in front of an index. The filter that is not the no-op one is
a parameter, given by its methods. -/

namespace Provenex

/-- The methods of `BloomFilterIndex`, over the states of a filter. -/
structure BloomFilterIndex (φ : Type) where
  probablyContains : φ → String → Bool
  add : φ → String → φ
  size : φ → ℕ

def noopBloomFilter : BloomFilterIndex ℕ where
  probablyContains := fun _ _ => true
  add := fun n _ => n + 1
  size := id

/-! ## `BloomAcceleratedIndex` -/

namespace BloomAcceleratedIndex

section

variable {σ φ α : Type}

/-- A call on `self._base`. -/
def onBase (x : EStateM PyErr σ α) : EStateM PyErr (σ × φ) α := fun s =>
  match x s.1 with
  | .ok a base => .ok a (base, s.2)
  | .error e base => .error e (base, s.2)

variable (base : WritableIndex σ) (bloom : BloomFilterIndex φ)

/-- The guard of the reading methods. -/
def guarded (fingerprint : String) (absent : α) (x : EStateM PyErr σ α) : EStateM PyErr (σ × φ) α :=
  fun s =>
    if ¬ bloom.probablyContains s.2 fingerprint then .ok absent s
    else onBase x s

def accelerated : WritableIndex (σ × φ) where
  verify := fun fingerprint => guarded bloom fingerprint .unverified (base.verify fingerprint)
  lookup := fun fingerprint => guarded bloom fingerprint none (base.lookup fingerprint)
  add := fun now a => do
    onBase (base.add now a)
    modify fun s => (s.1, bloom.add s.2 a.fingerprint)
  setAuthorization := fun d authorized => onBase (base.setAuthorization d authorized)
  supersede := fun d v => onBase (base.supersede d v)

end

end BloomAcceleratedIndex

end Provenex
