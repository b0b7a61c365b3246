import Mathlib.Tactic

/-! Python values as the SDK meets them: what `yaml.safe_load` and `json.loads`
build, what rules and contexts hold. A dict is the list of its items in
insertion order; `==`, truth and lookup follow the language. -/

namespace Provenex

/-- `bytes`. -/
abbrev Bytes := List UInt8

/-- Exceptions. The text is kept where the source writes it; the
interpreter's own texts are not modelled. -/
inductive PyErr
  | policyParseError (msg : String)
  | unsupportedPolicyFeature (msg : String)
  | typeError (msg : Option String)
  | valueError (msg : Option String)
  | attributeError
  | keyError
  | indexError (msg : Option String)
  | overflowError
  | recursionError
  | fileNotFoundError
  | integrityError
  | operationalError
  deriving DecidableEq, Repr

/-- The two subclasses of `PolicyError` a loader may raise on purpose. -/
def PyErr.isPolicyError : PyErr → Bool
  | .policyParseError _ => true
  | .unsupportedPolicyFeature _ => true
  | _ => false

/-- A binary float, by its value. -/
inductive PyFloat
  | finite (q : ℚ)
  | negZero
  | inf (neg : Bool)
  | nan
  deriving DecidableEq

/-- `datetime.date`, a naive and an aware `datetime.datetime`. -/
inductive PyDate
  | date (day : ℤ)
  | naive (us : ℤ)
  | aware (us : ℤ)
  deriving DecidableEq

/-- Hashable scalars: the leaves of a parsed tree and the keys of its mappings. -/
inductive PyAtom
  | none
  | bool (b : Bool)
  | int (i : ℤ)
  | float (f : PyFloat)
  | str (s : String)
  | date (d : PyDate)
  deriving DecidableEq

inductive PyVal
  | atom (a : PyAtom)
  | list (xs : List PyVal)
  | dict (d : List (PyAtom × PyVal))

abbrev PyDict := List (PyAtom × PyVal)

@[elab_as_elim]
theorem PyVal.induction {P : PyVal → Prop} (atom : ∀ a, P (.atom a))
    (list : ∀ xs, (∀ x ∈ xs, P x) → P (.list xs))
    (dict : ∀ d : PyDict, (∀ e ∈ d, P e.2) → P (.dict d)) (v : PyVal) : P v :=
  @PyVal.rec P (fun xs => ∀ x ∈ xs, P x) (fun d => ∀ e ∈ d, P e.2) (fun e => P e.2) atom list dict
    (by simp) (fun _ _ hx hxs => List.forall_mem_cons.mpr ⟨hx, hxs⟩) (by simp)
    (fun _ _ he hd => List.forall_mem_cons.mpr ⟨he, hd⟩) (fun _ _ h => h) v

namespace PyVal

@[match_pattern, reducible] def none : PyVal := .atom .none
@[match_pattern, reducible] def bool (b : Bool) : PyVal := .atom (.bool b)
@[match_pattern, reducible] def int (i : ℤ) : PyVal := .atom (.int i)
@[match_pattern, reducible] def str (s : String) : PyVal := .atom (.str s)

/-- `None` or a string, for the optional fields of records. -/
def ofOption : Option String → PyVal
  | some s => .str s
  | .none => .none

end PyVal

/-! ## Digits -/

/-- The number of digits above which `int` and `str` refuse. -/
def maxIntDigits : ℕ := 4300

/-- Whether a number has at most so many digits. -/
def digitsWithin : ℕ → ℕ → Bool
  | 0, _ => false
  | k + 1, n => n < 10 || digitsWithin k (n / 10)

theorem digitsWithin_iff {k n : ℕ} : digitsWithin (k + 1) n = true ↔ n < 10 ^ (k + 1) := by
  induction k generalizing n with
  | zero => simp [digitsWithin]
  | succ k ih =>
    have hdiv : n / 10 < 10 ^ (k + 1) ↔ n < 10 ^ (k + 1 + 1) := by
      rw [Nat.div_lt_iff_lt_mul (by decide), ← pow_succ]
    have hle : 10 ≤ 10 ^ (k + 1 + 1) := Nat.le_self_pow (by omega) 10
    rw [digitsWithin, Bool.or_eq_true, decide_eq_true_eq, ih, hdiv]
    omega

/-- `str(i)` returns. -/
def writableInt (i : ℤ) : Bool := digitsWithin maxIntDigits i.natAbs

/-- The text of the atom, if it is asked for, does not take too many digits. -/
def PyAtom.printable : PyAtom → Bool
  | .int i => writableInt i
  | _ => true

mutual

/-- `repr(v)` returns. -/
def printable : PyVal → Bool
  | .atom a => a.printable
  | .list xs => printableList xs
  | .dict d => printableEntries d

def printableList : List PyVal → Bool
  | [] => true
  | x :: xs => printable x && printableList xs

def printableEntries : List (PyAtom × PyVal) → Bool
  | [] => true
  | (k, x) :: d => k.printable && printable x && printableEntries d

end

theorem printableList_iff {xs : List PyVal} :
    printableList xs = true ↔ ∀ x ∈ xs, printable x = true := by
  induction xs with
  | nil => simp [printableList]
  | cons x xs ih => rw [printableList, Bool.and_eq_true, ih, List.forall_mem_cons]

theorem printableEntries_iff {d : PyDict} :
    printableEntries d = true ↔ ∀ e ∈ d, e.1.printable = true ∧ printable e.2 = true := by
  induction d with
  | nil => simp [printableEntries]
  | cons e d ih =>
    obtain ⟨k, x⟩ := e
    rw [printableEntries, Bool.and_eq_true, Bool.and_eq_true, ih, List.forall_mem_cons]

/-! ## Building -/

/-- `None`, or the value. -/
def orNull {α : Type} (f : α → PyVal) : Option α → PyVal
  | some a => f a
  | none => .none

def strList (xs : List String) : PyVal := .list (xs.map .str)

/-- `if v is not None: d[k] = v`, for a new key. -/
def optionalItem (k : String) (v : PyVal) : PyDict :=
  match v with
  | .none => []
  | v => [(.str k, v)]

/-! ## Equality -/

/-- The numeric tower compares by exact value. -/
inductive PyNum
  | fin (q : ℚ)
  | inf (neg : Bool)
  deriving DecidableEq

def PyFloat.num? : PyFloat → Option PyNum
  | .finite q => some (.fin q)
  | .negZero => some (.fin 0)
  | .inf neg => some (.inf neg)
  | .nan => .none

def PyAtom.num? : PyAtom → Option PyNum
  | .bool b => some (.fin (if b then 1 else 0))
  | .int i => some (.fin i)
  | .float f => f.num?
  | _ => .none

/-- `a == b` on scalars: `1 == True == 1.0`, and `nan` equals nothing. -/
def PyAtom.eq (a b : PyAtom) : Bool :=
  match a, b with
  | .none, .none => true
  | .str s, .str t => s == t
  | .date d, .date e => d == e
  | a, b =>
    match a.num?, b.num? with
    | some x, some y => x == y
    | _, _ => false

section Dict

variable {V : Type*}

/-- `d.get(k)`. -/
def dictGet (k : PyAtom) (d : List (PyAtom × V)) : Option V :=
  (d.find? fun p => p.1.eq k).map Prod.snd

theorem dictGet_cons (k : PyAtom) (e : PyAtom × V) (d : List (PyAtom × V)) :
    dictGet k (e :: d) = if e.1.eq k then some e.2 else dictGet k d := by
  unfold dictGet
  cases h : e.1.eq k <;> simp [h]

/-- `d.get("name")`, for the string keys the source names. -/
def getKey (d : List (PyAtom × V)) (k : String) : Option V := dictGet (.str k) d

/-- `k in d`. -/
def hasKey (d : List (PyAtom × V)) (k : String) : Bool := (getKey d k).isSome

def keysOf (d : List (PyAtom × V)) : List PyAtom := d.map Prod.fst

/-- `set(d) - allowed`, the allowed keys being strings. -/
def extraKeys (d : List (PyAtom × V)) (allowed : List String) : List PyAtom :=
  (keysOf d).filter fun k => ! allowed.any fun s => k.eq (.str s)

/-- `d.setdefault(k, v)`, without its result. -/
def setDefault (d : List (PyAtom × V)) (k : String) (v : V) : List (PyAtom × V) :=
  if hasKey d k then d else d ++ [(.str k, v)]

end Dict

/-- Every key is a string. -/
def StrKeys (d : PyDict) : Prop := ∀ k ∈ keysOf d, ∃ s, k = .str s

/-- `d[k] = v`. -/
def setItem (d : PyDict) (k : PyAtom) (v : PyVal) : PyDict :=
  if d.any fun e => e.1.eq k then d.map fun e => if e.1.eq k then (e.1, v) else e
  else d ++ [(k, v)]

/-- `d.update(e)`. -/
def updateDict (d e : PyDict) : PyDict := e.foldl (fun d p => setItem d p.1 p.2) d

mutual

/-- `a == b`. Mappings compare without regard to order. -/
def PyVal.eq : PyVal → PyVal → Bool
  | .atom a, .atom b => a.eq b
  | .list xs, .list ys => eqList xs ys
  | .dict d, .dict e => d.length == e.length && eqEntries d e
  | _, _ => false

def eqList : List PyVal → List PyVal → Bool
  | [], [] => true
  | x :: xs, y :: ys => x.eq y && eqList xs ys
  | _, _ => false

def eqEntries : PyDict → PyDict → Bool
  | [], _ => true
  | (k, v) :: rest, e =>
    (match dictGet k e with
      | some w => v.eq w
      | none => false) && eqEntries rest e

end

/-- `v in xs`. -/
def inList (v : PyVal) (xs : List PyVal) : Bool := xs.any fun x => v.eq x

/-- `bool(v)`. -/
def PyVal.truthy : PyVal → Bool
  | .atom .none => false
  | .atom (.bool b) => b
  | .atom (.int i) => i != 0
  | .atom (.float f) => f != .finite 0 && f != .negZero
  | .atom (.str s) => s != ""
  | .atom (.date _) => true
  | .list xs => ! xs.isEmpty
  | .dict d => ! d.isEmpty

/-- `type(v).__name__`. -/
def PyVal.typeName : PyVal → String
  | .atom .none => "NoneType"
  | .atom (.bool _) => "bool"
  | .atom (.int _) => "int"
  | .atom (.float _) => "float"
  | .atom (.str _) => "str"
  | .atom (.date (.date _)) => "date"
  | .atom (.date _) => "datetime"
  | .list _ => "list"
  | .dict _ => "dict"

/-- `isinstance(v, str)`, with the string. -/
def PyVal.str? : PyVal → Option String
  | .str s => some s
  | _ => .none

end Provenex
