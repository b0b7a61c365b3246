import Provenex.Py.Stdlib

/-! `sorted` on the keys of a mapping, and `json.dumps` with `sort_keys=True`,
tight separators and `ensure_ascii=False`. -/

namespace Provenex

/-! ## Ordering keys -/

/-- Keys of one class can be ordered among themselves; those of two cannot. -/
inductive KeyClass
  | none
  | num
  | str
  | date
  | naive
  | aware
  deriving DecidableEq

def PyAtom.keyClass : PyAtom → KeyClass
  | .none => .none
  | .bool _ => .num
  | .int _ => .num
  | .float _ => .num
  | .str _ => .str
  | .date (.date _) => .date
  | .date (.naive _) => .naive
  | .date (.aware _) => .aware

def PyNum.le : PyNum → PyNum → Bool
  | .inf true, _ => true
  | _, .inf false => true
  | .fin p, .fin q => p ≤ q
  | .fin _, .inf true => false
  | .inf false, _ => false

def PyDate.le : PyDate → PyDate → Bool
  | .date a, .date b => a ≤ b
  | .naive a, .naive b => a ≤ b
  | .aware a, .aware b => a ≤ b
  | _, _ => true

/-- `not (b < a)`, for keys of one class. -/
def PyAtom.le (a b : PyAtom) : Bool :=
  match a, b with
  | .str s, .str t => s ≤ t
  | .date d, .date e => d.le e
  | a, b =>
    match a.num?, b.num? with
    | some x, some y => x.le y
    | _, _ => true

/-- `sorted(keys)` does not raise. -/
def sortable : List PyAtom → Bool
  | [] => true
  | k :: ks => ks.all fun l => l.keyClass = k.keyClass

def leKey {V : Type} (a b : PyAtom × V) : Prop := a.1.le b.1 = true

instance {V : Type} : DecidableRel (leKey (V := V)) := fun a b => by unfold leKey; infer_instance

/-- `sorted(d.items())`; keys are unique, so values are never compared. -/
def sortEntries {V : Type} (d : List (PyAtom × V)) : List (PyAtom × V) := d.insertionSort leKey

/-- `sorted(keys)`, as an f-string writes it. -/
def sortedRepr (py : Stdlib) (keys : List PyAtom) : Except PyErr String :=
  if sortable keys then
    py.reprOf (.list ((keys.insertionSort fun a b => a.le b = true).map .atom))
  else .error (.typeError none)

/-! ## `json.dumps` -/

/-- Scalars, and keys, that JSON can write. -/
def PyAtom.jsonable : PyAtom → Bool
  | .date _ => false
  | .int i => writableInt i
  | _ => true

@[simp] theorem PyAtom.jsonable_str (s : String) : (PyAtom.str s).jsonable = true := rfl

/-- Keys that can be sorted, and that JSON can write. -/
def jsonableKeys (keys : List PyAtom) : Bool := sortable keys ∧ keys.all PyAtom.jsonable

mutual

def jsonable : PyVal → Bool
  | .atom a => a.jsonable
  | .list xs => jsonableList xs
  | .dict d => jsonableKeys (keysOf d) && jsonableEntries d

def jsonableList : List PyVal → Bool
  | [] => true
  | x :: xs => jsonable x && jsonableList xs

def jsonableEntries : PyDict → Bool
  | [] => true
  | (_, x) :: d => jsonable x && jsonableEntries d

end

theorem jsonableList_iff {xs : List PyVal} :
    jsonableList xs = true ↔ ∀ x ∈ xs, jsonable x = true := by
  induction xs with
  | nil => simp [jsonableList]
  | cons x xs ih => rw [jsonableList, Bool.and_eq_true, ih, List.forall_mem_cons]

theorem jsonableEntries_iff {d : PyDict} :
    jsonableEntries d = true ↔ ∀ e ∈ d, jsonable e.2 = true := by
  induction d with
  | nil => simp [jsonableEntries]
  | cons e d ih => rw [jsonableEntries, Bool.and_eq_true, ih, List.forall_mem_cons]

theorem jsonable_item {xs : List PyVal} (h : jsonable (.list xs) = true) :
    ∀ x ∈ xs, jsonable x = true :=
  jsonableList_iff.mp h

theorem jsonable_entry {d : PyDict} (h : jsonable (.dict d) = true) :
    ∀ e ∈ d, jsonable e.2 = true := by
  rw [jsonable, Bool.and_eq_true] at h
  exact jsonableEntries_iff.mp h.2

theorem jsonable_key {d : PyDict} (h : jsonable (.dict d) = true) :
    ∀ e ∈ d, e.1.jsonable = true := by
  rw [jsonable, Bool.and_eq_true, jsonableKeys, decide_eq_true_eq, List.all_eq_true] at h
  exact fun e he => h.1.2 e.1 (List.mem_map_of_mem he)

theorem PyAtom.printable_of_jsonable {a : PyAtom} (h : a.jsonable = true) : a.printable = true := by
  cases a with
  | int i => exact h
  | none | bool b | float f | str s | date d => rfl

/-- What JSON can write can be written as `repr` writes it. -/
theorem printable_of_jsonable (v : PyVal) (h : jsonable v = true) : printable v = true := by
  induction v using PyVal.induction with
  | atom a =>
    rw [jsonable] at h
    rw [printable]
    exact PyAtom.printable_of_jsonable h
  | list xs ih =>
    rw [printable, printableList_iff]
    exact fun x hx => ih x hx (jsonable_item h x hx)
  | dict d ih =>
    rw [printable, printableEntries_iff]
    exact fun e he =>
      ⟨PyAtom.printable_of_jsonable (jsonable_key h e he), ih e he (jsonable_entry h e he)⟩

/-- What is raised of a scalar that JSON cannot write. -/
def PyAtom.jsonFault : PyAtom → Option PyErr
  | .date _ => some (.typeError .none)
  | .int i => if writableInt i then .none else some (.valueError .none)
  | _ => .none

mutual

/-- The first exception met in writing a value, with `sort_keys` or without. -/
def jsonFault (sortKeys : Bool) : PyVal → Option PyErr
  | .atom a => a.jsonFault
  | .list xs => jsonFaultList sortKeys xs
  | .dict d =>
    if ¬ sortKeys then (jsonFaultEntries sortKeys d).findSome? Prod.snd
    else if sortable (keysOf d) then (sortEntries (jsonFaultEntries sortKeys d)).findSome? Prod.snd
    else some (.typeError none)

def jsonFaultList (sortKeys : Bool) : List PyVal → Option PyErr
  | [] => none
  | x :: xs => (jsonFault sortKeys x).or (jsonFaultList sortKeys xs)

def jsonFaultEntries (sortKeys : Bool) : PyDict → List (PyAtom × Option PyErr)
  | [] => []
  | (k, x) :: d => (k, k.jsonFault.or (jsonFault sortKeys x)) :: jsonFaultEntries sortKeys d

end

theorem jsonFaultList_eq {b : Bool} (xs : List PyVal) :
    jsonFaultList b xs = xs.findSome? (jsonFault b) := by
  induction xs with
  | nil => rfl
  | cons x xs ih =>
    rw [jsonFaultList, ih, List.findSome?_cons]
    cases jsonFault b x <;> rfl

theorem jsonFaultEntries_eq {b : Bool} (d : PyDict) :
    jsonFaultEntries b d = d.map fun e => (e.1, e.1.jsonFault.or (jsonFault b e.2)) := by
  induction d with
  | nil => rfl
  | cons e d ih => rw [jsonFaultEntries, ih, List.map_cons]

theorem PyAtom.jsonFault_none {a : PyAtom} : a.jsonFault = .none ↔ a.jsonable = true := by
  cases a <;> simp [PyAtom.jsonFault, PyAtom.jsonable]

/-- Writing a value raises nothing exactly where JSON can write it. -/
theorem jsonFault_none (v : PyVal) : jsonFault true v = none ↔ jsonable v = true := by
  induction v using PyVal.induction with
  | atom a => rw [jsonFault, jsonable, PyAtom.jsonFault_none]
  | list xs ih =>
    rw [jsonFault, jsonable, jsonFaultList_eq, jsonableList_iff, List.findSome?_eq_none_iff]
    exact forall₂_congr ih
  | dict d ih =>
    have hmem (x : PyAtom × Option PyErr) :
        x ∈ sortEntries (jsonFaultEntries true d) ↔ x ∈ jsonFaultEntries true d := by
      simp [sortEntries, List.mem_insertionSort]
    have hentries : (∀ x ∈ jsonFaultEntries true d, x.2 = none) ↔
        (keysOf d).all PyAtom.jsonable = true ∧ jsonableEntries d = true := by
      rw [jsonFaultEntries_eq, List.forall_mem_map, jsonableEntries_iff, keysOf, List.all_eq_true,
        List.forall_mem_map, ← forall₂_and]
      exact forall₂_congr fun e he => by
        rw [Option.or_eq_none_iff, PyAtom.jsonFault_none, ih e he]
    rw [jsonFault, jsonable, jsonableKeys, if_neg (by simp)]
    by_cases hs : sortable (keysOf d) = true
    · rw [if_pos hs, List.findSome?_eq_none_iff]
      simp only [hmem]
      rw [hentries]
      simp [hs]
    · simp [hs]

/-- What is raised in writing a value. -/
def IsJsonError (e : PyErr) : Prop := e = .typeError none ∨ e = .valueError none

theorem PyAtom.jsonFault_error {a : PyAtom} {e : PyErr} (h : a.jsonFault = some e) :
    IsJsonError e := by
  cases a with
  | date d => exact .inl (Option.some.inj h).symm
  | int i =>
    rw [PyAtom.jsonFault] at h
    split_ifs at h
    exact .inr (Option.some.inj h).symm
  | none | bool b | float f | str s => cases h

theorem jsonFault_error {b : Bool} {e : PyErr} (v : PyVal) (h : jsonFault b v = some e) :
    IsJsonError e := by
  induction v using PyVal.induction with
  | atom a =>
    rw [jsonFault] at h
    exact PyAtom.jsonFault_error h
  | list xs ih =>
    rw [jsonFault, jsonFaultList_eq] at h
    obtain ⟨x, hx, he⟩ := List.exists_of_findSome?_eq_some h
    exact ih x hx he
  | dict d ih =>
    have hentry : ∀ x ∈ jsonFaultEntries b d, x.2 = some e → IsJsonError e := by
      rw [jsonFaultEntries_eq, List.forall_mem_map]
      intro f hf he
      rcases Option.or_eq_some_iff.mp he with he | ⟨-, he⟩
      · exact PyAtom.jsonFault_error he
      · exact ih f hf he
    rw [jsonFault] at h
    split_ifs at h
    · obtain ⟨x, hx, he⟩ := List.exists_of_findSome?_eq_some h
      exact hentry x ((List.perm_insertionSort _ _).mem_iff.mp hx) he
    · exact .inl (Option.some.inj h).symm
    · obtain ⟨x, hx, he⟩ := List.exists_of_findSome?_eq_some h
      exact hentry x hx he

def floatToken (py : Stdlib) : PyFloat → String
  | .nan => "NaN"
  | .inf false => "Infinity"
  | .inf true => "-Infinity"
  | f => py.floatRepr f

/-- Scalars other than strings; also what such a key is turned into. -/
def token (py : Stdlib) : PyAtom → String
  | .none => "null"
  | .bool true => "true"
  | .bool false => "false"
  | .int i => toString i
  | .float f => floatToken py f
  | .str s => s
  | .date _ => ""

mutual

def toJson (py : Stdlib) : PyVal → Json
  | .atom (.str s) => .str s.toList
  | .atom a => .bare (token py a).toList
  | .list xs => .arr (toJsonList py xs)
  | .dict d => .obj ((sortEntries (toJsonEntries py d)).map fun e => ((token py e.1).toList, e.2))

def toJsonList (py : Stdlib) : List PyVal → List Json
  | [] => []
  | x :: xs => toJson py x :: toJsonList py xs

def toJsonEntries (py : Stdlib) : PyDict → List (PyAtom × Json)
  | [] => []
  | (k, x) :: d => (k, toJson py x) :: toJsonEntries py d

end

/-- `json.dumps(v, sort_keys=True, separators=(",", ":"), ensure_ascii=False)` -/
def dumps (py : Stdlib) (v : PyVal) : Except PyErr String :=
  if jsonable v then .ok (String.ofList (toJson py v).text)
  else .error ((jsonFault true v).getD (.typeError none))

theorem dumps_error {py : Stdlib} {v : PyVal} {e : PyErr} (h : dumps py v = .error e) :
    IsJsonError e := by
  unfold dumps at h
  split_ifs at h with hj
  obtain rfl := Except.error.inj h
  cases hf : jsonFault true v with
  | none => exact .inl rfl
  | some e => exact jsonFault_error v hf

end Provenex
