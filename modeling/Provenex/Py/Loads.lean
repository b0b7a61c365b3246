import Provenex.Lib.JsonReader
import Provenex.Lib.Rows
import Provenex.Py.Json

/-! `json.dumps` with an indent and in the order of the mapping, and `json.loads`. -/

namespace Provenex

/-! ## `json.dumps` -/

mutual

/-- All scalars and keys are such as `json.dumps` can write. -/
def writable : PyVal → Bool
  | .atom a => a.jsonable
  | .list xs => writableList xs
  | .dict d => writableEntries d

def writableList : List PyVal → Bool
  | [] => true
  | x :: xs => writable x && writableList xs

def writableEntries : PyDict → Bool
  | [] => true
  | (k, x) :: d => k.jsonable && writable x && writableEntries d

end

mutual

/-- The tree that is written without `sort_keys`. -/
def rawJson (py : Stdlib) : PyVal → Json
  | .atom (.str s) => .str s.toList
  | .atom a => .bare (token py a).toList
  | .list xs => .arr (rawJsonList py xs)
  | .dict d => .obj (rawJsonEntries py d)

def rawJsonList (py : Stdlib) : List PyVal → List Json
  | [] => []
  | x :: xs => rawJson py x :: rawJsonList py xs

def rawJsonEntries (py : Stdlib) : PyDict → List (List Char × Json)
  | [] => []
  | (k, x) :: d => ((token py k).toList, rawJson py x) :: rawJsonEntries py d

end

/-- `"\n" + " " * (indent * level)` -/
def newline (indent level : ℕ) : List Char := '\n' :: List.replicate (indent * level) ' '

theorem newline_blank (indent level : ℕ) : ∀ c ∈ newline indent level, Json.isSpace c = true := by
  intro c hc
  rcases List.mem_cons.mp hc with rfl | hc
  · rfl
  · rw [List.eq_of_mem_replicate hc]
    rfl

/-- The white space that goes with `indent`. -/
def layout : Option ℕ → Json.Layout
  | some indent => ⟨newline indent, newline indent, newline_blank indent, newline_blank indent⟩
  | none => ⟨fun _ => [], fun _ => [' '], by simp, by simp [Json.isSpace]⟩

/-- `json.dumps(v, indent=indent, sort_keys=False)` -/
def dumpsIndent (py : Stdlib) (indent : Option ℕ) (v : PyVal) : Except PyErr String :=
  if writable v then .ok (String.ofList ((rawJson py v).write (layout indent) 0))
  else .error ((jsonFault false v).getD (.typeError none))

/-! ## `json.loads` -/

/-- Digits without a leading zero. -/
def isDigits (ds : List Char) : Bool :=
  ds.all Char.isDigit ∧ ds ≠ [] ∧ (ds.head? ≠ some '0' ∨ ds.length = 1)

def isExponent : List Char → Bool
  | c :: ds => (c = 'e' ∨ c = 'E') ∧
    let ds := if ds.head? = some '+' ∨ ds.head? = some '-' then ds.tail else ds
    ds ≠ [] ∧ ds.all Char.isDigit
  | [] => false

/-- What stands after the integer part of a number that is not an integer. -/
def isFraction : List Char → Bool
  | '.' :: ds => ds.takeWhile Char.isDigit ≠ [] ∧
    (ds.dropWhile Char.isDigit = [] ∨ isExponent (ds.dropWhile Char.isDigit))
  | ds => isExponent ds

/-- A number without its sign. -/
def unsigned (t : List Char) : List Char := if t.head? = some '-' then t.tail else t

def readInt (t : List Char) : Option ℤ :=
  if isDigits (unsigned t) then
    let n : ℤ := Nat.ofDigitChars 10 (unsigned t) 0
    some (if t.head? = some '-' then -n else n)
  else none

def isFloat (t : List Char) : Bool :=
  isDigits ((unsigned t).takeWhile Char.isDigit) ∧ isFraction ((unsigned t).dropWhile Char.isDigit)

section

variable (parseFloat : String → PyFloat)

/-- The constant or the number that a token stands for. -/
def readAtom (t : List Char) : Option PyAtom :=
  match String.ofList t with
  | "null" => some .none
  | "true" => some (.bool true)
  | "false" => some (.bool false)
  | "NaN" => some (.float .nan)
  | "Infinity" => some (.float (.inf false))
  | "-Infinity" => some (.float (.inf true))
  | s =>
    match readInt t with
    | some i => if writableInt i then some (.int i) else none
    | none => if isFloat t then some (.float (parseFloat s)) else none

mutual

def ofJson : Json → Option PyVal
  | .bare t => (readAtom parseFloat t).map .atom
  | .str s => some (.str (String.ofList s))
  | .arr xs => (ofJsonList xs).map .list
  | .obj kvs => (ofJsonEntries kvs).map fun d => .dict (d.foldl (Rows.put Prod.fst) [])

def ofJsonList : List Json → Option (List PyVal)
  | [] => some []
  | x :: xs => do
    let x ← ofJson x
    let xs ← ofJsonList xs
    some (x :: xs)

/-- The entries one by one; of those with one key the dict keeps the last. -/
def ofJsonEntries : List (List Char × Json) → Option PyDict
  | [] => some []
  | (k, x) :: kvs => do
    let x ← ofJson x
    let d ← ofJsonEntries kvs
    some ((.str (String.ofList k), x) :: d)

end

/-- `json.loads(s)`; `parseFloat` is what `float` makes of a literal. -/
def loads (s : String) : Except PyErr PyVal :=
  match (Json.read s.toList).bind (ofJson parseFloat) with
  | some v => .ok v
  | none => .error (.valueError none)

end

end Provenex
