import Provenex.Py.Json
import Provenex.Py.Text

/-! The values of `json.loads`, on a text of unknown origin. The escape of half a surrogate pair
is read too, as a code point that UTF-8 has no bytes for. -/

namespace Provenex

/-- The values of `json.loads`, and integers of any size. -/
inductive JsonVal
  | null
  | bool (b : Bool)
  | int (i : ℤ)
  | float (f : PyFloat)
  | text (s : PyText)
  | list (xs : List JsonVal)
  | dict (d : List (PyText × JsonVal))

abbrev JsonObject := List (PyText × JsonVal)

namespace JsonVal

/-- `bool(v)`. -/
def truthy : JsonVal → Bool
  | .null => false
  | .bool b => b
  | .int i => i != 0
  | .float f => f != .finite 0 && f != .negZero
  | .text s => ! s.isEmpty
  | .list xs => ! xs.isEmpty
  | .dict d => ! d.isEmpty

/-- `v == s`. -/
def isText (v : JsonVal) (s : String) : Bool :=
  match v with
  | .text t => t = PyText.of s
  | _ => false

/-- `v or ""`. -/
def orEmpty (v : JsonVal) : JsonVal := if v.truthy then v else .text []

end JsonVal

/-- `d.get(k)`. -/
def JsonObject.get (d : JsonObject) (k : String) : JsonVal :=
  ((d.find? fun e => e.1 = PyText.of k).map Prod.snd).getD .null

mutual

/-- The same value, where UTF-8 can hold all of its texts and no integer has too many digits. -/
def JsonVal.pyVal? : JsonVal → Option PyVal
  | .null => some .none
  | .bool b => some (.bool b)
  | .int i => if writableInt i then some (.int i) else none
  | .float f => some (.atom (.float f))
  | .text s => s.string?.map .str
  | .list xs => (pyList? xs).map .list
  | .dict d => (pyEntries? d).map .dict

def pyList? : List JsonVal → Option (List PyVal)
  | [] => some []
  | x :: xs => do
    let x ← x.pyVal?
    let xs ← pyList? xs
    some (x :: xs)

def pyEntries? : JsonObject → Option PyDict
  | [] => some []
  | (k, x) :: d => do
    let k ← k.string?
    let x ← x.pyVal?
    let d ← pyEntries? d
    some ((.str k, x) :: d)

end

end Provenex
