import Mathlib.Data.List.DropRight
import Provenex.Lib.JsonReader
import Provenex.Py.Stdlib

/-! Conversions of a value that came out of JSON: `int(v)`, `bytes.fromhex(s)`,
`iter(v)`, and `d[k]`. -/

namespace Provenex

/-! ## Hexadecimal -/

def isAsciiSpace (c : Char) : Bool := c.toNat = 32 ∨ 9 ≤ c.toNat ∧ c.toNat ≤ 13

/-- Two digits a byte; white space may stand between bytes. -/
def unhex : List Char → Option Bytes
  | [] => some []
  | [c] => if isAsciiSpace c then some [] else none
  | c :: d :: cs =>
    if isAsciiSpace c then unhex (d :: cs)
    else match Json.hexValue c, Json.hexValue d with
      | some x, some y => (unhex cs).map fun b => UInt8.ofNat (16 * x + y) :: b
      | _, _ => none

/-- `bytes.fromhex(s)`. -/
def fromhex (s : String) : Except PyErr Bytes :=
  match unhex s.toList with
  | some b => .ok b
  | none => .error (.valueError none)

/-! ## Integers -/

section

variable (py : Stdlib)

/-- The digits of an integer literal, with single underscores between them. -/
def decimalDigits : List Char → Bool → ℕ → Option ℕ
  | [], afterDigit, n => if afterDigit then some n else none
  | c :: cs, afterDigit, n =>
    if c = '_' ∧ afterDigit then decimalDigits cs false n
    else match py.decimal c with
      | some d => decimalDigits cs true (10 * n + d)
      | none => none

/-- The number that so many digits stand for; not more than Python converts. -/
def parseNat (cs : List Char) : Option ℕ :=
  if (cs.filter fun c => c ≠ '_').length ≤ maxIntDigits then decimalDigits py cs false 0 else none

/-- The integer a text stands for. -/
def parseInt (s : String) : Option ℤ :=
  match (s.toList.dropWhile isSpace).rdropWhile isSpace with
  | '-' :: cs => (parseNat py cs).map fun n => -(n : ℤ)
  | '+' :: cs => (parseNat py cs).map fun n => (n : ℤ)
  | cs => (parseNat py cs).map fun n => (n : ℤ)

/-- `int(v)`. -/
def toInt : PyVal → Except PyErr ℤ
  | .atom (.int i) => .ok i
  | .atom (.bool b) => .ok (if b then 1 else 0)
  | .atom (.float (.finite q)) => .ok (q.num.tdiv q.den)
  | .atom (.float .negZero) => .ok 0
  | .atom (.float (.inf _)) => .error .overflowError
  | .atom (.float .nan) => .error (.valueError none)
  | .atom (.str s) =>
    match parseInt py s with
    | some i => .ok i
    | none => .error (.valueError none)
  | _ => .error (.typeError none)

end

/-! ## Containers -/

/-- `iter(v)`. -/
def iterate : PyVal → Except PyErr (List PyVal)
  | .list xs => .ok xs
  | .dict d => .ok ((keysOf d).map .atom)
  | .atom (.str s) => .ok (s.toList.map fun c => .str (String.singleton c))
  | _ => .error (.typeError none)

/-- `d[k]`. -/
def subscript (d : PyDict) (k : String) : Except PyErr PyVal :=
  match getKey d k with
  | some v => .ok v
  | none => .error .keyError

/-- `v or default`. -/
def PyVal.orElse (v default : PyVal) : PyVal := if v.truthy then v else default

end Provenex
