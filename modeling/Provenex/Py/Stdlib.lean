import Provenex.Lib.Json
import Provenex.Py.Tree

/-! The part of Python's library the SDK calls. Text and bytes are computed;
digests and the like are fields of `Stdlib`, about which a theorem assumes only
what it names. -/

namespace Provenex

/-- `s.encode("utf-8")`. -/
def encodeUtf8 (s : String) : Bytes := s.toList.flatMap String.utf8EncodeChar

/-- `s.startswith(p)`. -/
def startsWith (s p : String) : Bool := p.toList.isPrefixOf s.toList

/-- `sep.join(parts)`. -/
def joinWith (sep : String) : List String → String
  | [] => ""
  | [s] => s
  | s :: rest => s ++ sep ++ joinWith sep rest

/-- `b.hex()`. -/
def hexdigest (b : Bytes) : String :=
  String.ofList (b.flatMap fun x => [Json.hexDigit (x.toNat / 16), Json.hexDigit (x.toNat % 16)])

def isAscii (s : String) : Bool := s.toList.all fun c => c.toNat < 128

/-- `hmac.compare_digest`, on strings. -/
def compareDigest (a b : String) : Except PyErr Bool :=
  if isAscii a ∧ isAscii b then .ok (a == b) else .error (.typeError none)

/-- `s.endswith("Z")`, with what stands before it. -/
def stripZ (s : String) : Option String :=
  if s.toList.getLast? = some 'Z' then some (String.ofList s.toList.dropLast) else none

def splitDotsAux : List Char → List (List Char)
  | [] => [[]]
  | c :: cs =>
    if c = '.' then [] :: splitDotsAux cs
    else match splitDotsAux cs with
      | [] => [[c]]
      | w :: ws => (c :: w) :: ws

/-- `s.split(".")`. -/
def splitDots (s : String) : List String := (splitDotsAux s.toList).map String.ofList

/-- `s.split(".", 1)[0]`. -/
def beforeDot (s : String) : String := String.ofList (s.toList.takeWhile fun c => c ≠ '.')

/-- The characters `\s` matches. -/
def isSpace (c : Char) : Bool :=
  (9 ≤ c.toNat ∧ c.toNat ≤ 13) ∨ (28 ≤ c.toNat ∧ c.toNat ≤ 32) ∨ c.toNat ∈ [133, 160, 5760] ∨
    (8192 ≤ c.toNat ∧ c.toNat ≤ 8202) ∨ c.toNat ∈ [8232, 8233, 8239, 8287, 12288]

/-- A `datetime`: microseconds from the epoch, of its own clock where it is naive. -/
structure Datetime where
  aware : Bool
  us : ℤ
  deriving DecidableEq, Repr

/-- `yaml.YAMLError`: its text, and line and column where it has a mark. -/
structure YamlError where
  text : String
  mark : Option (ℕ × ℕ)

structure Stdlib where
  /-- `hashlib.sha256(b).digest()` -/
  sha256 : Bytes → Bytes
  /-- `hmac.new(key, payload, sha256).digest()` -/
  hmacSha256 : Bytes → Bytes → Bytes
  /-- `repr(v)` -/
  repr : PyVal → String
  /-- `str(v)`, of what is not a string -/
  str : PyVal → String
  /-- `float.__repr__`, of a finite float -/
  floatRepr : PyFloat → String
  /-- `fnmatch.fnmatchcase(name, pattern)` -/
  fnmatchcase : String → String → Bool
  /-- `datetime.fromisoformat(s)`; none for `ValueError` -/
  fromisoformat : String → Option Datetime
  /-- `int(dt.timestamp())`, of the UTC time so many microseconds from the epoch -/
  intTimestamp : ℤ → ℤ
  /-- The value of a character that `\d` matches -/
  decimal : Char → Option ℕ
  /-- `unicodedata.normalize("NFC", s)` -/
  nfc : String → String
  /-- `s.casefold()` -/
  casefold : String → String
  /-- Whether a loop over the set of the two names under `defaults` meets `unknown_metadata`
  first; it hangs on the seed of the hashes -/
  unknownMetadataFirst : Bool
  /-- Whether `import yaml` succeeds -/
  yamlInstalled : Bool
  /-- `yaml.safe_load(text)`: a tree, a `YAMLError`, or another exception -/
  safeLoad : String → Except (YamlError ⊕ PyErr) YamlTree

/-- Implements nothing; a concrete run fills in what it calls. -/
def Stdlib.blank : Stdlib where
  sha256 := fun _ => List.replicate 32 0
  hmacSha256 := fun _ _ => List.replicate 32 0
  repr := fun _ => ""
  str := fun _ => ""
  floatRepr := fun _ => ""
  fnmatchcase := fun _ _ => false
  fromisoformat := fun _ => none
  intTimestamp := fun us => us / 1000000
  decimal := fun c => if c.isDigit then some (c.toNat - 48) else none
  nfc := id
  casefold := id
  unknownMetadataFirst := true
  yamlInstalled := true
  safeLoad := fun _ => .ok (.of .none)

/-- `format(v)`, as an f-string writes it. -/
def Stdlib.format (py : Stdlib) : PyVal → String
  | .str s => s
  | v => py.str v

/-- `str(i)`. -/
def intText (i : ℤ) : Except PyErr String :=
  if writableInt i then .ok (toString i) else .error (.valueError none)

/-- `repr(v)`, of a value with integers of any size. -/
def Stdlib.reprOf (py : Stdlib) (v : PyVal) : Except PyErr String :=
  if printable v then .ok (py.repr v) else .error (.valueError none)

/-- `format(v)`, of such a value. -/
def Stdlib.formatOf (py : Stdlib) (v : PyVal) : Except PyErr String :=
  if printable v then .ok (py.format v) else .error (.valueError none)

theorem intText_ok {i : ℤ} {s : String} :
    intText i = .ok s ↔ writableInt i = true ∧ toString i = s := by
  unfold intText
  split_ifs with h <;> simp [h]

private theorem hexDigit_ascii : ∀ n < 16, (Json.hexDigit n).toNat < 128 := by decide

theorem hexdigest_ascii (b : Bytes) : isAscii (hexdigest b) = true := by
  simp only [isAscii, hexdigest, String.toList_ofList, List.all_eq_true, List.mem_flatMap,
    List.mem_cons, List.not_mem_nil, or_false, decide_eq_true_eq]
  rintro c ⟨x, -, rfl | rfl⟩
  · exact hexDigit_ascii _ (by have := x.toNat_lt; omega)
  · exact hexDigit_ascii _ (Nat.mod_lt _ (by decide))

theorem compareDigest_self {a : String} (h : isAscii a = true) : compareDigest a a = .ok true := by
  simp [compareDigest, h]

theorem compareDigest_ok {a b : String} (ha : isAscii a = true) :
    (∃ same, compareDigest a b = .ok same) ↔ isAscii b = true := by
  simp only [compareDigest, ha, true_and]
  split_ifs with hb <;> simp [hb]

theorem compareDigest_true {a b : String} (ha : isAscii a = true) :
    compareDigest a b = .ok true ↔ a = b := by
  unfold compareDigest
  constructor
  · intro h
    split_ifs at h
    simpa using h
  · rintro rfl
    simp [ha]

end Provenex
