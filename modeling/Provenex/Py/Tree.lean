import Provenex.Py.Text
import Provenex.Py.Value

/-! What `yaml.safe_load` returns. Its texts may hold half of a surrogate pair, from an escape; a
tree without such texts is a plain value. -/

namespace Provenex

/-- A leaf or a key of a tree. -/
inductive YamlAtom
  | atom (a : PyAtom)
  | lone (t : LoneText)
  deriving DecidableEq

inductive YamlTree
  | leaf (a : YamlAtom)
  | list (xs : List YamlTree)
  | dict (d : List (YamlAtom × YamlTree))

abbrev YamlDict := List (YamlAtom × YamlTree)

/-! ## Plain values -/

mutual

/-- A value as a tree. -/
def YamlTree.of : PyVal → YamlTree
  | .atom a => .leaf (.atom a)
  | .list xs => .list (treeList xs)
  | .dict d => .dict (treeEntries d)

def treeList : List PyVal → List YamlTree
  | [] => []
  | x :: xs => .of x :: treeList xs

def treeEntries : PyDict → YamlDict
  | [] => []
  | (k, x) :: d => (.atom k, .of x) :: treeEntries d

end

mutual

/-- UTF-8 can hold all texts of the tree. -/
def YamlTree.encodable : YamlTree → Bool
  | .leaf (.atom _) => true
  | .leaf (.lone _) => false
  | .list xs => encodableList xs
  | .dict d => encodableEntries d

def encodableList : List YamlTree → Bool
  | [] => true
  | x :: xs => x.encodable && encodableList xs

def encodableEntries : YamlDict → Bool
  | [] => true
  | (.atom _, x) :: d => x.encodable && encodableEntries d
  | (.lone _, _) :: _ => false

end

/-! ## What a loader sees

A loader tells a text from those that the source names, looks for dots, digits and white space in
it, and writes it in messages. Half of a pair is none of these, and neither is the character that
stands for it here. -/

/-- The replacement character. -/
def replacementChar : Char := '\uFFFD'

def CodePoint.shown : CodePoint → Char
  | .char c => c
  | .half _ => replacementChar

def YamlAtom.shown : YamlAtom → PyAtom
  | .atom a => a
  | .lone t => .str (String.ofList (t.text.map CodePoint.shown))

mutual

/-- The tree with a replacement character for each half of a pair. -/
def YamlTree.shown : YamlTree → PyVal
  | .leaf a => .atom a.shown
  | .list xs => .list (shownList xs)
  | .dict d => .dict (shownEntries d)

def shownList : List YamlTree → List PyVal
  | [] => []
  | x :: xs => x.shown :: shownList xs

def shownEntries : YamlDict → PyDict
  | [] => []
  | (k, x) :: d => (k.shown, x.shown) :: shownEntries d

end

/-- `d.get(k)`, for the keys that the source names. -/
def treeKey (d : YamlDict) (k : String) : Option YamlTree :=
  (d.find? fun e => e.1.shown.eq (.str k)).map Prod.snd

end Provenex
