import SyncGrammar.Unicode.Blank
import SyncGrammar.Unicode.CaseFold
import SyncGrammar.Unicode.Digit
import SyncGrammar.Unicode.Word

namespace SyncGrammar

inductive CharClass
  | nothing
  /-- The characters from `first` to `last` by code point, both included. -/
  | range (first last : Char)
  /-- The characters whose code points lie in one of some ranges. -/
  | ranges (listed : List (Nat × Nat))
  | decimal
  | word
  | blank
  | union (left right : CharClass)
  | complement (set : CharClass)
  /-- The characters of a set and those that differ from one of them in case only. -/
  | caseless (set : CharClass)
  deriving DecidableEq, Repr

namespace CharClass

def contains : CharClass → Char → Bool
  | nothing, _ => false
  | range first last, c => first ≤ c && c ≤ last
  | ranges listed, c => Unicode.inRanges c.toNat listed
  | decimal, c => Unicode.isDecimal c
  | word, c => Unicode.isWord c
  | blank, c => Unicode.isBlank c
  | union left right, c => left.contains c || right.contains c
  | complement set, c => !set.contains c
  | caseless set, c => (Unicode.caseVariants c).any set.contains

def single (c : Char) : CharClass := range c c

def all : CharClass := complement nothing

def difference (left right : CharClass) : CharClass :=
  complement (union (complement left) right)

def intersection (left right : CharClass) : CharClass :=
  complement (union (complement left) (complement right))

/-- A set, or its complement if `negated` holds. -/
def signed (negated : Bool) (set : CharClass) : CharClass :=
  if negated then complement set else set

def folded (ignoreCase : Bool) (set : CharClass) : CharClass :=
  if ignoreCase then caseless set else set

def hexDigit : CharClass :=
  union (range '0' '9') (union (range 'a' 'f') (range 'A' 'F'))

end CharClass

end SyncGrammar
