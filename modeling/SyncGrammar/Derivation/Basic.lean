import SyncGrammar.Assignment
import SyncGrammar.Production
import SyncGrammar.Substitution

/-!
Derivations. A derivation claims that a part of the input, read as a variable token, corresponds to
a pair of a source and a target. While tokens of that pair are unresolved, the derivation comes with
the values bound to them.
-/
namespace SyncGrammar

structure DerivationKey where
  subtext : Text
  token : Text
  /-- The side that is read, with the tokens that have been resolved written out. -/
  source : Text
  /-- The side that is written, with the tokens that have been resolved written out. -/
  target : Text
  deriving DecidableEq, Repr

namespace DerivationKey

def ofProduction (subtext token : Text) (production : Production) : DerivationKey :=
  ⟨subtext, token, production.source, production.target⟩

/-- Writes `source` and `target` in place of a token on the two sides. -/
def substituted (key : DerivationKey) (token source target : Text) : DerivationKey :=
  { key with
    source := substitute token source key.source
    target := substitute token target key.target }

def compare (a b : DerivationKey) : Ordering :=
  (compareOfLessAndEq a.subtext b.subtext).then <|
    (compareOfLessAndEq a.token b.token).then <|
      (compareOfLessAndEq a.source b.source).then (compareOfLessAndEq a.target b.target)

def body (key : DerivationKey) : Text :=
  ['\''] ++ key.subtext ++ ['\'', ',', ' '] ++ key.token ++ [' ', '-', '>', ' '] ++ key.source ++
    [' ', '/', ' '] ++ key.target

def render (key : DerivationKey) : Text :=
  ['('] ++ key.body ++ [')']

end DerivationKey

/-- A derivation with the values of its unresolved tokens. -/
structure Derivation where
  key : DerivationKey
  assignment : Assignment
  deriving DecidableEq, Repr

namespace Derivation

def isResolved (derivation : Derivation) : Bool :=
  derivation.assignment.isEmpty

/-- Writes `source` and `target` in place of a token, after which `rest` is still to be
resolved. -/
def resolve (derivation : Derivation) (token source target : Text) (rest : Assignment) :
    Derivation :=
  ⟨derivation.key.substituted token source target, rest⟩

def render (derivation : Derivation) : Text :=
  ['('] ++ derivation.key.body ++ [',', ' '] ++ derivation.assignment.render ++ [')']

end Derivation

end SyncGrammar
