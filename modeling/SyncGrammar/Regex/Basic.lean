import SyncGrammar.Regex.CharClass

namespace SyncGrammar

inductive Anchor
  | textStart
  | textEnd
  | lineStart
  | lineEnd
  | wordBoundary
  | insideWord
  /-- The group of a number has recorded something. -/
  | recorded (index : Nat)
  /-- No further than `place`, where the search began. Each search fills in its own place. -/
  | resumption (place : Nat)
  deriving DecidableEq, Repr

def Anchor.resumedAt (place : Nat) : Anchor → Anchor
  | resumption _ => resumption place
  | other => other

inductive Regex
  | empty
  | char (set : CharClass)
  | seq (left right : Regex)
  /-- Either of two expressions, the left one preferred. -/
  | alt (left right : Regex)
  /-- An expression `least` times or more, at most `most` times if that is given. More repetitions
  are preferred if it is greedy, fewer otherwise. -/
  | loop (body : Regex) (least : Nat) (most : Option Nat) (greedy : Bool)
  /-- An expression whose match is recorded under a number. -/
  | group (index : Nat) (body : Regex)
  /-- The text recorded under a number. -/
  | backreference (index : Nat)
  | anchor (condition : Anchor)
  /-- Whether an expression matches from here on, or does not. -/
  | ahead (positive : Bool) (body : Regex)
  /-- Whether an expression matches up to here, or does not, on one of the given widths. -/
  | behind (positive : Bool) (widths : List Nat) (body : Regex)
  /-- An expression of whose matches only the preferred one counts. -/
  | atomic (body : Regex)
  /-- One of two expressions, behind the preferred match of a condition or in its absence. -/
  | conditional (condition yes no : Regex)
  deriving DecidableEq, Repr

namespace Regex

/-- Whether an expression can be matched without stepping back. -/
def isPlain : Regex → Bool
  | empty | char _ => true
  | seq left right | alt left right => left.isPlain && right.isPlain
  | loop body _ _ _ | group _ body => body.isPlain
  | anchor .textStart | anchor .textEnd | anchor .lineStart | anchor .lineEnd => true
  | anchor _ | backreference _ | ahead _ _ | behind _ _ _ | atomic _ | conditional _ _ _ => false

def width? : Regex → Option Nat
  | empty | anchor _ | ahead _ _ | behind _ _ _ => some 0
  | char _ => some 1
  | seq left right => do return (← left.width?) + (← right.width?)
  | alt left right => do
    let width ← left.width?
    if some width = right.width? then some width else none
  | loop body least most _ => do
    let width ← body.width?
    if most = some least then some (width * least) else none
  | group _ body | atomic body => body.width?
  | conditional condition yes no => do
    let width ← no.width?
    if some width = (do return (← condition.width?) + (← yes.width?)) then some width else none
  | backreference _ => none

def alternatives : Regex → List Regex
  | alt left right => left :: right.alternatives
  | other => [other]

/-- The widths of the alternatives, if each has one. Only such an expression can be looked for
backwards. -/
def lookBehindWidths? (regex : Regex) : Option (List Nat) := do
  return (← regex.alternatives.mapM width?).eraseDups

def isRepeatable : Regex → Bool
  | empty | anchor _ | ahead _ _ | behind _ _ _ => false
  | _ => true

def hasOrderedBounds : Regex → Bool
  | empty | char _ | anchor _ | backreference _ => true
  | seq left right | alt left right => left.hasOrderedBounds && right.hasOrderedBounds
  | loop body least most _ => body.hasOrderedBounds && most.all (least ≤ ·)
  | group _ body | ahead _ body | behind _ _ body | atomic body => body.hasOrderedBounds
  | conditional condition yes no =>
    condition.hasOrderedBounds && yes.hasOrderedBounds && no.hasOrderedBounds

/-- Whether the bounds of repetitions are ordered in every part that is matched as a plain
expression. Where the matcher steps back, a repetition stops at its upper bound whatever its lower
bound is. -/
def isSound : Regex → Bool
  | empty | char _ | anchor _ | backreference _ => true
  | seq left right | alt left right => left.isSound && right.isSound
  | loop body _ _ _ | group _ body => body.isSound
  | ahead _ body | behind _ _ body | atomic body =>
    if body.isPlain then body.hasOrderedBounds else body.isSound
  | conditional condition yes no => condition.isSound && yes.isSound && no.isSound

def isMatchable (regex : Regex) : Bool :=
  if regex.isPlain then regex.hasOrderedBounds else regex.isSound

/-- The expression with the place filled in from which a search is made. -/
def resumedAt (place : Nat) : Regex → Regex
  | empty => empty
  | char set => char set
  | backreference index => backreference index
  | anchor condition => anchor (condition.resumedAt place)
  | seq left right => seq (left.resumedAt place) (right.resumedAt place)
  | alt left right => alt (left.resumedAt place) (right.resumedAt place)
  | loop body least most greedy => loop (body.resumedAt place) least most greedy
  | group index body => group index (body.resumedAt place)
  | ahead positive body => ahead positive (body.resumedAt place)
  | behind positive widths body => behind positive widths (body.resumedAt place)
  | atomic body => atomic (body.resumedAt place)
  | conditional condition yes no =>
    conditional (condition.resumedAt place) (yes.resumedAt place) (no.resumedAt place)

def seqOfReversed : List Regex → Regex
  | [] => empty
  | [last] => last
  | last :: before => seq (seqOfReversed before) last

def altOfReversed : List Regex → Regex
  | [] => empty
  | last :: before => before.foldl (fun rest first => alt first rest) last

end Regex

end SyncGrammar
