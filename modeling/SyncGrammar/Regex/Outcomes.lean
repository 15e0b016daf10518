import SyncGrammar.Regex.Mark

/-!
All ways in which an expression matches from a place on, in order of preference. Of the ways that
end at the same place only the preferred one is kept: for a plain expression, what follows depends
on that place alone. So the number of ways is never greater than the number of places.
-/
namespace SyncGrammar

namespace Mark

/-- The marks of a list, without those whose place stands in `seen` or earlier in the list. -/
def distinctFrom (seen : List Nat) : List Mark → List Mark
  | [] => []
  | mark :: rest =>
    if seen.contains mark.position then distinctFrom seen rest
    else mark :: distinctFrom (mark.position :: seen) rest

def distinct (marks : List Mark) : List Mark :=
  distinctFrom [] marks

end Mark

namespace Regex

def follow (ways : List Mark) (step : Mark → List Mark) : List Mark :=
  Mark.distinct (ways.flatMap step)

def times (step : Mark → List Mark) : Nat → Mark → List Mark
  | 0, mark => [mark]
  | count + 1, mark => follow (times step count mark) step

def upTo (step : Mark → List Mark) (greedy : Bool) : Nat → Mark → List Mark
  | 0, mark => [mark]
  | count + 1, mark =>
    let further := (step mark).flatMap (upTo step greedy count)
    Mark.distinct (if greedy then further ++ [mark] else mark :: further)

inductive LoopTask
  /-- Go one step from a place, unless that has been done. -/
  | enter (mark : Mark)
  /-- Having arrived at a place, go on or leave, unless that has been done. -/
  | arrive (mark : Mark)
  /-- Leave the loop at a place. -/
  | leave (mark : Mark)
  deriving DecidableEq, Repr

/-- Works off the tasks of an unbounded loop, of which each place is entered and arrived at once
only, and lists the marks at which the loop is left. `fuel` bounds the number of tasks. -/
def explore (step : Mark → List Mark) (greedy : Bool) :
    Nat → List Nat → List Nat → List LoopTask → List Mark
  | 0, _, _, _ => []
  | _, _, _, [] => []
  | fuel + 1, entered, arrived, .enter mark :: rest =>
    if entered.contains mark.position then explore step greedy fuel entered arrived rest
    else
      explore step greedy fuel (mark.position :: entered) arrived
        ((step mark).map .arrive ++ rest)
  | fuel + 1, entered, arrived, .arrive mark :: rest =>
    if arrived.contains mark.position then explore step greedy fuel entered arrived rest
    else
      explore step greedy fuel entered (mark.position :: arrived)
        (if greedy then .enter mark :: .leave mark :: rest
          else .leave mark :: .enter mark :: rest)
  | fuel + 1, entered, arrived, .leave mark :: rest =>
    mark :: explore step greedy fuel entered arrived rest

/-- The ways to go `least` steps or more. Each of the places up to the end of the subject is entered
at most once and leads to no more places than there are, which bounds the number of tasks. -/
def atLeast (subject : Subject) (step : Mark → List Mark) (least : Nat) (greedy : Bool)
    (mark : Mark) : List Mark :=
  let fuel := 4 * (subject.size + 2) * (subject.size + 2)
  match least with
  | 0 =>
    let further := explore step greedy fuel [] [] [.enter mark]
    Mark.distinct (if greedy then further ++ [mark] else mark :: further)
  | least + 1 =>
    Mark.distinct (explore step greedy fuel [] [] ((times step least mark).map .enter))

def runLength (subject : Subject) (set : CharClass) : Nat → Nat → Nat
  | 0, _ => 0
  | limit + 1, position =>
    if subject[position]?.any set.contains then runLength subject set limit (position + 1) + 1
    else 0

def runs (subject : Subject) (set : CharClass) (least : Nat) (most : Option Nat) (greedy : Bool)
    (mark : Mark) : List Mark :=
  let length := runLength subject set (most.getD subject.size) mark.position
  let ways := (List.range' least (length + 1 - least)).map fun count =>
    { mark with position := mark.position + count }
  if greedy then ways.reverse else ways

/-- The ways in which an expression matches from a place on, the preferred one first. -/
def outcomes (subject : Subject) : Regex → Mark → List Mark
  | empty, mark => [mark]
  | char set, mark => (Subject.step? subject set mark).toList
  | seq left right, mark => follow (left.outcomes subject mark) (right.outcomes subject)
  | alt left right, mark =>
    Mark.distinct (left.outcomes subject mark ++ right.outcomes subject mark)
  | loop (char set) least most greedy, mark => runs subject set least most greedy mark
  | loop body least most greedy, mark =>
    match most with
    | none => atLeast subject (body.outcomes subject) least greedy mark
    | some most =>
      follow (times (body.outcomes subject) (min least most) mark)
        (upTo (body.outcomes subject) greedy (most - least))
  | group index body, mark =>
    (body.outcomes subject mark).map (·.capture index mark.position)
  | backreference index, mark => (Subject.recalled? subject index mark).toList
  | anchor condition, mark => if Subject.holds subject mark condition then [mark] else []
  | ahead positive body, mark =>
    match (body.outcomes subject mark).head? with
    | some inner => if positive then [{ inner with position := mark.position }] else []
    | none => if positive then [] else [mark]
  | behind positive widths body, mark =>
    let starts := (widths.filter (· ≤ mark.position)).map (mark.position - ·)
    let ways := starts.flatMap fun start =>
      (body.outcomes subject { mark with position := start }).filter
        (·.position = mark.position)
    match ways.head? with
    | some inner => if positive then [inner] else []
    | none => if positive then [] else [mark]
  | atomic body, mark => (body.outcomes subject mark).head?.toList
  | conditional condition yes no, mark =>
    match (condition.outcomes subject mark).head? with
    | some inner => yes.outcomes subject inner
    | none => no.outcomes subject mark

end Regex

end SyncGrammar
