import SyncGrammar.Regex.Outcomes

/-!
Matching with steps back. An expression that is not plain is matched against one alternative after
the other: when what follows fails, the search returns to the latest choice. The number of such
returns is limited, and a search that would need more of them is given up.
-/
namespace SyncGrammar

inductive Attempt
  | found (mark : Mark) (left : Nat)
  | failed (left : Nat)
  | exhausted
  deriving DecidableEq, Repr

namespace Attempt

/-- Returns to a choice: if the first alternative failed, tries the second. -/
def orElse (first : Attempt) (second : Nat → Attempt) : Attempt :=
  match first with
  | failed 0 => exhausted
  | failed (left + 1) => second left
  | other => other

end Attempt

namespace Regex

abbrev Continuation := Mark → Nat → Attempt

def runTimes (step : Continuation → Continuation) : Nat → Continuation → Continuation
  | 0, onward => onward
  | count + 1, onward => step (runTimes step count onward)

def runUpTo (step : Continuation → Continuation) (greedy : Bool) (onward : Continuation) :
    Nat → Continuation
  | 0, mark, left => onward mark left
  | count + 1, mark, left =>
    if greedy then (step (runUpTo step greedy onward count) mark left).orElse (onward mark)
    else (onward mark left).orElse (step (runUpTo step greedy onward count) mark)

/-- Goes any number of steps, each of which must get on, then continues. `fuel` bounds their
number. -/
def runStar (step : Continuation → Continuation) (greedy : Bool) (onward : Continuation) :
    Nat → Continuation
  | 0, _, left => .failed left
  | fuel + 1, mark, left =>
    let again : Continuation := fun next left =>
      if next.position = mark.position then .failed left
      else runStar step greedy onward fuel next left
    if greedy then (step again mark left).orElse (onward mark)
    else (onward mark left).orElse (step again mark)

def runFirst (ways : List Mark) (onward : Continuation) : Nat → Attempt :=
  fun left =>
    match ways.head? with
    | some mark => onward mark left
    | none => .failed left

def runEach (ways : List (Nat → Attempt)) : Nat → Attempt :=
  match ways with
  | [] => .failed
  | [last] => last
  | first :: rest => fun left => (first left).orElse (runEach rest)

def runUnless (look : Nat → Attempt) (mark : Mark) (onward : Continuation) : Nat → Attempt :=
  fun left =>
    match look left with
    | .found _ left => .failed left
    | .failed 0 => .exhausted
    | .failed (left + 1) => onward mark left
    | .exhausted => .exhausted

/-- Matches an expression from a mark on and continues behind it. Plain expressions under a look or
in an atomic group are matched without stepping back. -/
def run (subject : Subject) : Regex → Continuation → Continuation
  | empty, onward, mark, left => onward mark left
  | char set, onward, mark, left =>
    match Subject.step? subject set mark with
    | some next => onward next left
    | none => .failed left
  | seq first second, onward, mark, left =>
    first.run subject (second.run subject onward) mark left
  | alt first second, onward, mark, left =>
    (first.run subject onward mark left).orElse (second.run subject onward mark)
  | loop body least most greedy, onward, mark, left =>
    match most with
    | none =>
      runTimes (body.run subject) least
        (runStar (body.run subject) greedy onward (subject.size + 1)) mark left
    | some most =>
      runTimes (body.run subject) (min least most)
        (runUpTo (body.run subject) greedy onward (most - least)) mark left
  | group index body, onward, mark, left =>
    body.run subject (fun inner => onward (inner.capture index mark.position)) mark left
  | backreference index, onward, mark, left =>
    match Subject.recalled? subject index mark with
    | some next => onward next left
    | none => .failed left
  | anchor condition, onward, mark, left =>
    if Subject.holds subject mark condition then onward mark left else .failed left
  | ahead positive body, onward, mark, left =>
    let look (accept : Continuation) : Nat → Attempt :=
      if body.isPlain then runFirst (body.outcomes subject mark) accept
      else body.run subject accept mark
    if positive then look (fun inner => onward { inner with position := mark.position }) left
    else runUnless (look .found) mark onward left
  | behind positive widths body, onward, mark, left =>
    let look (accept : Continuation) : Nat → Attempt :=
      runEach ((widths.filter (· ≤ mark.position)).map fun width =>
        let start := { mark with position := mark.position - width }
        if body.isPlain then
          runFirst ((body.outcomes subject start).filter (·.position = mark.position)) accept
        else
          body.run subject
            (fun inner left =>
              if inner.position = mark.position then accept inner left else .failed left) start)
    if positive then look onward left else runUnless (look .found) mark onward left
  | atomic body, onward, mark, left =>
    if body.isPlain then runFirst (body.outcomes subject mark) onward left
    else
      match body.run subject .found mark left with
      | .found inner left => onward inner left
      | other => other
  | conditional condition yes no, onward, mark, left =>
    match condition.run subject .found mark left with
    | .found inner left => yes.run subject onward inner left
    | .failed (left + 1) => no.run subject onward mark left
    | .failed 0 | .exhausted => .exhausted

end Regex

end SyncGrammar
