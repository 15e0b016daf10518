import SyncGrammar.Regex.Backtracking

namespace SyncGrammar

/-- The number of times that one search may return to a choice. -/
def returnLimit : Nat := 1000000

inductive SearchResult
  | matched (start : Nat) (mark : Mark)
  | unmatched
  | givenUp
  deriving DecidableEq, Repr

structure Match where
  start : Nat
  mark : Mark
  deriving DecidableEq, Repr

/-- Where a match counts as begun: at its start, unless a later place has been recorded as number
zero. -/
def Match.begin (found : Match) : Nat :=
  ((found.mark.group? 0).map Prod.fst).getD found.start

structure Searched where
  found : List Match
  givenUp : Bool
  deriving DecidableEq, Repr

namespace Regex

def searchPlain (regex : Regex) (subject : Subject) : Nat → Nat → SearchResult
  | 0, _ => .unmatched
  | count + 1, start =>
    match (regex.outcomes subject ⟨start, []⟩).head? with
    | some mark => .matched start mark
    | none => searchPlain regex subject count (start + 1)

/-- Searches for a match that starts at one of `count` places from `start` on, stepping back where
needed. Going on to the next place is a return as well. -/
def searchBack (regex : Regex) (subject : Subject) : Nat → Nat → Nat → SearchResult
  | 0, _, _ => .unmatched
  | count + 1, start, left =>
    match regex.run subject .found ⟨start, []⟩ left with
    | .found mark _ => .matched start mark
    | .failed 0 => .givenUp
    | .failed (left + 1) => searchBack regex subject count (start + 1) left
    | .exhausted => .givenUp

def search (regex : Regex) (subject : Subject) (start : Nat) : SearchResult :=
  let count := subject.size + 1 - start
  if regex.isPlain then searchPlain regex subject count start
  else searchBack (regex.resumedAt start) subject count start returnLimit

/-- Finds the matches that start at `start` or later. An empty match at `previous`, the end of the
match before, does not count; behind an empty match the search goes on one character further.
`fuel` bounds the number of searches. -/
def matchesFrom (regex : Regex) (subject : Subject) : Nat → Nat → Option Nat → Searched
  | 0, _, _ => ⟨[], false⟩
  | fuel + 1, start, previous =>
    match regex.search subject start with
    | .unmatched => ⟨[], false⟩
    | .givenUp => ⟨[], true⟩
    | .matched first mark =>
      if Match.begin ⟨first, mark⟩ = mark.position then
        let rest := matchesFrom regex subject fuel (mark.position + 1)
        if previous = some mark.position then rest previous
        else
          let later := rest (some mark.position)
          ⟨⟨first, mark⟩ :: later.found, later.givenUp⟩
      else
        let later := matchesFrom regex subject fuel mark.position (some mark.position)
        ⟨⟨first, mark⟩ :: later.found, later.givenUp⟩

def findAll (regex : Regex) (subject : Subject) : Searched :=
  matchesFrom regex subject (subject.size + 2) 0 none

end Regex

end SyncGrammar
