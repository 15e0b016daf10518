import SyncGrammar.Pattern

/-!
What may be expected of an engine. Each law is about what engines of regular expressions have in
common, and each of them is a hypothesis of the theorems that need it: a translator is made with any
engine, lawful or not.
-/
namespace SyncGrammar

namespace Pattern

/-- A match goes over the pieces of a pattern one after the other. A literal text matches itself, a
group has recorded what it went over, and a reference back matches the text that was recorded. -/
inductive Covers (text : Text) (found : Captures) : List Piece → Nat → Nat → Prop
  | nil {place : Nat} : Covers text found [] place place
  | literal {written : Text} {pieces : List Piece} {start finish : Nat}
      (stands : written <+: text.drop start)
      (onward : Covers text found pieces (start + written.length) finish) :
      Covers text found (.literal written :: pieces) start finish
  | group {name expression : Text} {pieces : List Piece} {start place finish : Nat}
      (reached : start ≤ place) (recorded : found.group? name = some ⟨start, place⟩)
      (onward : Covers text found pieces place finish) :
      Covers text found (.group name expression :: pieces) start finish
  | again {name : Text} {pieces : List Piece} {extent : Extent} {start finish : Nat}
      (recorded : found.group? name = some extent)
      (stands : extent.slice text <+: text.drop start)
      (onward : Covers text found pieces (start + (extent.slice text).length) finish) :
      Covers text found (.again name :: pieces) start finish

/-- Matches of a pattern that lie in a text one behind the other. -/
structure Locates (text : Text) (pieces : List Piece) (matched : List Captures) : Prop where
  covers : ∀ found ∈ matched, Covers text found pieces found.whole.start found.whole.finish
  within : ∀ found ∈ matched, found.whole.finish ≤ text.length
  ordered : matched.Pairwise fun found later =>
    found.whole.start < later.whole.start ∧ found.whole.finish ≤ later.whole.start

end Pattern

variable {Compiled : Type}

/-- The matches of a pattern are matches of its pieces, as long as the expression of each variable
stays inside of the group that it is spliced into. Which expressions do is told by `inside`. -/
def RegexEngine.Faithful (engine : RegexEngine Compiled) (inside : Text → Prop) : Prop :=
  ∀ (table : VariableTable) hypothesis regex, (∀ entry ∈ table.entries, inside entry.2) →
    engine.compile (Pattern.splice engine.escape table hypothesis) = .ok regex →
    ∀ text, Pattern.Locates text (Pattern.pieces table hypothesis)
      (engine.matchesIn regex text).found

/-- A text that has been written as an expression matches where it occurs and nowhere else. -/
structure RegexEngine.FindsLiterals (engine : RegexEngine Compiled) : Prop where
  succeeds : ∀ literal regex, engine.compile (engine.escape literal) = .ok regex →
    ∀ text, (engine.matchesIn regex text).failure = none
  found_iff : ∀ literal regex, engine.compile (engine.escape literal) = .ok regex →
    ∀ text, (engine.matchesIn regex text).found ≠ [] ↔ literal <:+: text

/-! Greedy matching. -/

namespace Pattern

structure Way where
  place : Nat
  named : List (Text × Extent)

/-- The lengths of the texts of one or more characters of a set that stand at the start of a text,
the greatest first. -/
def runLengths (set : Char → Bool) (ahead : Text) : List Nat :=
  (List.range' 1 (ahead.takeWhile set).length).reverse

variable (sets : Text → Char → Bool) (text : Text)

/-- The ways over one piece, the preferred one first. The expression of a group stands for one or
more characters of the set that `sets` gives, and more of them are preferred. -/
def Piece.ways (way : Way) : Piece → List Way
  | literal written =>
    if written <+: text.drop way.place then [⟨way.place + written.length, way.named⟩] else []
  | group name expression =>
    (runLengths (sets expression) (text.drop way.place)).map fun length =>
      ⟨way.place + length, (name, ⟨way.place, way.place + length⟩) :: way.named⟩
  | again name =>
    match way.named.lookup name with
    | some extent =>
      if extent.slice text <+: text.drop way.place then
        [⟨way.place + (extent.slice text).length, way.named⟩]
      else []
    | none => []

def ways : List Piece → Way → List Way
  | [], way => [way]
  | piece :: rest, way => (piece.ways sets text way).flatMap (ways rest)

def leftmostFirst? (pieces : List Piece) : Option Captures :=
  (List.range (text.length + 1)).findSome? fun start =>
    (ways sets text pieces ⟨start, []⟩).head?.map fun way => ⟨⟨start, way.place⟩, way.named⟩

/-- The variables of a pattern stand for one or more characters of some sets, each only once.
`isClass` tells which expressions stand for one character of a set. -/
def OverRuns (isClass : Text → (Char → Bool) → Prop) (pieces : List Piece) : Prop :=
  (∀ name expression, .group name expression ∈ pieces →
    ∃ written, expression = written ++ ['+'] ∧ isClass written (sets expression)) ∧
  ∀ name, .again name ∉ pieces

end Pattern

/-- Repetitions are greedy, and what is found first is the leftmost match, of those that start there
the preferred one. -/
def RegexEngine.LeftmostFirst (engine : RegexEngine Compiled)
    (isClass : Text → (Char → Bool) → Prop) : Prop :=
  ∀ sets (table : VariableTable) hypothesis regex,
    Pattern.OverRuns sets isClass (Pattern.pieces table hypothesis) →
    engine.compile (Pattern.splice engine.escape table hypothesis) = .ok regex →
    ∀ text, (engine.matchesIn regex text).failure = none ∧
      ∀ preferred, Pattern.leftmostFirst? sets text (Pattern.pieces table hypothesis) =
          some preferred →
        ∃ first, (engine.matchesIn regex text).found.head? = some first ∧
          first.whole = preferred.whole ∧
            ∀ name expression, .group name expression ∈ Pattern.pieces table hypothesis →
              first.group? name = preferred.group? name

end SyncGrammar
