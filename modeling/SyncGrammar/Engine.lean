import SyncGrammar.Text

/-!
Regular-expression engines. Nothing is laid down about how an engine reads expressions or how it
matches them: it makes something of an expression or says why it does not, and then lists matches.
-/
namespace SyncGrammar

/-- A part of a text, by the number of characters in front of its start and of its finish. -/
structure Extent where
  start : Nat
  finish : Nat
  deriving DecidableEq, Repr

def Extent.slice (extent : Extent) (text : Text) : Text :=
  (text.drop extent.start).take (extent.finish - extent.start)

/-- A match, and what its named groups have recorded. A group that took no part is missing. -/
structure Captures where
  whole : Extent
  named : List (Text × Extent)
  deriving DecidableEq, Repr

def Captures.group? (captures : Captures) (name : Text) : Option Extent :=
  captures.named.lookup name

def Captures.valueOf (captures : Captures) (text name : Text) : Text :=
  match captures.group? name with
  | some extent => extent.slice text
  | none => []

/-- The matches up to the end of the text, or up to the search that failed. -/
structure Matches where
  found : List Captures
  failure : Option String
  deriving DecidableEq, Repr

structure RegexEngine (Compiled : Type) where
  /-- Writes a text as an expression. -/
  escape : Text → Text
  compile : Text → Except String Compiled
  matchesIn : Compiled → Text → Matches

end SyncGrammar
