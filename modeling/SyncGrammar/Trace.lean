namespace SyncGrammar

inductive TraceEvent
  | opened (title : String)
  | closed
  | note (text : String)
  deriving DecidableEq, Repr

namespace TraceEvent

/-- The number of open sections after an event. To close a section where none is open does
nothing. -/
def depthAfter (depth : Nat) : TraceEvent → Nat
  | opened _ => depth + 1
  | closed => depth - 1
  | note _ => depth

def label : TraceEvent → String
  | opened title => title ++ " \x7b"
  | closed => "\x7d"
  | note text => text

def lineDepth (depth : Nat) : TraceEvent → Nat
  | closed => depth - 1
  | opened _ | note _ => depth

def indentation : Nat → String
  | 0 => ""
  | depth + 1 => "  " ++ indentation depth

def linesFrom (depth : Nat) : List TraceEvent → List String
  | [] => []
  | event :: rest =>
    (indentation (event.lineDepth depth) ++ event.label) :: linesFrom (event.depthAfter depth) rest

def lines (events : List TraceEvent) : List String :=
  linesFrom 0 events

theorem linesFrom_append (depth : Nat) (first second : List TraceEvent) :
    linesFrom depth (first ++ second) =
      linesFrom depth first ++ linesFrom (first.foldl depthAfter depth) second := by
  induction first generalizing depth with
  | nil => rfl
  | cons event rest ih => simp [linesFrom, ih]

end TraceEvent

end SyncGrammar
