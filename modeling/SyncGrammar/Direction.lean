namespace SyncGrammar

/-- Which side of the rules is read and which is written: `forward` reads sources and writes
targets, `backward` the other way round. -/
inductive Direction
  | forward
  | backward
  deriving DecidableEq, Repr

namespace Direction

def ofForward (isForward : Bool) : Direction :=
  if isForward then forward else backward

def isForward : Direction → Bool
  | forward => true
  | backward => false

def reversed : Direction → Direction
  | forward => backward
  | backward => forward

def name : Direction → String
  | forward => "forward"
  | backward => "backward"

def ofName? (name : String) : Option Direction :=
  if name = "forward" then some forward
  else if name = "backward" then some backward
  else none

end Direction

end SyncGrammar
