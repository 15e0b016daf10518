import SyncGrammar.Regex.Basic

namespace SyncGrammar

abbrev Subject := Array Char

/-- A place in a subject, with the recorded start and end of each group, the latest first. -/
structure Mark where
  position : Nat
  groups : List (Nat × Nat × Nat)
  deriving DecidableEq, Repr

namespace Mark

def advance (mark : Mark) : Mark :=
  { mark with position := mark.position + 1 }

def capture (mark : Mark) (index start : Nat) : Mark :=
  { mark with groups := (index, start, mark.position) :: mark.groups }

def group? (mark : Mark) (index : Nat) : Option (Nat × Nat) :=
  mark.groups.lookup index

@[simp] theorem group?_capture (mark : Mark) (index start : Nat) :
    (mark.capture index start).group? index = some (start, mark.position) :=
  List.lookup_cons_self

end Mark

namespace Subject

def slice (subject : Subject) (start finish : Nat) : Text :=
  (subject.extract start finish).toList

def isWordAt (subject : Subject) (position : Nat) : Bool :=
  subject[position]?.any Unicode.isWord

def isWordBoundary (subject : Subject) (position : Nat) : Bool :=
  (0 < position && isWordAt subject (position - 1)) != isWordAt subject position

def holds (subject : Subject) (mark : Mark) : Anchor → Bool
  | .textStart => mark.position = 0
  | .textEnd => mark.position = subject.size
  | .lineStart => mark.position = 0 || subject[mark.position - 1]? = some '\n'
  | .lineEnd => mark.position = subject.size || subject[mark.position]? = some '\n'
  | .wordBoundary => isWordBoundary subject mark.position
  | .insideWord => !isWordBoundary subject mark.position
  | .recorded index => (mark.group? index).isSome
  | .resumption place => mark.position ≤ place

def step? (subject : Subject) (set : CharClass) (mark : Mark) : Option Mark :=
  if subject[mark.position]?.any set.contains then some mark.advance else none

def recalled? (subject : Subject) (index : Nat) (mark : Mark) : Option Mark := do
  let (start, finish) ← mark.group? index
  let next := mark.position + (finish - start)
  if slice subject mark.position next = slice subject start finish then
    some { mark with position := next }
  else none

end Subject

end SyncGrammar
