import SyncGrammar.Regex.Escape

namespace SyncGrammar.Regex

inductive SetOperation
  | intersection
  | difference
  | symmetricDifference
  deriving DecidableEq, Repr

def SetOperation.apply : SetOperation → CharClass → CharClass → CharClass
  | intersection, left, right => left.intersection right
  | difference, left, right => left.difference right
  | symmetricDifference, left, right => .union (left.difference right) (right.difference left)

structure ClassState where
  /-- The set before the last operation sign, with that operation. -/
  pending : Option (SetOperation × CharClass)
  /-- The members read since. -/
  members : CharClass
  deriving DecidableEq, Repr

namespace ClassState

def empty : ClassState := ⟨none, .nothing⟩

def add (state : ClassState) (set : CharClass) : ClassState :=
  { state with members := .union state.members set }

def set (state : ClassState) : CharClass :=
  match state.pending with
  | none => state.members
  | some (operation, left) => operation.apply left state.members

def operate (state : ClassState) (operation : SetOperation) : ClassState :=
  ⟨some (operation, state.set), .nothing⟩

end ClassState

/-- Reads one member: a character or a set that an escape stands for. -/
def readMember : Text → Option (Escape × Text)
  | [] => none
  | '\\' :: rest => readClassEscape rest
  | c :: rest => some (.literal c, rest)

def Escape.members : Escape → CharClass
  | literal c => .single c
  | set members => members
  | anchor _ | named _ | expression _ => .nothing

/-- Reads a member, or a range if a hyphen with another member behind it follows. Both ends of a
range must be characters, the first not behind the last. -/
def readRange (text : Text) : Option (CharClass × Text) := do
  let (first, rest) ← readMember text
  match rest with
  | '-' :: ']' :: _ | '-' :: '-' :: _ => return (first.members, rest)
  | '-' :: after =>
    let (last, rest) ← readMember after
    match first, last with
    | .literal low, .literal high => if low ≤ high then some (.range low high, rest) else none
    | _, _ => none
  | _ => return (first.members, rest)

/-- Reads the sign of negation and the hyphens, or the closing bracket, that may follow it as
characters. -/
def readClassStart (text : Text) : Bool × ClassState × Text :=
  let (negated, text) :=
    match text with
    | '^' :: rest => (true, rest)
    | _ => (false, text)
  let hyphens := text.takeWhile (· = '-')
  if hyphens ≠ [] then
    (negated, ClassState.empty.add (.single '-'), text.drop hyphens.length)
  else
    match text with
    | ']' :: rest => (negated, ClassState.empty.add (.single ']'), rest)
    | _ => (negated, .empty, text)

def readAsciiName (text : Text) : Option (CharClass × Text) := do
  let (name, set) ← CharClass.asciiClasses.find? fun entry =>
    (entry.1.toList ++ [':', ']']).isPrefixOf text
  return (set, text.drop (name.length + 2))

def readAsciiClass (caseless : Bool) : Text → Option (CharClass × Text)
  | ':' :: '^' :: rest => (readAsciiName rest).map fun (set, after) =>
    (.complement (.folded caseless set), after)
  | ':' :: rest => (readAsciiName rest).map fun (set, after) => (.folded caseless set, after)
  | _ => none

/-- Reads the rest of a set up to its closing bracket. `caseless` says whether case is ignored, and
`fuel` bounds the number of members. -/
def readClassFrom (caseless negated : Bool) (state : ClassState) :
    Nat → Text → Option (CharClass × Text)
  | 0, _ => none
  | fuel + 1, text =>
    match text with
    | [] => none
    | ']' :: rest => some (.signed negated state.set, rest)
    | '[' :: rest =>
      match readAsciiClass caseless rest with
      | some (set, rest) => readClassFrom caseless negated (state.add set) fuel rest
      | none => do
        let (inner, start, rest) := readClassStart rest
        let (set, rest) ← readClassFrom caseless inner start fuel rest
        readClassFrom caseless negated (state.add set) fuel rest
    | '&' :: '&' :: rest => readClassFrom caseless negated (state.operate .intersection) fuel rest
    | '-' :: '-' :: rest => readClassFrom caseless negated (state.operate .difference) fuel rest
    | '~' :: '~' :: rest =>
      readClassFrom caseless negated (state.operate .symmetricDifference) fuel rest
    | _ => do
      let (set, rest) ← readRange text
      readClassFrom caseless negated (state.add (.folded caseless set)) fuel rest

def readClass (caseless : Bool) (text : Text) : Option (CharClass × Text) :=
  let (negated, start, rest) := readClassStart text
  readClassFrom caseless negated start (rest.length + 1) rest

end SyncGrammar.Regex
