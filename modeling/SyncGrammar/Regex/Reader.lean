import SyncGrammar.Regex.ClassReader

/-!
Reading a regular expression. The reader goes through the text from left to right and keeps the
groups that are open; each of them holds the alternatives it has finished and the pieces of the one
being read. Flags hold from where they are set to the end of the text, unless a group sets them for
itself alone.
-/
namespace SyncGrammar.Regex

structure Flags where
  ignoreCase : Bool := false
  multiLine : Bool := false
  dotAll : Bool := false
  swapGreed : Bool := false
  /-- Blanks stand for nothing, and a number sign starts a comment. -/
  extended : Bool := false
  deriving DecidableEq, Repr

inductive GroupKind
  | plain
  | capture (index : Nat)
  | atomic
  | ahead (positive : Bool)
  | behind (positive : Bool)
  /-- A condition. Behind it stand the alternatives among which it decides. -/
  | condition
  | conditional (condition : Regex)
  deriving DecidableEq, Repr

/-- Whether the group of a number has recorded something. -/
def whether (index : Nat) : Regex :=
  .atomic (.anchor (.recorded index))

def asksForGroup : Regex → Bool
  | atomic (anchor (.recorded _)) => true
  | _ => false

structure Frame where
  kind : GroupKind
  /-- The flags that hold again behind the group, if it has set its own. -/
  outerFlags : Option Flags
  /-- The finished alternatives, the latest first. -/
  branches : List Regex
  /-- The pieces of the alternative being read, the latest first. -/
  pieces : List Regex
  deriving DecidableEq, Repr

namespace Frame

def opened (kind : GroupKind) (outerFlags : Option Flags) : Frame :=
  ⟨kind, outerFlags, [], []⟩

/-- Adds a piece to the alternative being read. The empty expression adds nothing. -/
def push (frame : Frame) (piece : Regex) : Frame :=
  if piece = .empty then frame else { frame with pieces := piece :: frame.pieces }

def branch (frame : Frame) : Frame :=
  { frame with branches := seqOfReversed frame.pieces :: frame.branches, pieces := [] }

def body (frame : Frame) : Regex :=
  altOfReversed (seqOfReversed frame.pieces :: frame.branches)

/-- A condition with the alternatives behind it, all but the first of which belong to its absence.
If there is nothing behind it, it has to ask for a group, and stands alone. -/
def decide? (frame : Frame) (condition : Regex) : Option Regex :=
  match (seqOfReversed frame.pieces :: frame.branches).reverse with
  | [] => none
  | yes :: others =>
    let no := altOfReversed others.reverse
    if yes ≠ .empty ∨ no ≠ .empty then some (.conditional condition yes no)
    else if others = [] ∧ ¬condition.asksForGroup then none
    else some condition

def close? (frame : Frame) : Option Regex :=
  match frame.kind with
  | .plain | .condition => some frame.body
  | .capture index => some (.group index frame.body)
  | .atomic => some (.atomic frame.body)
  | .ahead positive => some (.ahead positive frame.body)
  | .behind positive => frame.body.lookBehindWidths?.map (.behind positive · frame.body)
  | .conditional condition => frame.decide? condition

end Frame

structure ReaderState where
  flags : Flags
  /-- The innermost open group; the whole expression counts as one. -/
  current : Frame
  /-- The groups around it, from the inside outwards. -/
  enclosing : List Frame
  /-- The number of capture groups opened so far. -/
  groups : Nat
  /-- The numbers of the named groups, the latest first. -/
  names : List (Text × Nat)
  deriving DecidableEq, Repr

namespace ReaderState

def start : ReaderState := ⟨{}, .opened .plain none, [], 0, []⟩

/-- The greatest depth to which groups may be nested. -/
def maxDepth : Nat := 63

def openGroup (state : ReaderState) (kind : GroupKind) : ReaderState :=
  { state with current := .opened kind none, enclosing := state.current :: state.enclosing }

def openCapture (state : ReaderState) : ReaderState :=
  { state.openGroup (.capture (state.groups + 1)) with groups := state.groups + 1 }

def openNamed (state : ReaderState) (name : Text) : ReaderState :=
  { state.openCapture with names := (name, state.groups + 1) :: state.names }

def openFlagged (state : ReaderState) (flags : Flags) : ReaderState :=
  { state with
    flags := flags
    current := .opened .plain (some state.flags)
    enclosing := state.current :: state.enclosing }

def push (state : ReaderState) (piece : Regex) : ReaderState :=
  { state with current := state.current.push piece }

/-- Goes on from a condition to the alternatives behind it. -/
def decide (state : ReaderState) : ReaderState :=
  { state with current := .opened (.conditional state.current.body) none }

def close? (state : ReaderState) : Option (Regex × ReaderState) :=
  match state.enclosing with
  | [] => none
  | outer :: rest => do
    let closed ← state.current.close?
    return (closed, { state with
      flags := state.current.outerFlags.getD state.flags
      current := outer
      enclosing := rest })

end ReaderState

def skipComment : Text → Option Text
  | [] | ['\\'] => none
  | ')' :: rest => some rest
  | '\\' :: _ :: rest => skipComment rest
  | _ :: rest => skipComment rest

/-- Skips comments, and in an extended expression blanks and the rest of a line behind a number sign
as well. `fuel` bounds the number of parts that are skipped. -/
def skipFrom (extended : Bool) : Nat → Text → Option Text
  | _, [] => some []
  | 0, text => some text
  | fuel + 1, c :: rest =>
    if extended ∧ [' ', '\t', '\n', '\r'].contains c then skipFrom extended fuel rest
    else if extended ∧ c = '#' then skipFrom extended fuel (rest.dropWhile (· ≠ '\n'))
    else if ['(', '?', '#'].isPrefixOf (c :: rest) then do
      skipFrom extended fuel (← skipComment (rest.drop 2))
    else some (c :: rest)

def skip (flags : Flags) (text : Text) : Option Text :=
  skipFrom flags.extended text.length text

def readNumber (text : Text) : Option (Nat × Text) :=
  match text.takeWhile Char.isDigit with
  | [] => none
  | digits => some (digits.foldl (fun n c => n * 10 + (c.toNat - '0'.toNat)) 0,
      text.dropWhile Char.isDigit)

def readBounds (flags : Flags) (text : Text) : Option (Nat × Option Nat × Text) := do
  let text ← skip flags text
  let (least, rest) ←
    match text with
    | ',' :: _ => some (0, text)
    | _ => readNumber text
  match ← skip flags rest with
  | '\x7d' :: after => return (least, some least, after)
  | ',' :: after =>
    let after ← skip flags after
    let (most, after) :=
      match readNumber after with
      | some (most, after) => (some most, after)
      | none => (none, after)
    match ← skip flags after with
    | '\x7d' :: after => return (least, most, after)
    | _ => none
  | _ => none

/-- Reads the marks behind a repetition: a question mark makes it lazy, and a plus sign keeps only
its preferred match. -/
def finishLoop (flags : Flags) (body : Regex) (least : Nat) (most : Option Nat) (text : Text) :
    Option (Regex × Text) :=
  if body.isRepeatable then do
    let text ← skip flags text
    let (greedy, text) :=
      match text with
      | '?' :: rest => (flags.swapGreed, rest)
      | _ => (!flags.swapGreed, text)
    match text with
    | '+' :: rest => return (.atomic (.loop body least most greedy), rest)
    | _ => return (.loop body least most greedy, text)
  else none

/-- Reads the sign of repetition that may follow an expression. A brace that does not open bounds
stands for itself. -/
def readLoop (flags : Flags) (body : Regex) (text : Text) : Option (Regex × Text) :=
  match text with
  | '?' :: rest => finishLoop flags body 0 (some 1) rest
  | '*' :: rest => finishLoop flags body 0 none rest
  | '+' :: rest => finishLoop flags body 1 none rest
  | '\x7b' :: rest =>
    match readBounds flags rest with
    | some (least, most, after) => finishLoop flags body least most after
    | none => some (body, text)
  | _ => some (body, text)

inductive FlagPlace
  | atStart
  | behindFlag
  | behindMinus
  deriving DecidableEq, Repr

/-- Reads flags up to the parenthesis that ends them or the colon behind which a group with these
flags starts, and says whether it was a colon. Behind a minus sign flags are cleared. -/
def readFlags (flags : Flags) (value : Bool) (place : FlagPlace) :
    Text → Option (Flags × Bool × Text)
  | [] => none
  | c :: rest =>
    match c with
    | 'i' => readFlags { flags with ignoreCase := value } value .behindFlag rest
    | 'm' => readFlags { flags with multiLine := value } value .behindFlag rest
    | 's' => readFlags { flags with dotAll := value } value .behindFlag rest
    | 'U' => readFlags { flags with swapGreed := value } value .behindFlag rest
    | 'x' => readFlags { flags with extended := value } value .behindFlag rest
    | 'u' => if value then readFlags flags value .behindFlag rest else none
    | '-' => if value then readFlags flags false .behindMinus rest else none
    | ')' => if place = .behindFlag then some (flags, false, rest) else none
    | ':' => if place = .behindMinus then none else some (flags, true, rest)
    | _ => none

/-- Reads the name of a group and the parenthesis behind it, which together are a condition. -/
def openWhether (state : ReaderState) (closing : Char) (text : Text) :
    Option (ReaderState × Text) := do
  let (name, rest) ← readName closing text
  let index ← state.names.lookup name
  match ← skip state.flags rest with
  | ')' :: rest => return (state.openGroup (.conditional (whether index)), rest)
  | _ => none

/-- Reads the start of a condition, which asks for a named group or is an expression. -/
def openCondition (state : ReaderState) : Text → Option (ReaderState × Text)
  | [] => none
  | '<' :: rest => openWhether state '>' rest
  | '\x27' :: rest => openWhether state '\x27' rest
  | c :: rest => if c.isDigit then none else some (state.openGroup .condition, c :: rest)

def readOpening (state : ReaderState) (text : Text) : Option (ReaderState × Text) :=
  if ReaderState.maxDepth ≤ state.enclosing.length then none
  else
    match text with
    | '?' :: '=' :: rest => some (state.openGroup (.ahead true), rest)
    | '?' :: '!' :: rest => some (state.openGroup (.ahead false), rest)
    | '?' :: '<' :: '=' :: rest => some (state.openGroup (.behind true), rest)
    | '?' :: '<' :: '!' :: rest => some (state.openGroup (.behind false), rest)
    | '?' :: '>' :: rest => some (state.openGroup .atomic, rest)
    | '?' :: '(' :: rest => openCondition state rest
    | '?' :: '<' :: rest | '?' :: 'P' :: '<' :: rest => do
      let (name, rest) ← readName '>' rest
      return (state.openNamed name, rest)
    | '?' :: rest => do
      let (flags, opens, rest) ← readFlags state.flags true .atStart rest
      return (if opens then state.openFlagged flags else { state with flags := flags }, rest)
    | _ => some (state.openCapture, text)

def oneOf (flags : Flags) (set : CharClass) : Regex :=
  .char (.folded flags.ignoreCase set)

def readAtom (state : ReaderState) : Text → Option (Regex × Text)
  | [] => none
  | c :: rest =>
    match c with
    | '.' =>
      some (.char (if state.flags.dotAll then .all else .complement (.single '\n')), rest)
    | '^' => some (.anchor (if state.flags.multiLine then .lineStart else .textStart), rest)
    | '$' => some (.anchor (if state.flags.multiLine then .lineEnd else .textEnd), rest)
    | '[' => do
      let (set, rest) ← readClass state.flags.ignoreCase rest
      return (.char set, rest)
    | '\\' => do
      let (escape, rest) ← readEscape rest
      match escape with
      | .literal c => return (oneOf state.flags (.single c), rest)
      | .set set => return (oneOf state.flags set, rest)
      | .anchor condition => return (.anchor condition, rest)
      | .expression regex => return (regex, rest)
      | .named name => return (.backreference (← state.names.lookup name), rest)
    | _ => some (oneOf state.flags (.single c), rest)

def readPiece (state : ReaderState) (atom : Regex) (text : Text) :
    Option (ReaderState × Text) := do
  let (piece, rest) ← readLoop state.flags atom (← skip state.flags text)
  return (state.push piece, rest)

/-- Reads the next part of a text: a bar, a parenthesis with what belongs to it, or a piece. Where
there is nothing more to read, nothing changes. -/
def readStep (state : ReaderState) (text : Text) : Option (ReaderState × Text) :=
  match text with
  | [] => some (state, [])
  | '|' :: rest => some ({ state with current := state.current.branch }, rest)
  | '?' :: _ | '*' :: _ | '+' :: _ => none
  | '(' :: '?' :: 'P' :: '=' :: rest => do
    let (name, rest) ← readName ')' rest
    readPiece state (.backreference (← state.names.lookup name)) rest
  | '(' :: rest => do readOpening state (← skip state.flags rest)
  | ')' :: rest =>
    if state.current.kind = .condition then some (state.decide, rest)
    else do
      let (closed, state) ← state.close?
      readPiece state closed rest
  | _ => do
    let (atom, rest) ← readAtom state text
    readPiece state atom rest

def readFrom (state : ReaderState) : Nat → Text → Option ReaderState
  | _, [] => some state
  | 0, _ => none
  | fuel + 1, text => do
    let (state, rest) ← readStep state (← skip state.flags text)
    readFrom state fuel rest

end SyncGrammar.Regex

namespace SyncGrammar

structure NamedRegex where
  regex : Regex
  names : List (Text × Nat)
  deriving DecidableEq, Repr

def NamedRegex.read? (text : Text) : Option NamedRegex := do
  let state ← Regex.readFrom .start text.length text
  let regex := state.current.body
  if state.enclosing.isEmpty ∧ regex.isMatchable then some ⟨regex, state.names⟩ else none

end SyncGrammar
