import SyncGrammar.Assignment
import SyncGrammar.Engine
import SyncGrammar.Error
import SyncGrammar.Grammar.Basic
import SyncGrammar.Token

/-!
Patterns: texts with variable tokens, matched against other texts. A pattern becomes one regular
expression. The text between tokens stands for itself, the first occurrence of a token stands for
the expression of its variable, and each further occurrence for the text of the first. The
expression of a variable is spliced in as a text, so it may open and close groups of the whole.
-/
namespace SyncGrammar

structure Pattern (Compiled : Type) where
  text : Text
  regex : Compiled
  /-- The tokens in order of first appearance, with the name of the group of each. -/
  groups : List (Text × Text)
  deriving DecidableEq, Repr

namespace Pattern

inductive Piece
  | literal (text : Text)
  | group (name expression : Text)
  /-- The text that a group has recorded. -/
  | again (name : Text)
  deriving DecidableEq, Repr

def Piece.written (escape : Text → Text) : Piece → Text
  | literal text => escape text
  | group name expression => ['(', '?', 'P', '<'] ++ name ++ ['>'] ++ expression ++ [')']
  | again name => ['\\', 'k', '<'] ++ name ++ ['>']

/-- One more character in front of the first literal text. -/
def Piece.prepend (c : Char) : List Piece → List Piece
  | literal text :: rest => literal (c :: text) :: rest
  | pieces => literal [c] :: pieces

def groupName (index : Nat) : Text :=
  'v' :: Nat.toDigits 10 index

/-- The pieces for the segments of a pattern, of which those before hold the tokens `seen`. Before
each token and behind the last one stands a literal text, which may be empty. -/
def piecesFrom (table : VariableTable) (seen : List Text) : List Token.Segment → List Piece
  | [] => [.literal []]
  | .literal c :: rest => Piece.prepend c (piecesFrom table seen rest)
  | .token name index :: rest =>
    let token := name ++ index
    match seen.idxOf? token with
    | some position => .literal [] :: .again (groupName position) :: piecesFrom table seen rest
    | none =>
      .literal [] :: .group (groupName seen.length) ((table.get? name).getD []) ::
        piecesFrom table (seen ++ [token]) rest

def pieces (table : VariableTable) (text : Text) : List Piece :=
  piecesFrom table [] (Token.segments table.names text)

def splice (escape : Text → Text) (table : VariableTable) (text : Text) : Text :=
  (pieces table text).flatMap (Piece.written escape)

variable {Compiled : Type}

def compile (engine : RegexEngine Compiled) (table : VariableTable) (text : Text) :
    Except ConfigurationError (Pattern Compiled) :=
  if text.isEmpty then .error .emptyPattern
  else if table.isEmpty then .error (.noVariables text)
  else
    match engine.compile (splice engine.escape table text) with
    | .error reason => .error (.invalidPattern text reason)
    | .ok regex =>
      let tokens := (Token.tokens table.names text).eraseDups
      .ok ⟨text, regex, tokens.zipIdx.map fun (token, position) => (token, groupName position)⟩

def tokens (pattern : Pattern Compiled) : List Text :=
  pattern.groups.map (·.1)

/-- The assignment of a match: each token is bound to what its group has recorded, or to the empty
text if that took no part in the match. -/
def bindings (pattern : Pattern Compiled) (text : Text) (found : Captures) : Assignment :=
  .ofList (pattern.groups.map fun (token, group) => (token, found.valueOf text group))

def all (engine : RegexEngine Compiled) (pattern : Pattern Compiled) (text : Text) :
    Except MatchError (List Assignment) :=
  let found := engine.matchesIn pattern.regex text
  match found.failure with
  | some reason => .error ⟨pattern.text, reason⟩
  | none => .ok (found.found.map (pattern.bindings text))

def first? (engine : RegexEngine Compiled) (pattern : Pattern Compiled) (text : Text) :
    Except MatchError (Option Assignment) :=
  let found := engine.matchesIn pattern.regex text
  match found.found, found.failure with
  | first :: _, _ => .ok (some (pattern.bindings text first))
  | [], none => .ok none
  | [], some reason => .error ⟨pattern.text, reason⟩

end Pattern

end SyncGrammar
