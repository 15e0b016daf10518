import SyncGrammar.Regex.Basic
import SyncGrammar.Regex.ClassName
import SyncGrammar.Text
import SyncGrammar.Text.Hex

namespace SyncGrammar.Regex

inductive Escape
  | literal (c : Char)
  | set (set : CharClass)
  | anchor (condition : Anchor)
  /-- A reference to the group of a name. -/
  | named (name : Text)
  | expression (regex : Regex)
  deriving DecidableEq, Repr

def hexChar? (digits : Text) : Option Char := do
  let values ← digits.mapM Text.hexValue?
  let code := values.foldl (fun code value => code * 16 + value) 0
  if digits ≠ [] ∧ code.isValidChar then some (Char.ofNat code) else none

/-- Reads a code point: as many digits as `count` says, or any number of them between braces. -/
def readHex (count : Nat) : Text → Option (Escape × Text)
  | '\x7b' :: rest =>
    match rest.dropWhile (· ≠ '\x7d') with
    | [] => none
    | _ :: after => (hexChar? (rest.takeWhile (· ≠ '\x7d'))).map (.literal ·, after)
  | text =>
    if (text.take count).length = count then
      (hexChar? (text.take count)).map (.literal ·, text.drop count)
    else none

def readName (closing : Char) (text : Text) : Option (Text × Text) :=
  match text.takeWhile Unicode.isWord, text.dropWhile Unicode.isWord with
  | [], _ => none
  | _, [] => none
  | name, c :: rest => if c = closing then some (name, rest) else none

def readUnicodeClass : Text → Option (CharClass × Text)
  | [] => none
  | '\x7b' :: rest =>
    match rest.dropWhile (· ≠ '\x7d') with
    | [] => none
    | _ :: after => (CharClass.ofUnicode? (rest.takeWhile (· ≠ '\x7d'))).map (·, after)
  | c :: rest => (CharClass.ofName? [c]).map (·, rest)

def readPlainEscape : Text → Option (Escape × Text)
  | [] => none
  | c :: rest =>
    match c with
    | 'd' => some (.set .decimal, rest)
    | 'D' => some (.set (.complement .decimal), rest)
    | 's' => some (.set .blank, rest)
    | 'S' => some (.set (.complement .blank), rest)
    | 'w' => some (.set .word, rest)
    | 'W' => some (.set (.complement .word), rest)
    | 'h' => some (.set .hexDigit, rest)
    | 'H' => some (.set (.complement .hexDigit), rest)
    | 'p' => (readUnicodeClass rest).map fun (set, after) => (.set set, after)
    | 'P' => (readUnicodeClass rest).map fun (set, after) => (.set (.complement set), after)
    | 'a' => some (.literal '\x07', rest)
    | 'e' => some (.literal '\x1b', rest)
    | 'f' => some (.literal '\x0c', rest)
    | 'n' => some (.literal '\n', rest)
    | 'r' => some (.literal '\r', rest)
    | 't' => some (.literal '\t', rest)
    | 'v' => some (.literal '\x0b', rest)
    | 'x' => readHex 2 rest
    | 'u' => readHex 4 rest
    | 'U' => readHex 8 rest
    | _ =>
      if c.isAlphanum ∨ c.toNat < 0x20 ∨ 0x7e < c.toNat then none else some (.literal c, rest)

/-- The place from which the match counts. -/
def keepOut : Regex :=
  .atomic (.group 0 .empty)

/-- Reads what follows a backslash outside of a set of characters. References by number are
refused. -/
def readEscape : Text → Option (Escape × Text)
  | 'A' :: rest => some (.anchor .textStart, rest)
  | 'z' :: rest => some (.anchor .textEnd, rest)
  | 'b' :: rest => some (.anchor .wordBoundary, rest)
  | 'B' :: rest => some (.anchor .insideWord, rest)
  | 'G' :: rest => some (.expression (.atomic (.anchor (.resumption 0))), rest)
  | 'K' :: rest => some (.expression keepOut, rest)
  | 'k' :: '<' :: rest => (readName '>' rest).map fun (name, after) => (.named name, after)
  | text => readPlainEscape text

def readClassEscape : Text → Option (Escape × Text)
  | 'b' :: rest => some (.literal '\x08', rest)
  | text => readPlainEscape text

def isSpecial (c : Char) : Bool :=
  ['\\', '.', '+', '*', '?', '(', ')', '|', '[', ']', '\x7b', '\x7d', '^', '$', '#'].contains c

def escape (text : Text) : Text :=
  text.flatMap fun c => if isSpecial c then ['\\', c] else [c]

end SyncGrammar.Regex
