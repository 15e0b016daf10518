import SyncGrammar.Grammar.Builder
import SyncGrammar.Grammar.Notation
import SyncGrammar.Text.Line
import SyncGrammar.Text.Trim

/-!
Reading the text notation of grammars. Each line is read on its own, without its comment and the
white space around it, as a heading, as an item or as nothing; the lines then build the grammar.
-/
namespace SyncGrammar

namespace Notation

inductive Line
  | heading (title : Text)
  | item (left right : Text)
  | nothing
  deriving DecidableEq, Repr

/-- A line without its comment and the white space at its ends. -/
def content (line : Text) : Text :=
  Text.trim (line.takeWhile (· ≠ commentMark))

def dropTrailingMarks (text : Text) : Text :=
  (text.reverse.dropWhile (· = headingMark)).reverse

/-- The title of a heading: what stands between the marks at the start and the marks at the end. A
line of two or more marks alone has the empty title. -/
def headingTitle? (line : Text) : Option Text :=
  if line.head? = some headingMark ∧ line.getLast? = some headingMark ∧ 2 ≤ line.length then
    some (Text.trim (dropTrailingMarks (line.dropWhile (· = headingMark))))
  else none

def itemContent? (line : Text) : Option Text :=
  if line.head? = some itemMark then some (Text.trimStart (line.dropWhile (· = itemMark)))
  else none

/-- The two sides of an item. Only the first slash separates, so the right side may hold more. -/
def sides? (content : Text) : Option (Text × Text) :=
  match content.dropWhile (· ≠ separator) with
  | [] => none
  | _ :: right => some (Text.trim (content.takeWhile (· ≠ separator)), Text.trim right)

def Line.read (line : Text) : Line :=
  let text := content line
  match headingTitle? text with
  | some title => .heading title
  | none =>
    match (itemContent? text).bind sides? with
    | some (left, right) => .item left right
    | none => .nothing

end Notation

structure GrammarReader where
  builder : GrammarBuilder
  /-- The title of the block that the next item belongs to. -/
  title : Option Text
  deriving DecidableEq

namespace GrammarReader

def empty : GrammarReader := ⟨∅, none⟩

/-- Reads one more line. The first heading of a nonterminal sets the root unless there is one, and
items before the first heading say nothing. -/
def readLine (reader : GrammarReader) : Notation.Line → GrammarReader
  | .heading title =>
    if title = Notation.variablesTitle ∨ reader.builder.hasRoot then
      { reader with title := some title }
    else ⟨reader.builder.setRoot title, some title⟩
  | .item left right =>
    match reader.title with
    | none => reader
    | some title =>
      if title = Notation.variablesTitle then
        { reader with builder := reader.builder.addVariable left right }
      else { reader with builder := reader.builder.addRule title left right }
  | .nothing => reader

end GrammarReader

def Grammar.read (text : Text) : Except ConfigurationError Grammar :=
  let lines := (Text.lines text).map Notation.Line.read
  (lines.foldl GrammarReader.readLine GrammarReader.empty).builder.build

end SyncGrammar
