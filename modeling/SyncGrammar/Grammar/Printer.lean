import SyncGrammar.Grammar.Basic
import SyncGrammar.Grammar.Notation

namespace SyncGrammar

namespace Notation

def renderHeading (title : Text) : Text :=
  [headingMark, headingMark, ' '] ++ title ++ [' ', headingMark, headingMark, '\n']

def renderBlock (title : Text) (table : RuleTable) : Text :=
  renderHeading title ++ table.render

def renderVariables (table : VariableTable) : Text :=
  if table.isEmpty then []
  else
    '\n' :: renderHeading variablesTitle ++ table.entries.flatMap fun entry =>
      [itemMark, ' '] ++ entry.1 ++ [' ', separator, ' '] ++ entry.2 ++ ['\n']

end Notation

def Grammar.blocks (grammar : Grammar) : List (Text × RuleTable) :=
  grammar.rules.entries.filter (·.1 = grammar.root) ++
    grammar.rules.entries.filter (·.1 ≠ grammar.root)

def Grammar.render (grammar : Grammar) : Text :=
  Text.joinWith ['\n'] (grammar.blocks.map fun block => Notation.renderBlock block.1 block.2) ++
    Notation.renderVariables grammar.variables

end SyncGrammar
