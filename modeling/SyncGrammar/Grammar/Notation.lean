import SyncGrammar.Text

/-!
The marks of the text notation of grammars. A grammar is written in blocks. A heading, a title
between runs of equals signs, opens the block of a nonterminal or the block of variables; items,
opened by a run of asterisks, list the rules of the nonterminal or the expressions of the variables,
with a slash between the two sides. A number sign starts a comment.
-/
namespace SyncGrammar.Notation

def headingMark : Char := '='

def itemMark : Char := '*'

def separator : Char := '/'

def commentMark : Char := '#'

def variablesTitle : Text :=
  ['@', 'V', 'a', 'r', 'i', 'a', 'b', 'l', 'e', 's']

end SyncGrammar.Notation
