import SyncGrammar.Grammar.Reader

namespace SyncGrammar

structure Sample where
  name : String
  text : String
  deriving DecidableEq, Repr

namespace Sample

def flat : Sample where
  name := "flat.scfg"
  text :=
    "# Literal rules only: each side is matched as plain text.\n" ++
    "\n" ++
    "== <root> ==\n" ++
    "* a / b\n" ++
    "* c / d\n"

def twoLevel : Sample where
  name := "two_level.scfg"
  text :=
    "# A root that combines two finite nonterminals.\n" ++
    "# <verb> and <noun> are matched as single words.\n" ++
    "\n" ++
    "== <root> ==\n" ++
    "* <verb> the <noun> / DO(<verb>,<noun>)\n" ++
    "\n" ++
    "== <verb> ==\n" ++
    "* take / GET\n" ++
    "* give / PUT\n" ++
    "\n" ++
    "== <noun> ==\n" ++
    "* bread / FOOD\n" ++
    "* water / FLUID\n" ++
    "\n" ++
    "== @Variables ==\n" ++
    "* <verb> / \\w+\n" ++
    "* <noun> / \\w+\n"

def ambiguous : Sample where
  name := "ambiguous.scfg"
  text :=
    "# Overlapping root rules with different targets, and synonyms that share\n" ++
    "# one target.\n" ++
    "\n" ++
    "== <root> ==\n" ++
    "* take the bread / DO(GET,FOOD)\n" ++
    "* <verb> the bread / DO(GET)\n" ++
    "* <verb> the <noun> / DO(<verb>,<noun>)\n" ++
    "\n" ++
    "== <verb> ==\n" ++
    "* take / GET\n" ++
    "* get / GET\n" ++
    "\n" ++
    "== <noun> ==\n" ++
    "* bread / FOOD\n" ++
    "* food / FOOD\n"

def specialCharacters : Sample where
  name := "special_chars.scfg"
  text :=
    "# Regex metacharacters in rule literals match literally.\n" ++
    "\n" ++
    "== <root> ==\n" ++
    "* <number>? / WHY(<number>)\n" ++
    "* \\<number> / BACKSLASH(<number>)\n" ++
    "* <number>1+<number>2 / ADD(<number>1,<number>2)\n" ++
    "* <number>1*<number>2 / MUL(<number>1,<number>2)\n" ++
    "\n" ++
    "== @Variables ==\n" ++
    "* <number> / \\d+\n"

def recursive : Sample where
  name := "recursive.scfg"
  text :=
    "# Fully parenthesized arithmetic over a single atom.\n" ++
    "\n" ++
    "== <expr> ==\n" ++
    "* a / a\n" ++
    "* (<expr>1 + <expr>2) / ADD(<expr>1,<expr>2)\n" ++
    "* (<expr>1 * <expr>2) / MUL(<expr>1,<expr>2)\n"

def samples : List Sample :=
  [flat, twoLevel, ambiguous, specialCharacters, recursive]

def find? (name : String) : Option Sample :=
  samples.find? (·.name = name)

def notFoundMessage (name : String) : String :=
  "Sample not found: Sample '" ++ name ++ "' is not available. Available samples: [" ++
    String.intercalate ", " (samples.map fun sample => "\"" ++ sample.name ++ "\"") ++ "]"

def grammar (sample : Sample) : Except ConfigurationError Grammar :=
  Grammar.read sample.text.toList

end Sample

end SyncGrammar
