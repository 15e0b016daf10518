import SyncGrammar.Direction
import SyncGrammar.Text

namespace SyncGrammar

inductive ReadFailure
  | notFound
  | isDirectory
  | invalidEncoding
  deriving DecidableEq, Repr

def ReadFailure.message : ReadFailure → String
  | notFound => "No such file or directory (os error 2)"
  | isDirectory => "Is a directory (os error 21)"
  | invalidEncoding => "stream did not contain valid UTF-8"

inductive DocumentFault
  /-- The document is malformed, or it is not a mapping of known keys to values of their kinds. -/
  | malformed (reason : String)
  | emptyWildcard
  deriving DecidableEq, Repr

def DocumentFault.message : DocumentFault → String
  | malformed reason => reason
  | emptyWildcard => "wildcard must not be empty"

inductive ConfigurationError
  | emptyPattern
  /-- A pattern was compiled against a table without variables. -/
  | noVariables (pattern : Text)
  /-- The expression of a pattern, in which those of its variables are spliced, is malformed. -/
  | invalidPattern (pattern : Text) (reason : String)
  | missingRoot
  | missingRootRules (root : Text)
  | emptyRuleSide (nonterminal : Text)
  | unknownNonterminal (name : Text)
  | unreadable (path : String) (failure : ReadFailure)
  | invalidDocument (fault : DocumentFault)
  deriving DecidableEq, Repr

def ConfigurationError.message : ConfigurationError → String
  | emptyPattern => "Pattern is empty"
  | noVariables pattern =>
    "No variable regexes given for pattern '" ++ String.ofList pattern ++ "'"
  | invalidPattern pattern reason =>
    "Invalid pattern '" ++ String.ofList pattern ++ "': " ++ reason
  | missingRoot => "Grammar has no root nonterminal"
  | missingRootRules root => "Root nonterminal '" ++ String.ofList root ++ "' has no rules"
  | emptyRuleSide nonterminal => "Rule of '" ++ String.ofList nonterminal ++ "' has an empty side"
  | unknownNonterminal name => "Unknown nonterminal '" ++ String.ofList name ++ "'"
  | unreadable path failure => "I/O error: " ++ path ++ ": " ++ failure.message
  | invalidDocument fault => "Invalid configuration: " ++ fault.message

/-- Why the search for a pattern failed. -/
structure MatchError where
  pattern : Text
  reason : String
  deriving DecidableEq, Repr

def MatchError.message (error : MatchError) : String :=
  "Matching '" ++ String.ofList error.pattern ++ "' failed: " ++ error.reason

inductive TranslateError
  | configuration (error : ConfigurationError)
  /-- The translator is set up for the other direction only. -/
  | unsupportedDirection (direction : Direction)
  /-- Whether a text satisfies a hypothesis could not be found out. -/
  | entailment (reason : String)
  /-- A completed derivation of the whole text still holds variable tokens. -/
  | unresolvedVariables (text : Text) (tokens : List Text)
  deriving DecidableEq, Repr

namespace TranslateError

def message : TranslateError → String
  | configuration error => error.message
  | unsupportedDirection direction =>
    "Translation direction '" ++ direction.name ++ "' is not enabled"
  | entailment reason => "Entailment failed: " ++ reason
  | unresolvedVariables text tokens =>
    "Completed derivation '" ++ String.ofList text ++ "' still contains variables: " ++
      String.ofList (Text.joinWith [',', ' '] tokens)

def ofMatchError (error : MatchError) : TranslateError :=
  entailment error.message

end TranslateError

end SyncGrammar
