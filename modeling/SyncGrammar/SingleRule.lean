import SyncGrammar.Pattern
import SyncGrammar.Substitution

namespace SyncGrammar

structure SingleRule (Compiled : Type) where
  source : Pattern Compiled
  target : Pattern Compiled
  deriving DecidableEq, Repr

namespace SingleRule

variable {Compiled : Type}

def compile (engine : RegexEngine Compiled) (table : VariableTable) (source target : Text) :
    Except ConfigurationError (SingleRule Compiled) := do
  return ⟨← Pattern.compile engine table source, ← Pattern.compile engine table target⟩

def input (rule : SingleRule Compiled) : Direction → Pattern Compiled
  | .forward => rule.source
  | .backward => rule.target

def output (rule : SingleRule Compiled) (direction : Direction) : Pattern Compiled :=
  rule.input direction.reversed

/-- The texts of all matches in order, repetitions included. -/
def translate (engine : RegexEngine Compiled) (rule : SingleRule Compiled) (text : Text)
    (direction : Direction) : Except TranslateError (List Text) :=
  match (rule.input direction).all engine text with
  | .error error => .error (.ofMatchError error)
  | .ok assignments =>
    .ok (assignments.map fun assignment =>
      substituteAll assignment.bindings (rule.output direction).text)

end SingleRule

end SyncGrammar
