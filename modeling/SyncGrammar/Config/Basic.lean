import SyncGrammar.Direction
import SyncGrammar.Text

namespace SyncGrammar

inductive Directions
  | both
  | forwardOnly
  | backwardOnly
  deriving DecidableEq, Repr

namespace Directions

def allows : Directions → Direction → Bool
  | both, _ => true
  | forwardOnly, direction => direction = .forward
  | backwardOnly, direction => direction = .backward

end Directions

structure TranslatorConfig where
  directions : Directions
  /-- The expression of a nonterminal that has none of its own. -/
  wildcard : Text
  trace : Bool
  deriving DecidableEq, Repr

namespace TranslatorConfig

/-- Both directions, any text without line feeds for a nonterminal, and no tracing. -/
def standard : TranslatorConfig :=
  ⟨.both, ['.', '+'], false⟩

instance : Inhabited TranslatorConfig := ⟨standard⟩

end TranslatorConfig

end SyncGrammar
