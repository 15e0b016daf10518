import SyncGrammar.Pattern

/-!
Entailment: whether a text satisfies a hypothesis, and with which values for its tokens. To
translate a text means to ask this question again and again, so any function that answers it will
do. The usual answer is to match the hypothesis as a pattern.
-/
namespace SyncGrammar

/-- For a text and a hypothesis, the assignments under which the text satisfies the hypothesis. -/
abbrev Entailment := Text → Text → Except TranslateError (List Assignment)

namespace Entailment

def ignoringCase : Entailment := fun text hypothesis =>
  .ok (if text.map Char.toLower = hypothesis.map Char.toLower then [∅] else [])

structure Row where
  text : Text
  hypothesis : Text
  answer : Except String (List Assignment)

/-- Entailment by a table, of which the first row for a text and a hypothesis counts. What is not in
the table is not entailed. -/
def ofRows (rows : List Row) : Entailment := fun text hypothesis =>
  match rows.find? fun row => row.text = text ∧ row.hypothesis = hypothesis with
  | none => .ok []
  | some row => row.answer.mapError .entailment

end Entailment

/-- Entailment by matching. The patterns known from the start are compiled at once, others when they
are first asked for. -/
structure RegexEntailment (Compiled : Type) where
  «variables» : VariableTable
  /-- The patterns compiled at the start, by hypothesis. -/
  compiled : List (Text × Pattern Compiled)
  /-- The patterns compiled since. -/
  onDemand : List (Text × Pattern Compiled)
  deriving DecidableEq

namespace RegexEntailment

variable {Compiled : Type} (engine : RegexEngine Compiled)

/-- Adds the compiled pattern of a hypothesis unless it is there. -/
def precompile (table : VariableTable) (compiled : List (Text × Pattern Compiled))
    (hypothesis : Text) : Except ConfigurationError (List (Text × Pattern Compiled)) :=
  match compiled.lookup hypothesis with
  | some _ => .ok compiled
  | none => do return compiled ++ [(hypothesis, ← Pattern.compile engine table hypothesis)]

def ofPatterns (patterns : List Text) (table : VariableTable) :
    Except ConfigurationError (RegexEntailment Compiled) := do
  return ⟨table, ← patterns.foldlM (precompile engine table) [], []⟩

def hypotheses (grammar : Grammar) : List Text :=
  grammar.rules.entries.flatMap fun entry =>
    entry.2.productions.flatMap fun production => [production.source, production.target]

def forGrammar (grammar : Grammar) (wildcard : Text) :
    Except ConfigurationError (RegexEntailment Compiled) := do
  let tables ← grammar.nonterminals.mapM grammar.rulesFor
  let sides := tables.flatMap fun table =>
    table.productions.flatMap fun production => [production.source, production.target]
  ofPatterns engine sides (grammar.leafVariables wildcard)

theorem forGrammar_eq (grammar : Grammar) (wildcard : Text) :
    forGrammar engine grammar wildcard =
      ofPatterns engine (hypotheses grammar) (grammar.leafVariables wildcard) := by
  rw [forGrammar, grammar.mapM_rulesFor]
  exact congrArg (ofPatterns engine · (grammar.leafVariables wildcard)) (List.flatMap_map _ _ _)

def size (entailment : RegexEntailment Compiled) : Nat :=
  entailment.compiled.length

def isEmpty (entailment : RegexEntailment Compiled) : Bool :=
  entailment.compiled.isEmpty

def find? (entailment : RegexEntailment Compiled) (hypothesis : Text) : Option (Pattern Compiled) :=
  (entailment.compiled.lookup hypothesis).or (entailment.onDemand.lookup hypothesis)

def pattern (entailment : RegexEntailment Compiled) (hypothesis : Text) :
    Except ConfigurationError (Pattern Compiled) :=
  match entailment.find? hypothesis with
  | some known => .ok known
  | none => Pattern.compile engine entailment.variables hypothesis

def matchAll (pattern : Pattern Compiled) (text : Text) : Except TranslateError (List Assignment) :=
  (pattern.all engine text).mapError .ofMatchError

def entail (entailment : RegexEntailment Compiled) : Entailment := fun text hypothesis =>
  match entailment.pattern engine hypothesis with
  | .error error => .error (.configuration error)
  | .ok pattern => matchAll engine pattern text

/-- Keeps the pattern of a hypothesis for the next time, if it can be compiled. -/
def remember (entailment : RegexEntailment Compiled) (hypothesis : Text) :
    RegexEntailment Compiled :=
  match entailment.find? hypothesis, entailment.pattern engine hypothesis with
  | none, .ok pattern =>
    { entailment with onDemand := entailment.onDemand ++ [(hypothesis, pattern)] }
  | _, _ => entailment

def ask (entailment : RegexEntailment Compiled) (text hypothesis : Text) :
    Except TranslateError (List Assignment) × RegexEntailment Compiled :=
  (entailment.entail engine text hypothesis, entailment.remember engine hypothesis)

end RegexEntailment

end SyncGrammar
