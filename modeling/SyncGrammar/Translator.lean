import SyncGrammar.Config.Basic
import SyncGrammar.Derivation.Downward
import SyncGrammar.Machine
import SyncGrammar.Derivation.Upward

/-!
Translating a text between the two languages of a grammar: the way down finds the derivations, the
way up resolves them, and the targets of the completed derivations of the whole text as the root are
what the text translates to.
-/
namespace SyncGrammar

structure Translator where
  grammar : Grammar
  config : TranslatorConfig
  entailment : Entailment

structure Translated where
  result : Except TranslateError (List Text)
  events : List TraceEvent

namespace Translator

def ofEntailment (grammar : Grammar) (config : TranslatorConfig) (entailment : Entailment) :
    Except ConfigurationError Translator := do
  let _ ← grammar.nonterminals.mapM grammar.rulesFor
  return ⟨grammar, config, entailment⟩

theorem ofEntailment_eq_ok (grammar : Grammar) (config : TranslatorConfig)
    (entailment : Entailment) :
    ofEntailment grammar config entailment = .ok ⟨grammar, config, entailment⟩ := by
  rw [ofEntailment, grammar.mapM_rulesFor]
  rfl

def ofConfig {Compiled : Type} (engine : RegexEngine Compiled) (grammar : Grammar)
    (config : TranslatorConfig) : Except ConfigurationError Translator := do
  let entailment ← RegexEntailment.forGrammar engine grammar config.wildcard
  ofEntailment grammar config (entailment.entail engine)

def dropRepeats : List Text → List Text
  | [] => []
  | [text] => [text]
  | first :: second :: rest =>
    if first = second then dropRepeats (second :: rest) else first :: dropRepeats (second :: rest)

def unresolved? (grammar : Grammar) (key : DerivationKey) : Option TranslateError :=
  match Token.tokens grammar.variableNames key.target with
  | [] => none
  | tokens => some (.unresolvedVariables key.target (dropRepeats tokens))

/-- The distinct targets of the completed derivations of the text as the root in ascending order, or
the complaint about the first of them whose target still holds tokens. -/
def collect (grammar : Grammar) (text : Text) (completed : CompletedSet) :
    Except TranslateError (List Text) :=
  let keys := completed.lookup text grammar.root
  match keys.findSome? (unresolved? grammar) with
  | some error => .error error
  | none => .ok (Text.sortedDistinct (keys.map (·.target)))

def openingEvents (direction : Direction) (text : Text) (events : List TraceEvent) :
    List TraceEvent :=
  .note (direction.name ++ " '" ++ String.ofList text ++ "'") :: .opened "translate" :: events

def downward (translator : Translator) (fuel : Nat) (text : Text) (direction : Direction)
    (events : List TraceEvent) : Option Downward :=
  runWithin (Downward.step translator.grammar translator.entailment direction) fuel
    (.start translator.grammar direction text (.opened "downward" :: events))

def upward (translator : Translator) (fuel : Nat) (stack : ResultStack Derivation)
    (events : List TraceEvent) : Option Upward :=
  runWithin (Upward.step translator.grammar translator.grammar.unitCycles) fuel
    (.start stack (.opened "upward" :: events))

/-- Translates a text, if either way takes fewer than `fuel` steps. The events of the trace are
added to `events`; after a failure on the way down they stop where it occurred. -/
def translateTraced (translator : Translator) (fuel : Nat) (text : Text) (direction : Direction)
    (events : List TraceEvent) : Option Translated :=
  if translator.config.directions.allows direction then do
    let down ← translator.downward fuel text direction (openingEvents direction text events)
    match down.failure with
    | some failure => return ⟨.error failure, down.events⟩
    | none =>
      let up ← translator.upward fuel down.stack (.closed :: down.queuedNote :: down.events)
      return ⟨collect translator.grammar text up.completed,
        .closed :: .closed :: up.summaryNote :: up.events⟩
  else some ⟨.error (.unsupportedDirection direction), events⟩

def translate (translator : Translator) (fuel : Nat) (text : Text) (direction : Direction) :
    Option (Except TranslateError (List Text)) :=
  (translator.translateTraced fuel text direction []).map (·.result)

end Translator

end SyncGrammar
