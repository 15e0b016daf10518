import SyncGrammar.Grammar.Basic

namespace SyncGrammar

inductive BuildStep
  | root (name : Text)
  | rule (nonterminal source target : Text)
  | variable (name regex : Text)
  deriving DecidableEq, Repr

structure GrammarBuilder where
  root : Option Text
  rules : NameTable RuleTable
  «variables» : VariableTable
  deriving DecidableEq

namespace GrammarBuilder

def empty : GrammarBuilder := ⟨none, ∅, ∅⟩

instance : EmptyCollection GrammarBuilder := ⟨empty⟩

instance : Inhabited GrammarBuilder := ⟨empty⟩

def setRoot (builder : GrammarBuilder) (name : Text) : GrammarBuilder :=
  { builder with root := some name }

/-- Adds a rule to the table of a nonterminal, which becomes the root if there is none. -/
def addRule (builder : GrammarBuilder) (nonterminal source target : Text) : GrammarBuilder :=
  { builder with
    root := some (builder.root.getD nonterminal)
    rules := builder.rules.alter nonterminal fun old => (old.getD ∅).insert ⟨source, target⟩ }

def addVariable (builder : GrammarBuilder) (name regex : Text) : GrammarBuilder :=
  { builder with «variables» := builder.variables.insert name regex }

def hasRoot (builder : GrammarBuilder) : Bool :=
  builder.root.isSome

def step (builder : GrammarBuilder) : BuildStep → GrammarBuilder
  | .root name => builder.setRoot name
  | .rule nonterminal source target => builder.addRule nonterminal source target
  | .variable name regex => builder.addVariable name regex

def ofSteps (steps : List BuildStep) : GrammarBuilder :=
  steps.foldl step empty

/-- The finished grammar, or the first fault: no root, a root without rules, or an empty side, which
is reported for the least nonterminal that has one. -/
def build (builder : GrammarBuilder) : Except ConfigurationError Grammar :=
  match builder.root with
  | none => .error .missingRoot
  | some root =>
    if builder.rules.contains root then
      match builder.rules.entries.find? (·.2.hasEmptySide) with
      | some entry => .error (.emptyRuleSide entry.1)
      | none => .ok ⟨root, builder.rules, builder.variables⟩
    else .error (.missingRootRules root)

end GrammarBuilder

end SyncGrammar
