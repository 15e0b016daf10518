import SyncGrammar.Grammar.Basic
import SyncGrammar.Substitution

/-!
Unfolding nonterminals. The expansion of a nonterminal to a depth replaces, in each of its
productions, all nonterminal tokens at once by productions of their expansions to one depth less, in
every combination. At depth zero it is the rule table itself.
-/
namespace SyncGrammar

namespace Grammar

def expansionTokens (grammar : Grammar) (production : Production) : List Text :=
  (Token.tokens grammar.nonterminals production.source ++
    Token.tokens grammar.nonterminals production.target).eraseDups

/-- Every way to choose one production for each token. The choices for the last token vary
fastest. -/
def combinations : List (Text × RuleTable) → List (List (Text × Production))
  | [] => [[]]
  | (token, table) :: rest =>
    table.productions.flatMap fun choice => (combinations rest).map ((token, choice) :: ·)

def substituteChoices (production : Production) (choices : List (Text × Production)) :
    Production :=
  ⟨substituteAll (choices.map fun choice => (choice.1, choice.2.source)) production.source,
    substituteAll (choices.map fun choice => (choice.1, choice.2.target)) production.target⟩

def expandProduction (production : Production) (tables : List (Text × RuleTable)) :
    List Production :=
  (combinations tables).map (substituteChoices production)

/-- The productions of a table with their nonterminal tokens replaced by productions of the tables
that `inner` finds for them. -/
def expandTable {m : Type → Type} [Monad m] (grammar : Grammar) (inner : Text → m RuleTable)
    (table : RuleTable) : m RuleTable := do
  let expanded ← table.productions.mapM fun production => do
    let tables ← (grammar.expansionTokens production).mapM fun token => do
      return (token, ← inner token)
    return expandProduction production tables
  return RuleTable.ofList expanded.flatten

/-- The expansion of the nonterminal that a token stands for. It fails if the token, or one met on
the way, stands for none. -/
def expand (grammar : Grammar) (depth : Nat) (token : Text) :
    Except ConfigurationError RuleTable := do
  let table ← grammar.rulesFor token
  match depth with
  | 0 => return table
  | depth + 1 => grammar.expandTable (grammar.expand depth) table

end Grammar

abbrev ExpansionMemo := List ((Text × Nat) × RuleTable)

abbrev MemoM := ExceptT ConfigurationError (StateM ExpansionMemo)

namespace Grammar

/-- The expansion of the nonterminal that a token stands for. What the memo holds is not computed
again. -/
def expandMemo (grammar : Grammar) (depth : Nat) (token : Text) : MemoM RuleTable := do
  let table ← ExceptT.mk (pure (grammar.rulesFor token))
  match depth with
  | 0 => return table
  | depth + 1 =>
    let key := ((grammar.nonterminalName? token).getD token, depth + 1)
    match (← get).lookup key with
    | some known => return known
    | none =>
      let expanded ← grammar.expandTable (grammar.expandMemo depth) table
      modify ((key, expanded) :: ·)
      return expanded

def expandWith (grammar : Grammar) (depth : Nat) (token : Text) (memo : ExpansionMemo) :
    Except ConfigurationError RuleTable × ExpansionMemo :=
  (grammar.expandMemo depth token).run memo

end Grammar

structure Expander where
  grammar : Grammar
  memo : ExpansionMemo
  deriving DecidableEq

namespace Expander

def ofGrammar (grammar : Grammar) : Expander := ⟨grammar, []⟩

def sameGrammar (expander other : Expander) : Bool :=
  expander.grammar = other.grammar

def copy (expander : Expander) : Expander :=
  ofGrammar expander.grammar

def expand (expander : Expander) (depth : Nat) (token : Text) :
    Except ConfigurationError RuleTable × Expander :=
  let (answer, memo) := expander.grammar.expandWith depth token expander.memo
  (answer, ⟨expander.grammar, memo⟩)

def expandAll (expander : Expander) :
    List (Text × Nat) → List (Except ConfigurationError RuleTable) × Expander
  | [] => ([], expander)
  | (token, depth) :: rest =>
    let (answer, next) := expander.expand depth token
    let (answers, last) := next.expandAll rest
    (answer :: answers, last)

end Expander

end SyncGrammar
