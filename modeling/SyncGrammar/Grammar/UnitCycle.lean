import SyncGrammar.Grammar.Basic
import SyncGrammar.Worklist.CycleSearch

/-!
Unit cycles. A side of a rule that consists of variable tokens alone may bind the whole of its text
to one of them, so that a nonterminal leads to another without getting shorter. The nonterminals
that lead back to themselves in this way are those on a unit cycle.
-/
namespace SyncGrammar.Grammar

/-- The nonterminals named by the tokens of a side that consists of tokens alone. -/
def unitNonterminals (grammar : Grammar) (side : Text) : List Text :=
  if Token.onlyTokens grammar.variableNames side then
    (Token.tokens grammar.variableNames side).filterMap grammar.nonterminalName?
  else []

/-- The nonterminals to which a nonterminal leads in one step, by either side of its rules. -/
def unitSuccessors (grammar : Grammar) (name : Text) : List Text :=
  match grammar.rules.get? name with
  | none => []
  | some table =>
    (table.productions.flatMap fun production =>
      grammar.unitNonterminals production.source ++
        grammar.unitNonterminals production.target).eraseDups

theorem unitSuccessors_of_unknown {grammar : Grammar} {name : Text}
    (unknown : name ∉ grammar.nonterminals) : grammar.unitSuccessors name = [] := by
  have absent : grammar.rules.get? name = none := by
    rw [← Option.not_isSome_iff_eq_none, NameTable.isSome_get?, ← NameTable.mem_names_iff]
    exact unknown
  rw [unitSuccessors, absent]

@[irreducible]
def searchUnitCycle (grammar : Grammar) (name : Text) : CycleSearch :=
  runToEnd (CycleSearch.step grammar.unitSuccessors name)
    (CycleSearch.workLeft grammar.unitSuccessors grammar.nonterminals)
    (fun _ _ => CycleSearch.workLeft_lt_of_step fun _ => unitSuccessors_of_unknown)
    (.start grammar.unitSuccessors name)

def isOnUnitCycle (grammar : Grammar) (name : Text) : Bool :=
  (grammar.searchUnitCycle name).found

def unitCycles (grammar : Grammar) : List Text :=
  grammar.nonterminals.filter grammar.isOnUnitCycle

end SyncGrammar.Grammar
