import SyncGrammar.Error
import SyncGrammar.NameTable
import SyncGrammar.Production
import SyncGrammar.Token

namespace SyncGrammar

abbrev VariableTable := NameTable Text

structure Grammar where
  root : Text
  rules : NameTable RuleTable
  «variables» : VariableTable
  deriving DecidableEq

theorem mapM_eq_ok {α β ε : Type} {compute : α → Except ε β} {result : α → β} {elements : List α}
    (computes : ∀ element ∈ elements, compute element = .ok (result element)) :
    elements.mapM compute = .ok (elements.map result) := by
  induction elements with
  | nil => rfl
  | cons first rest ih =>
    obtain ⟨here, later⟩ := List.forall_mem_cons.mp computes
    rw [List.map_cons, List.mapM_cons, here, ih later]
    rfl

namespace Grammar

def nonterminals (grammar : Grammar) : List Text :=
  grammar.rules.names

/-- The nonterminal that a token stands for: the one of exactly this name, or else the one whose
name is left when the digits at the end are taken away. -/
def nonterminalName? (grammar : Grammar) (token : Text) : Option Text :=
  if grammar.rules.contains token then some token
  else if grammar.rules.contains (Token.stripIndex token) then some (Token.stripIndex token)
  else none

def hasNonterminal (grammar : Grammar) (token : Text) : Bool :=
  (grammar.nonterminalName? token).isSome

def table? (grammar : Grammar) (token : Text) : Option RuleTable :=
  (grammar.nonterminalName? token).bind grammar.rules.get?

def rulesFor (grammar : Grammar) (token : Text) : Except ConfigurationError RuleTable :=
  match grammar.table? token with
  | some table => .ok table
  | none => .error (.unknownNonterminal token)

/-- The expressions used in matching: those of the terminal variables, and `wildcard` for each
nonterminal that has none. -/
def leafVariables (grammar : Grammar) (wildcard : Text) : VariableTable :=
  grammar.nonterminals.foldl (fun table name => table.insertIfNew name wildcard) grammar.variables

def variableNames (grammar : Grammar) : List Text :=
  Text.sortedDistinct (grammar.nonterminals ++ grammar.variables.names)

def orientedRules (grammar : Grammar) (direction : Direction) (token : Text) : List Production :=
  match grammar.table? token with
  | some table => (table.oriented direction).sortedLongToShort
  | none => []

theorem mem_orientedRules {grammar : Grammar} {direction : Direction} {token : Text}
    {production : Production} :
    production ∈ grammar.orientedRules direction token ↔
      ∃ table, grammar.table? token = some table ∧
        production.turned direction ∈ table.productions := by
  unfold orientedRules
  cases grammar.table? token with
  | none => simp
  | some table => simp [RuleTable.mem_oriented]

theorem inverted_mem_orientedRules {grammar : Grammar} {direction : Direction} {token : Text}
    {production : Production} :
    production.inverted ∈ grammar.orientedRules direction.reversed token ↔
      production ∈ grammar.orientedRules direction token := by
  rw [mem_orientedRules, mem_orientedRules]
  cases direction <;> rfl

theorem contains_of_nonterminalName? {grammar : Grammar} {token name : Text}
    (named : grammar.nonterminalName? token = some name) : grammar.rules.contains name = true := by
  unfold nonterminalName? at named
  split at named
  · rename_i exact
    exact Option.some.inj named ▸ exact
  · split at named
    · rename_i stripped
      exact Option.some.inj named ▸ stripped
    · cases named

theorem table?_eq_some_iff {grammar : Grammar} {token : Text} {table : RuleTable} :
    grammar.table? token = some table ↔
      ∃ name, grammar.nonterminalName? token = some name ∧ grammar.rules.get? name = some table :=
  Option.bind_eq_some_iff

theorem mem_variableNames {grammar : Grammar} {name : Text} : name ∈ grammar.variableNames ↔
    name ∈ grammar.nonterminals ∨ name ∈ grammar.variables.names := by
  rw [variableNames, Text.mem_sortedDistinct, List.mem_append]

theorem nonterminalName?_self {grammar : Grammar} {name : Text}
    (known : grammar.rules.contains name = true) : grammar.nonterminalName? name = some name := by
  rw [nonterminalName?, if_pos known]

theorem rulesFor_eq_ok_iff {grammar : Grammar} {token : Text} {rules : RuleTable} :
    grammar.rulesFor token = .ok rules ↔ grammar.table? token = some rules := by
  rw [rulesFor]
  split <;> simp_all

theorem rulesFor_of_get? {grammar : Grammar} {name : Text} {rules : RuleTable}
    (stored : grammar.rules.get? name = some rules) : grammar.rulesFor name = .ok rules := by
  have known : grammar.rules.contains name = true := by
    rw [← NameTable.isSome_get?, stored]
    rfl
  rw [rulesFor_eq_ok_iff, table?_eq_some_iff]
  exact ⟨name, nonterminalName?_self known, stored⟩

theorem mapM_rulesFor (grammar : Grammar) :
    grammar.nonterminals.mapM grammar.rulesFor = .ok (grammar.rules.entries.map (·.2)) := by
  rw [nonterminals, NameTable.names, List.mapM_map]
  exact mapM_eq_ok fun entry member => rulesFor_of_get? (grammar.rules.get?_of_mem member)

end Grammar

end SyncGrammar
