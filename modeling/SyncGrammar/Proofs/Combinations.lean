import Mathlib.Logic.Function.Basic
import SyncGrammar.Proofs.Ownership
import SyncGrammar.Proofs.Remembering
import SyncGrammar.Proofs.RuleTable

/-!
What an expansion consists of. The productions of an expanded nonterminal are those of its rules,
filled with one production for each token, the same on both sides, in every combination. Where no
nonterminal ends in a digit, each token that is found has an expansion, so that expanding succeeds.
-/
namespace SyncGrammar

/-- A production, each side filled with that side of what is chosen for its tokens. -/
def Production.filled (names : List Text) (choice : Text → Production) (production : Production) :
    Production :=
  ⟨Token.fill names (fun token => some (choice token).source) production.source,
    Token.fill names (fun token => some (choice token).target) production.target⟩

namespace Grammar

variable {grammar : Grammar} {name token : Text} {production : Production}

theorem mem_expansionTokens : token ∈ grammar.expansionTokens production ↔
    token ∈ Token.tokens grammar.nonterminals production.source ∨
      token ∈ Token.tokens grammar.nonterminals production.target := by
  rw [expansionTokens, List.mem_eraseDups, List.mem_append]

theorem nodup_expansionTokens : (grammar.expansionTokens production).Nodup :=
  nodup_eraseDups _

theorem mem_combinations {tokens : List Text} {tables : Text → RuleTable}
    {choices : List (Text × Production)} (distinct : tokens.Nodup) :
    choices ∈ combinations (tokens.map fun token => (token, tables token)) ↔
      ∃ choice : Text → Production, (∀ token ∈ tokens, choice token ∈ (tables token).productions) ∧
        choices = tokens.map fun token => (token, choice token) := by
  induction tokens generalizing choices with
  | nil =>
    rw [List.map_nil, combinations, List.mem_singleton]
    constructor
    · rintro rfl
      exact ⟨fun _ => ⟨[], []⟩, by simp, rfl⟩
    · rintro ⟨_, -, rfl⟩
      rfl
  | cons token rest ih =>
    rw [List.nodup_cons] at distinct
    simp only [List.map_cons, combinations, List.mem_flatMap, List.mem_map, ih distinct.2]
    constructor
    · rintro ⟨first, inTable, _, ⟨choice, chosen, rfl⟩, rfl⟩
      have kept (other : Text) (member : other ∈ rest) :
          Function.update choice token first other = choice other := by
        have different : other ≠ token := fun same => distinct.1 (same ▸ member)
        exact Function.update_of_ne different first choice
      refine ⟨Function.update choice token first, ?_, ?_⟩
      · rw [List.forall_mem_cons, Function.update_self]
        refine ⟨inTable, fun other member => ?_⟩
        rw [kept other member]
        exact chosen other member
      · rw [Function.update_self]
        exact congrArg _ (List.map_congr_left fun other member => by rw [kept other member])
    · rintro ⟨choice, chosen, rfl⟩
      rw [List.forall_mem_cons] at chosen
      exact ⟨choice token, chosen.1, _, ⟨choice, chosen.2, rfl⟩, rfl⟩

theorem substituteChoices_eq_filled (choice : Text → Production) :
    substituteChoices production
        ((grammar.expansionTokens production).map fun token => (token, choice token)) =
      production.filled grammar.nonterminals choice := by
  have named : ∀ token ∈ grammar.expansionTokens production,
      Token.IsNamed grammar.nonterminals token := by
    intro token listed
    rcases mem_expansionTokens.mp listed with occurs | occurs
    all_goals exact Token.isNamed_of_mem_tokens occurs
  have source := Assignment.substituteAll_of_bound (fun token => (choice token).source)
    nodup_expansionTokens named fun token occurs => mem_expansionTokens.mpr (Or.inl occurs)
  have target := Assignment.substituteAll_of_bound (fun token => (choice token).target)
    nodup_expansionTokens named fun token occurs => mem_expansionTokens.mpr (Or.inr occurs)
  simp only [Assignment.ofValues] at source target
  simp only [substituteChoices, List.map_map, Function.comp_def, Production.filled, source, target]

/-- A choice of one production for each token of a production. -/
def Chooses (grammar : Grammar) (tables : Text → RuleTable) (production : Production)
    (choice : Text → Production) : Prop :=
  ∀ token, token ∈ Token.tokens grammar.nonterminals production.source ∨
    token ∈ Token.tokens grammar.nonterminals production.target →
      choice token ∈ (tables token).productions

theorem mem_expandProduction {tables : Text → RuleTable} {result : Production} :
    result ∈ expandProduction production
        ((grammar.expansionTokens production).map fun token => (token, tables token)) ↔
      ∃ choice, grammar.Chooses tables production choice ∧
        result = production.filled grammar.nonterminals choice := by
  simp only [expandProduction, List.mem_map, mem_combinations nodup_expansionTokens, Chooses,
    ← mem_expansionTokens]
  constructor
  · rintro ⟨_, ⟨choice, chosen, rfl⟩, rfl⟩
    exact ⟨choice, chosen, substituteChoices_eq_filled choice⟩
  · rintro ⟨choice, chosen, rfl⟩
    exact ⟨_, ⟨choice, chosen, rfl⟩, substituteChoices_eq_filled choice⟩

/-- One level of an expansion: the rules with what is found for their tokens filled in. -/
def expandOnce (grammar : Grammar) (tables : Text → RuleTable) (rules : RuleTable) : RuleTable :=
  .ofList (rules.productions.flatMap fun production => expandProduction production
    ((grammar.expansionTokens production).map fun token => (token, tables token)))

theorem mem_expandOnce {tables : Text → RuleTable} {rules : RuleTable} :
    production ∈ (grammar.expandOnce tables rules).productions ↔
      ∃ rule ∈ rules.productions, ∃ choice, grammar.Chooses tables rule choice ∧
        production = rule.filled grammar.nonterminals choice := by
  rw [expandOnce, RuleTable.mem_ofList, List.mem_flatMap]
  simp only [mem_expandProduction]

theorem expandOnce_congr {tables others : Text → RuleTable} {rules : RuleTable}
    (agree : ∀ rule ∈ rules.productions, ∀ token ∈ grammar.expansionTokens rule,
      tables token = others token) :
    grammar.expandOnce tables rules = grammar.expandOnce others rules := by
  rw [expandOnce, expandOnce]
  congr 1
  apply List.flatMap_congr
  intro rule member
  congr 1
  apply List.map_congr_left
  intro token occurs
  rw [agree rule member token occurs]

theorem expandTable_eq_ok {inner : Text → Except ConfigurationError RuleTable}
    {tables : Text → RuleTable} {rules : RuleTable}
    (found : ∀ rule ∈ rules.productions, ∀ token ∈ grammar.expansionTokens rule,
      inner token = .ok (tables token)) :
    grammar.expandTable inner rules = .ok (grammar.expandOnce tables rules) := by
  have each : ∀ rule ∈ rules.productions,
      (do
        let tables ← (grammar.expansionTokens rule).mapM fun token => do
          return (token, ← inner token)
        return expandProduction rule tables : Except ConfigurationError (List Production)) =
      .ok (expandProduction rule
        ((grammar.expansionTokens rule).map fun token => (token, tables token))) := by
    intro rule member
    have listed : ∀ token ∈ grammar.expansionTokens rule,
        (do return (token, ← inner token) : Except ConfigurationError (Text × RuleTable)) =
          .ok (token, tables token) := by
      intro token occurs
      rw [found rule member token occurs]
      rfl
    rw [mapM_eq_ok listed]
    rfl
  rw [expandTable, mapM_eq_ok each]
  rfl

theorem exists_rules (known : name ∈ grammar.nonterminals) :
    ∃ rules, grammar.rules.get? name = some rules := by
  rw [nonterminals, NameTable.mem_names_iff, ← NameTable.isSome_get?] at known
  exact Option.isSome_iff_exists.mp known

def expansion (grammar : Grammar) (depth : Nat) (token : Text) : RuleTable :=
  (grammar.expand depth token).toOption.getD ∅

theorem expansion_of_ok {depth : Nat} {table : RuleTable}
    (expanded : grammar.expand depth token = .ok table) :
    grammar.expansion depth token = table := by
  rw [expansion, expanded]
  rfl

theorem expand_zero {rules : RuleTable} (stored : grammar.rules.get? name = some rules) :
    grammar.expand 0 name = .ok rules := by
  rw [expand, rulesFor_of_get? stored]
  rfl

section Unnumbered

variable (unnumbered : ∀ own ∈ grammar.nonterminals, own.Unnumbered)

include unnumbered

theorem nonterminalName?_of_mem_expansionTokens
    (occurs : token ∈ grammar.expansionTokens production) :
    ∃ own, grammar.nonterminalName? token = some own := by
  rcases mem_expansionTokens.mp occurs with side | side
  all_goals
    obtain ⟨own, index, member, rfl⟩ := Token.mem_tokens_iff.mp side
    exact ⟨own, nonterminalName?_of_unnumbered unnumbered member⟩

theorem expand_eq_ok {own : Text} (named : grammar.nonterminalName? token = some own)
    (depth : Nat) : grammar.expand depth token = .ok (grammar.expansion depth token) := by
  suffices succeeds : ∃ table, grammar.expand depth token = .ok table by
    obtain ⟨table, expanded⟩ := succeeds
    rw [expansion_of_ok expanded, expanded]
  rw [expand_of_nonterminalName? named]
  have known := (NameTable.mem_names_iff _ _).mpr (contains_of_nonterminalName? named)
  obtain ⟨rules, stored⟩ := exists_rules known
  induction depth generalizing token own rules with
  | zero => exact ⟨rules, expand_zero stored⟩
  | succ depth ih =>
    have found : ∀ rule ∈ rules.productions, ∀ inner ∈ grammar.expansionTokens rule,
        grammar.expand depth inner = .ok (grammar.expansion depth inner) := by
      intro rule _ inner occurs
      obtain ⟨next, stands⟩ := nonterminalName?_of_mem_expansionTokens unnumbered occurs
      have alsoKnown := (NameTable.mem_names_iff _ _).mpr (contains_of_nonterminalName? stands)
      obtain ⟨others, alsoStored⟩ := exists_rules alsoKnown
      obtain ⟨table, expanded⟩ := ih stands alsoKnown others alsoStored
      rw [← expand_of_nonterminalName? stands] at expanded
      rw [expansion_of_ok expanded, expanded]
    exact ⟨_, (expand_of_rulesFor (rulesFor_of_get? stored) depth).trans (expandTable_eq_ok found)⟩

theorem expand_succ {rules : RuleTable} (stored : grammar.rules.get? name = some rules)
    (depth : Nat) :
    grammar.expand (depth + 1) name = .ok (grammar.expandOnce (grammar.expansion depth) rules) := by
  rw [expand_of_rulesFor (rulesFor_of_get? stored)]
  apply expandTable_eq_ok
  intro rule _ token occurs
  obtain ⟨own, named⟩ := nonterminalName?_of_mem_expansionTokens unnumbered occurs
  exact expand_eq_ok unnumbered named depth

/-- Whatever has been asked before, a nonterminal has an expansion to every depth. Above depth zero
it holds each production once, and it holds exactly those that come of a rule when all its tokens
are replaced at once by productions of their expansions to one depth less, a token by the same
production wherever it stands. -/
theorem expands_in_every_combination {rules : RuleTable}
    (stored : grammar.rules.get? name = some rules) (calls : List (Text × Nat)) (depth : Nat) :
    ∃ table, grammar.expandAfter calls (depth + 1) name = .ok table ∧ table.productions.Nodup ∧
      ∀ source target, ⟨source, target⟩ ∈ table.productions ↔
        ∃ rule ∈ rules.productions, ∃ choice : Text → Production,
          (∀ token, token ∈ Token.tokens grammar.nonterminals rule.source ∨
            token ∈ Token.tokens grammar.nonterminals rule.target →
              ∃ inner, grammar.expandAfter calls depth token = .ok inner ∧
                choice token ∈ inner.productions) ∧
          source = Token.fill grammar.nonterminals (fun token => some (choice token).source)
            rule.source ∧
          target = Token.fill grammar.nonterminals (fun token => some (choice token).target)
            rule.target := by
  refine ⟨_, (expandAfter_eq _ _ _).trans (expand_succ unnumbered stored depth),
    RuleTable.nodup_ofList _, fun source target => ?_⟩
  have chooses (rule : Production) (choice : Text → Production) :
      grammar.Chooses (grammar.expansion depth) rule choice ↔
        ∀ token, token ∈ Token.tokens grammar.nonterminals rule.source ∨
          token ∈ Token.tokens grammar.nonterminals rule.target →
            ∃ inner, grammar.expandAfter calls depth token = .ok inner ∧
              choice token ∈ inner.productions := by
    refine forall₂_congr fun token occurs => ?_
    obtain ⟨own, named⟩ :=
      nonterminalName?_of_mem_expansionTokens unnumbered (mem_expansionTokens.mpr occurs)
    simp [expandAfter_eq, expand_eq_ok unnumbered named depth]
  simp only [mem_expandOnce, chooses, Production.filled, Production.mk.injEq]

end Unnumbered

def sum : Production :=
  ⟨"<e> + <e>2".toList, "ADD(<e>2,<e>)".toList⟩

def sumRules : RuleTable :=
  .ofList [sum, ⟨"(<t>)".toList, "<t>".toList⟩]

def sumChoice (token : Text) : Production :=
  if token = "<e>".toList then ⟨"(<t>) + (<t>)".toList, "ADD(<t>,<t>)".toList⟩
  else ⟨"(a)".toList, "A".toList⟩

def sums : Grammar :=
  ⟨"<e>".toList, .ofList [("<e>".toList, sumRules),
    ("<t>".toList, .ofList [⟨"a".toList, "A".toList⟩, ⟨"<n>".toList, "<n>".toList⟩])],
    .ofList [("<n>".toList, "[0-9]+".toList)]⟩

theorem expands_in_every_combination_sums :
    ∃ table, sums.expandAfter [("<t>".toList, 1), ("<z>".toList, 2)] 2 "<e>".toList = .ok table ∧
      table.productions.Nodup ∧
      ⟨"(<t>) + (<t>) + (a)".toList, "ADD(A,ADD(<t>,<t>))".toList⟩ ∈ table.productions ∧
      ⟨"(a) + (<t>)".toList, "ADD(<t>,A)".toList⟩ ∉ table.productions := by
  have unnumbered : ∀ own ∈ sums.nonterminals, own.Unnumbered := by decide +kernel
  have stored : sums.rules.get? "<e>".toList = some sumRules := by decide +kernel
  obtain ⟨table, expanded, distinct, exact⟩ := expands_in_every_combination unnumbered stored
    [("<t>".toList, 1), ("<z>".toList, 2)] 1
  have same : sums.expansion 2 "<e>".toList = table :=
    expansion_of_ok ((expandAfter_eq _ _ _).symm.trans expanded)
  have absent : ⟨"(a) + (<t>)".toList, "ADD(<t>,A)".toList⟩ ∉
      (sums.expansion 2 "<e>".toList).productions := by decide +kernel
  refine ⟨table, expanded, distinct, (exact _ _).mpr ⟨sum, by decide +kernel, sumChoice, ?_,
    by decide +kernel, by decide +kernel⟩, same ▸ absent⟩
  intro token occurs
  have listed : sums.expansionTokens sum = ["<e>".toList, "<e>2".toList] := by decide +kernel
  have either : token = "<e>".toList ∨ token = "<e>2".toList := by
    simpa [listed] using mem_expansionTokens.mpr occurs
  have expands (named : sums.nonterminalName? token = some "<e>".toList) :
      sums.expandAfter [("<t>".toList, 1), ("<z>".toList, 2)] 1 token =
        .ok (sums.expansion 1 token) :=
    (expandAfter_eq _ _ _).trans (expand_eq_ok unnumbered named 1)
  rcases either with rfl | rfl
  · exact ⟨_, expands (by decide +kernel), by decide +kernel⟩
  · exact ⟨_, expands (by decide +kernel), by decide +kernel⟩

end Grammar

end SyncGrammar
