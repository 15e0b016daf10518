import Mathlib.Data.List.Sort
import SyncGrammar.Proofs.Fixpoint
import SyncGrammar.Proofs.InOrder
import SyncGrammar.Proofs.Matching
import SyncGrammar.Regex.Engine
import SyncGrammar.SingleRule

/-!
Grammars of one rule over terminal variables, next to the translation by that rule alone. The rule
alone writes all values in one pass, the two ways write them one after the other. They agree exactly
if that makes no difference to the texts that are written.
-/
namespace SyncGrammar

namespace Token

theorem stripIndex_starts (token : Text) : stripIndex token <+: token := by
  have ends := (List.dropWhile_suffix Char.isDigit (l := token.reverse)).reverse
  rwa [List.reverse_reverse] at ends

end Token

theorem Grammar.orientedRules_eq_nil {grammar : Grammar} {token : Text}
    (unnamed : grammar.nonterminalName? token = none) (direction : Direction) :
    grammar.orientedRules direction token = [] := by
  rw [orientedRules, table?, unnamed]
  rfl

namespace Production

def occurring (names : List Text) (production : Production) : List Text :=
  names.filter fun name => name <:+: production.source ∨ name <:+: production.target

variable {names : List Text} {production : Production} {name : Text}

theorem mem_occurring : name ∈ production.occurring names ↔
    name ∈ names ∧ (name <:+: production.source ∨ name <:+: production.target) := by
  rw [occurring, List.mem_filter, decide_eq_true_iff]

theorem turned_reversed_source (direction : Direction) :
    (production.turned direction.reversed).source = (production.turned direction).target := by
  cases direction with
  | forward => rfl
  | backward => rfl

theorem mem_occurring_of_source {direction : Direction}
    (inside : name <:+: (production.turned direction).source) :
    name ∈ names ↔ name ∈ production.occurring names := by
  rw [mem_occurring, iff_self_and]
  intro _
  cases direction with
  | forward => exact Or.inl inside
  | backward => exact Or.inr inside

end Production

/-- The one rule of a grammar is a rule of its root, whose name occurs in neither side. -/
structure Grammar.Single (grammar : Grammar) (production : Production) : Prop where
  rules : grammar.rules.entries = [(grammar.root, ⟨[production]⟩)]
  source : ¬ grammar.root <:+: production.source
  target : ¬ grammar.root <:+: production.target

namespace Grammar.Single

variable {grammar : Grammar} {production : Production} (single : grammar.Single production)

include single

theorem turned_source (direction : Direction) :
    ¬ grammar.root <:+: (production.turned direction).source := by
  cases direction with
  | forward => exact single.source
  | backward => exact single.target

theorem nonterminals_eq : grammar.nonterminals = [grammar.root] := by
  rw [nonterminals, NameTable.names, single.rules]
  rfl

theorem contains_iff {name : Text} : grammar.rules.contains name = true ↔ grammar.root = name := by
  simp [NameTable.contains, single.rules]

theorem nonterminalName?_eq_none {token side : Text} (outside : ¬ grammar.root <:+: side)
    (inside : token <:+: side) : grammar.nonterminalName? token = none := by
  have starts {name : Text} (begins : name <+: token) : grammar.rules.contains name = false := by
    rw [Bool.eq_false_iff, Ne, single.contains_iff]
    rintro rfl
    exact outside (begins.isInfix.trans inside)
  simp [nonterminalName?, starts List.prefix_rfl, starts (Token.stripIndex_starts token)]

theorem orientedRules_root (direction : Direction) :
    grammar.orientedRules direction grammar.root = [production.turned direction] := by
  have declared := single.contains_iff.mpr rfl
  have table : grammar.table? grammar.root = some ⟨[production]⟩ := by
    simp [table?, nonterminalName?, declared, NameTable.get?, single.rules]
  rw [orientedRules, table]
  cases direction with
  | forward => rfl
  | backward => rfl

theorem unitCycles_eq_nil : grammar.unitCycles = [] := by
  have only (entry : Text × RuleTable) (member : entry ∈ grammar.rules.entries)
      (other : Production) (rule : other ∈ entry.2.productions) : other = production := by
    rw [single.rules, List.mem_singleton] at member
    cases member
    exact List.mem_singleton.mp rule
  apply unitCycles_eq_nil_of_terminals
  · intro entry member other rule token occurs
    rw [only entry member other rule] at occurs
    exact single.nonterminalName?_eq_none single.source (Token.infix_of_mem_tokens occurs)
  · intro entry member other rule token occurs
    rw [only entry member other rule] at occurs
    exact single.nonterminalName?_eq_none single.target (Token.infix_of_mem_tokens occurs)

theorem compile_leafVariables {Compiled : Type} {engine : RegexEngine Compiled} {side : Text}
    {pattern : Pattern Compiled} (wildcard : Text) (outside : ¬ grammar.root <:+: side)
    (compiled : Pattern.compile engine grammar.variables side = .ok pattern) :
    Pattern.compile engine (grammar.leafVariables wildcard) side = .ok pattern := by
  rw [← compiled]
  apply Pattern.compile_congr
  · rw [(Pattern.of_compile_eq_ok compiled).1]
    have listed : grammar.root ∈ grammar.nonterminals := by
      rw [single.nonterminals_eq]
      exact List.mem_singleton.mpr rfl
    exact isEmpty_leafVariables listed
  · intro name inside
    apply get?_leafVariables
    rw [single.nonterminals_eq, List.mem_singleton]
    rintro rfl
    exact outside inside

end Grammar.Single

open Substitution

theorem resolves_terminals_iff {grammar : Grammar} {admits : Derivation → DerivationKey → Prop}
    {known : DerivationKey → Prop} {bindings : List (Text × Text)}
    (terminals : ∀ binding ∈ bindings, grammar.nonterminalName? binding.1 = none)
    {key result : DerivationKey} :
    Resolves grammar admits known ⟨key, ⟨bindings⟩⟩ result ↔
      result = ⟨key.subtext, key.token, inOrder bindings key.source,
        inOrder bindings key.target⟩ := by
  induction bindings generalizing key with
  | nil =>
    constructor
    · intro resolves
      cases resolves
      rfl
    · rintro rfl
      exact .done
  | cons binding rest ih =>
    obtain ⟨here, later⟩ := List.forall_mem_cons.mp terminals
    have onward := @ih later (key.substituted binding.1 binding.2 binding.2)
    constructor
    · intro resolves
      cases resolves with
      | terminal _ resolved => exact onward.mp resolved
      | nonterminal isNonterminal =>
        rw [Grammar.hasNonterminal, here] at isNonterminal
        cases isNonterminal
    · intro same
      have isTerminal : grammar.hasNonterminal binding.1 = false := by
        rw [Grammar.hasNonterminal, here]
        rfl
      exact .terminal isTerminal (onward.mpr same)

namespace Translator

variable {translator : Translator} {production : Production} {text : Text} {direction : Direction}
  {answers : List Assignment}

section Answers

variable (single : translator.grammar.Single production)
  (answer : translator.entailment text (production.turned direction).source = .ok answers)
  (terminals : ∀ assignment ∈ answers, ∀ binding ∈ assignment.bindings,
    translator.grammar.nonterminalName? binding.1 = none)

include single answer terminals

theorem exists_downEnds_of_single :
    ∃ down, translator.DownEnds text direction down ∧ down.failure = none := by
  let key : DerivationKey :=
    .ofProduction text translator.grammar.root (production.turned direction)
  let events := TraceEvent.opened "downward" :: openingEvents direction text []
  have start : translator.downStart text direction = ⟨⟨[key], [key]⟩, ∅, none, events⟩ := by
    rw [downStart, Downward.start, Downward.demands, single.orientedRules_root]
    rfl
  have childless : answers.flatMap (Downward.childDemands translator.grammar direction) = [] := by
    apply List.eq_nil_iff_forall_not_mem.mpr
    intro child member
    obtain ⟨assignment, entails, below⟩ := List.mem_flatMap.mp member
    obtain ⟨binding, bound, demanded⟩ := Downward.mem_childDemands.mp below
    have unnamed := terminals assignment entails binding bound
    rw [Downward.demands, Grammar.orientedRules_eq_nil unnamed] at demanded
    cases demanded
  cases move : Downward.step translator.grammar translator.entailment direction
      (translator.downStart text direction) with
  | none =>
    rw [start] at move
    rcases Downward.step_eq_none_iff.mp move with failed | drained
    · exact absurd rfl failed
    · cases drained
  | some next =>
    have advance := Downward.advance_of_step move
    rw [start] at advance
    cases advance with
    | failed refused => cases answer.symm.trans refused
    | answered given =>
      cases answer.symm.trans given
      refine ⟨_, ⟨.single move, ?_⟩, rfl⟩
      rw [Downward.step_eq_none_iff, childless]
      exact Or.inr rfl

theorem derivesTarget_iff_inOrder (target : Text) :
    translator.DerivesTarget text direction target ↔
      target ∈ answers.map fun assignment =>
        inOrder assignment.bindings (production.turned direction).target := by
  have rules := single.orientedRules_root direction
  rw [List.mem_map]
  constructor
  · rintro ⟨source, derives⟩
    cases derives with
    | @entailed subtext token other given assignment _ rule found entails resolves =>
      obtain rfl : text = subtext := resolves.subtext_eq
      obtain rfl : translator.grammar.root = token := resolves.token_eq
      rw [rules, List.mem_singleton] at rule
      subst rule
      cases answer.symm.trans found
      have written := (resolves_terminals_iff (terminals assignment entails)).mp resolves
      exact ⟨assignment, entails, (congrArg DerivationKey.target written).symm⟩
  · rintro ⟨assignment, entails, rfl⟩
    have rule : production.turned direction ∈
        translator.grammar.orientedRules direction translator.grammar.root := by
      rw [rules]
      exact List.mem_singleton.mpr rfl
    refine ⟨inOrder assignment.bindings (production.turned direction).source,
      .entailed rule answer entails ?_⟩
    exact (resolves_terminals_iff (terminals assignment entails)).mpr rfl

theorem eq_of_demanded {key : DerivationKey}
    (demanded : Downward.Demanded translator.grammar translator.entailment direction text key) :
    key = .ofProduction text translator.grammar.root (production.turned direction) := by
  induction demanded with
  | root rule =>
    rw [single.orientedRules_root, List.mem_singleton] at rule
    rw [rule]
  | child _ given entails bound rule ih =>
    subst ih
    cases answer.symm.trans given
    rw [Grammar.orientedRules_eq_nil (terminals _ entails _ bound)] at rule
    cases rule

variable (parts : ∀ assignment ∈ answers, ∀ binding ∈ assignment.bindings, binding.2 <:+: text)

include parts

theorem exists_upEnds_of_single {down : Downward} (ends : translator.DownEnds text direction down) :
    ∃ up, translator.UpEnds down up := by
  have bounded (item : Derivation) (member : item ∈ down.stack.items) :
      Upward.Bounded translator.grammar text.byteLength item := by
    obtain ⟨demanded, solutions, given, entails⟩ :=
      Downward.demanded_of_mem_stack ends.reached member
    have place := eq_of_demanded single answer terminals demanded
    rw [place] at given
    cases answer.symm.trans given
    have whole : item.key.subtext = text := congrArg DerivationKey.subtext place
    refine Upward.bounded_of_terminals ?_ (terminals _ entails) ?_
    · rw [whole]
    · rw [whole]
      exact parts _ entails
  exact Upward.exists_endsIn bounded _

/-- The answer consists of given texts exactly if they are what is written in order, and no token
is left in them. -/
theorem yields_ok_iff_inOrder {texts : List Text}
    (allowed : translator.config.directions.allows direction = true) :
    translator.Yields text direction (.ok (Text.sortedDistinct texts)) ↔
      (∀ written, written ∈ texts ↔ written ∈ answers.map fun assignment =>
        inOrder assignment.bindings (production.turned direction).target) ∧
      ∀ written ∈ texts, Token.tokens translator.grammar.variableNames written = [] := by
  obtain ⟨down, ends, succeeded⟩ := exists_downEnds_of_single single answer terminals
  obtain ⟨up, ended⟩ := exists_upEnds_of_single single answer terminals parts ends
  have derives := derivesTarget_iff_inOrder single answer terminals
  have outcome := yields_of_acyclic single.unitCycles_eq_nil allowed ends succeeded ended
  constructor
  · intro yields
    rcases outcome with ⟨targets, also, -, exact⟩ | ⟨target, -, -, complaint⟩
    · cases also.unique yields
      have same (written : Text) : written ∈ texts ↔ translator.DerivesTarget text direction
          written := by
        rw [← (exact written).1, Text.mem_sortedDistinct]
      refine ⟨fun written => (same written).trans (derives written), fun written member => ?_⟩
      exact (exact written).2 ((same written).mp member)
    · cases complaint.unique yields
  · rintro ⟨same, resolved⟩
    rcases outcome with ⟨targets, yields, ascending, exact⟩ | ⟨target, derived, held, -⟩
    · have equal : targets = Text.sortedDistinct texts := by
        apply ascending.eq_of_mem_iff (Text.pairwise_sortedDistinct texts)
        intro written
        rw [(exact written).1, derives, ← same, Text.mem_sortedDistinct]
      rwa [equal] at yields
    · have member := (same target).mpr ((derives target).mp derived)
      exact absurd (resolved target member) held

end Answers

end Translator

namespace SingleRule

variable {Compiled : Type} {engine : RegexEngine Compiled} {table : VariableTable}
  {production : Production} {rule : SingleRule Compiled} {text : Text}

theorem compile_input
    (compiled : compile engine table production.source production.target = .ok rule)
    (direction : Direction) :
    Pattern.compile engine table (production.turned direction).source =
      .ok (rule.input direction) := by
  unfold compile at compiled
  cases source : Pattern.compile engine table production.source with
  | error error =>
    rw [source] at compiled
    cases compiled
  | ok read =>
    cases target : Pattern.compile engine table production.target with
    | error error =>
      rw [source, target] at compiled
      cases compiled
    | ok written =>
      rw [source, target] at compiled
      cases compiled
      cases direction with
      | forward => exact source
      | backward => exact target

theorem text_output
    (compiled : compile engine table production.source production.target = .ok rule)
    (direction : Direction) :
    (rule.output direction).text = (production.turned direction).target := by
  have reversed := Pattern.of_compile_eq_ok (compile_input compiled direction.reversed)
  rw [← production.turned_reversed_source]
  exact reversed.2.1

theorem exists_of_map_eq_ok {α : Type} {outcome : Except ConfigurationError (SingleRule Compiled)}
    {observe : SingleRule Compiled → α} {seen : α} (observed : outcome.map observe = .ok seen) :
    ∃ rule, outcome = .ok rule ∧ observe rule = seen := by
  cases outcome with
  | error error => cases observed
  | ok rule => exact ⟨rule, rfl, Except.ok.inj observed⟩

theorem exists_answers_of_translate {direction : Direction} {texts : List Text}
    (translated : rule.translate engine text direction = .ok texts) :
    ∃ answers, (rule.input direction).all engine text = .ok answers ∧
      texts = answers.map fun assignment =>
        substituteAll assignment.bindings (rule.output direction).text := by
  unfold translate at translated
  cases found : (rule.input direction).all engine text with
  | error error =>
    rw [found] at translated
    cases translated
  | ok answers =>
    rw [found] at translated
    cases translated
    exact ⟨answers, rfl, rfl⟩

section Answers

variable {direction : Direction} {answers : List Assignment}
  (compiled : compile engine table production.source production.target = .ok rule)
  (found : (rule.input direction).all engine text = .ok answers)

include compiled found

theorem binds_tokens {assignment : Assignment} (entails : assignment ∈ answers)
    {binding : Text × Text} (bound : binding ∈ assignment.bindings) :
    binding.1 ∈ Token.tokens table.names (production.turned direction).source ∧
      binding.2 <:+: text := by
  have input := compile_input compiled direction
  have answer := Entailment.matching_eq_ok input found
  obtain ⟨tokens, parts⟩ := Entailment.tokens_of_matching answer entails
  have inside : binding.1 ∈ assignment.tokens := List.mem_map_of_mem bound
  rw [tokens, List.mem_eraseDups] at inside
  exact ⟨inside, parts binding bound⟩

theorem map_inOrder_eq (apart : Token.Apart (production.occurring table.names))
    (unhindered : ∀ assignment ∈ answers,
      Unhindered table.names assignment.bindings (rule.output direction).text)
    (unnamed : ∀ assignment ∈ answers, ∀ name ∈ table.names,
      ¬ name <:+: substituteAll assignment.bindings (rule.output direction).text) :
    (answers.map fun assignment => inOrder assignment.bindings (rule.output direction).text) =
      answers.map fun assignment =>
        substituteAll assignment.bindings (rule.output direction).text := by
  have readSame : Token.tokens table.names (production.turned direction).source =
      Token.tokens (production.occurring table.names) (production.turned direction).source :=
    Token.tokens_congr fun _ => Production.mem_occurring_of_source
  have writtenSame : Token.segments table.names (rule.output direction).text =
      Token.segments (production.occurring table.names) (rule.output direction).text := by
    apply Token.segments_congr
    intro name inside
    rw [text_output compiled, ← Production.turned_reversed_source] at inside
    exact Production.mem_occurring_of_source inside
  apply List.map_congr_left
  intro assignment entails
  apply inOrder_eq_substituteAll apart
  · intro binding bound
    have occurs := (binds_tokens compiled found entails bound).1
    rw [readSame] at occurs
    exact Token.isToken_of_mem_tokens occurs
  · rw [Unhindered, ← writtenSame]
    exact unhindered assignment entails
  · intro name occurs
    exact unnamed assignment entails name (Production.mem_occurring.mp occurs).1

end Answers

end SingleRule

theorem Grammar.Single.ofConfig_eq_ok {Compiled : Type} {engine : RegexEngine Compiled}
    {grammar : Grammar} {production : Production} (single : grammar.Single production)
    {rule : SingleRule Compiled}
    (compiled : SingleRule.compile engine grammar.variables production.source production.target =
      .ok rule) (config : TranslatorConfig) :
    Translator.ofConfig engine grammar config =
      .ok ⟨grammar, config, .matching engine (grammar.leafVariables config.wildcard)⟩ := by
  apply Translator.ofConfig_eq_ok
  rw [RegexEntailment.isOk_forGrammar_iff]
  have sides : RegexEntailment.hypotheses grammar = [production.source, production.target] := by
    rw [RegexEntailment.hypotheses, single.rules]
    rfl
  have source := single.compile_leafVariables config.wildcard single.source
    (SingleRule.compile_input compiled .forward)
  have target := single.compile_leafVariables config.wildcard single.target
    (SingleRule.compile_input compiled .backward)
  intro hypothesis member
  rw [sides] at member
  simp only [List.mem_cons, List.not_mem_nil, or_false] at member
  rcases member with rfl | rfl
  · rw [source]
    rfl
  · rw [target]
    rfl

namespace Translator

/-- The translation by one rule alone and that by the grammar of this rule agree exactly if writing
the values one after the other writes the same texts as writing all at once. They do if no name can
be mistaken for another and no digit stands behind a token when its turn comes. -/
theorem agrees_with_rule_iff {Compiled : Type} {engine : RegexEngine Compiled} {grammar : Grammar}
    {config : TranslatorConfig} {production : Production} {rule : SingleRule Compiled}
    {text : Text} {direction : Direction} {texts : List Text} (single : grammar.Single production)
    (compiled : SingleRule.compile engine grammar.variables production.source production.target =
      .ok rule)
    (allowed : config.directions.allows direction = true)
    (translated : rule.translate engine text direction = .ok texts)
    (unnamed : ∀ written ∈ texts, ∀ name ∈ grammar.variableNames, ¬ name <:+: written) :
    ∃ translator answers, ofConfig engine grammar config = .ok translator ∧
      (rule.input direction).all engine text = .ok answers ∧
      (translator.Yields text direction (.ok (Text.sortedDistinct texts)) ↔
        ∀ written, written ∈ texts ↔ written ∈ answers.map fun assignment =>
          inOrder assignment.bindings (rule.output direction).text) ∧
      (Token.Apart (production.occurring grammar.variables.names) →
        (∀ assignment ∈ answers, Unhindered grammar.variables.names assignment.bindings
          (rule.output direction).text) →
        translator.Yields text direction (.ok (Text.sortedDistinct texts))) := by
  obtain ⟨answers, found, rfl⟩ := SingleRule.exists_answers_of_translate translated
  have outside := single.turned_source direction
  have binds (assignment : Assignment) (entails : assignment ∈ answers) (binding : Text × Text)
      (bound : binding ∈ assignment.bindings) :=
    SingleRule.binds_tokens compiled found entails bound
  let translator : Translator :=
    ⟨grammar, config, .matching engine (grammar.leafVariables config.wildcard)⟩
  have answer : translator.entailment text (production.turned direction).source = .ok answers :=
    Entailment.matching_eq_ok (single.compile_leafVariables _ outside
      (SingleRule.compile_input compiled direction)) found
  have terminals (assignment : Assignment) (entails : assignment ∈ answers)
      (binding : Text × Text) (bound : binding ∈ assignment.bindings) :
      grammar.nonterminalName? binding.1 = none := by
    have inside := Token.infix_of_mem_tokens (binds assignment entails binding bound).1
    exact single.nonterminalName?_eq_none outside inside
  have parts (assignment : Assignment) (entails : assignment ∈ answers) (binding : Text × Text)
      (bound : binding ∈ assignment.bindings) : binding.2 <:+: text :=
    (binds assignment entails binding bound).2
  let texts := answers.map fun assignment =>
    substituteAll assignment.bindings (rule.output direction).text
  have resolved (written : Text) (member : written ∈ texts) :
      Token.tokens grammar.variableNames written = [] :=
    Token.tokens_eq_nil_of_unnamed fun name declared _ => unnamed written member name declared
  have agrees : translator.Yields text direction (.ok (Text.sortedDistinct texts)) ↔
      ∀ written, written ∈ texts ↔ written ∈ answers.map fun assignment =>
        inOrder assignment.bindings (rule.output direction).text := by
    rw [SingleRule.text_output compiled direction]
    exact (yields_ok_iff_inOrder single answer terminals parts allowed).trans
      (and_iff_left resolved)
  refine ⟨translator, answers, single.ofConfig_eq_ok compiled config, found, agrees, ?_⟩
  intro apart unhindered
  have declared (assignment : Assignment) (entails : assignment ∈ answers) (name : Text)
      (isName : name ∈ grammar.variables.names) :
      ¬ name <:+: substituteAll assignment.bindings (rule.output direction).text := by
    apply unnamed _ (List.mem_map.mpr ⟨assignment, entails, rfl⟩)
    rw [Grammar.variableNames, Text.mem_sortedDistinct, List.mem_append]
    exact Or.inr isName
  have equal := SingleRule.map_inOrder_eq compiled found apart unhindered declared
  rw [agrees, equal]
  exact fun _ => Iff.rfl

def numberWord (target : Text) : Grammar :=
  ⟨"<r>".toList, .ofList [("<r>".toList, .ofList [⟨"<b> <a>".toList, target⟩])],
    .ofList [("<a>".toList, "[a-z]+".toList), ("<b>".toList, "[0-9]+".toList)]⟩

def numberWordTranslator (target : Text) : Translator :=
  ⟨numberWord target, .standard,
    .matching Regex.engine ((numberWord target).leafVariables TranslatorConfig.standard.wildcard)⟩

def fiveX : Assignment :=
  ⟨[("<b>".toList, "5".toList), ("<a>".toList, "x".toList)]⟩

theorem agrees_with_rule_iff_numberWord :
    (numberWord "<b><a>".toList).Single ⟨"<b> <a>".toList, "<b><a>".toList⟩ ∧
      Token.Apart (Production.occurring (numberWord "<b><a>".toList).variables.names
        ⟨"<b> <a>".toList, "<b><a>".toList⟩) ∧
      ∃ rule, SingleRule.compile Regex.engine (numberWord "<b><a>".toList).variables
          "<b> <a>".toList "<b><a>".toList = .ok rule ∧
        rule.translate Regex.engine "5 x".toList .forward = .ok ["5x".toList] ∧
        (∀ written ∈ ["5x".toList], ∀ name ∈ (numberWord "<b><a>".toList).variableNames,
          ¬ name <:+: written) ∧
        ∃ translator,
          ofConfig Regex.engine (numberWord "<b><a>".toList) .standard = .ok translator ∧
          translator.Yields "5 x".toList .forward (.ok ["5x".toList]) := by
  let grammar := numberWord "<b><a>".toList
  have single : grammar.Single ⟨"<b> <a>".toList, "<b><a>".toList⟩ :=
    ⟨by decide +kernel, by decide +kernel, by decide +kernel⟩
  have apart : Token.Apart (Production.occurring grammar.variables.names
      ⟨"<b> <a>".toList, "<b><a>".toList⟩) := Token.apart_of_bracketed (by decide +kernel)
  have observed : (SingleRule.compile Regex.engine grammar.variables "<b> <a>".toList
      "<b><a>".toList).map (fun rule => (rule.translate Regex.engine "5 x".toList .forward,
        (rule.input .forward).all Regex.engine "5 x".toList, (rule.output .forward).text)) =
        .ok (.ok ["5x".toList], .ok [fiveX], "<b><a>".toList) := by decide +kernel
  obtain ⟨rule, compiled, seen⟩ := SingleRule.exists_of_map_eq_ok observed
  obtain ⟨translated, found, output⟩ : _ ∧ _ ∧ _ := by simpa using seen
  have allowed : TranslatorConfig.standard.directions.allows .forward = true := rfl
  have unnamed : ∀ written ∈ ["5x".toList], ∀ name ∈ grammar.variableNames,
      ¬ name <:+: written := by decide +kernel
  obtain ⟨translator, answers, built, all, -, agrees⟩ :=
    agrees_with_rule_iff single compiled allowed translated unnamed
  cases found.symm.trans all
  refine ⟨single, apart, rule, compiled, translated, unnamed, translator, built,
    agrees apart ?_⟩
  rw [output]
  decide +kernel

/-- The number comes to stand behind the token of the word, which is then another one. -/
theorem agreement_lost_numberWord :
    (numberWord "<a><b>".toList).Single ⟨"<b> <a>".toList, "<a><b>".toList⟩ ∧
      (∃ rule, SingleRule.compile Regex.engine (numberWord "<a><b>".toList).variables
          "<b> <a>".toList "<a><b>".toList = .ok rule ∧
        (rule.input .forward).all Regex.engine "5 x".toList = .ok [fiveX] ∧
        rule.translate Regex.engine "5 x".toList .forward = .ok ["x5".toList]) ∧
      (∀ name ∈ (numberWord "<a><b>".toList).variableNames,
        (∀ binding ∈ fiveX.bindings, ¬ name <:+: binding.2) ∧ ¬ name <:+: "x5".toList) ∧
      ofConfig Regex.engine (numberWord "<a><b>".toList) .standard =
        .ok (numberWordTranslator "<a><b>".toList) ∧
      (numberWordTranslator "<a><b>".toList).Yields "5 x".toList .forward
        (.error (.unresolvedVariables "<a>5".toList ["<a>5".toList])) ∧
      ¬ (numberWordTranslator "<a><b>".toList).Yields "5 x".toList .forward
        (.ok (Text.sortedDistinct ["x5".toList])) := by
  have run : (numberWordTranslator "<a><b>".toList).Yields "5 x".toList .forward
      (.error (.unresolvedVariables "<a>5".toList ["<a>5".toList])) := ⟨50, by decide +kernel⟩
  have observed : (SingleRule.compile Regex.engine (numberWord "<a><b>".toList).variables
      "<b> <a>".toList "<a><b>".toList).map (fun rule =>
        ((rule.input .forward).all Regex.engine "5 x".toList,
        rule.translate Regex.engine "5 x".toList .forward)) =
        .ok (.ok [fiveX], .ok ["x5".toList]) := by decide +kernel
  obtain ⟨rule, compiled, seen⟩ := SingleRule.exists_of_map_eq_ok observed
  refine ⟨⟨by decide +kernel, by decide +kernel, by decide +kernel⟩,
    ⟨rule, compiled, congrArg Prod.fst seen, congrArg Prod.snd seen⟩, by decide +kernel,
    ofConfig_eq_ok (by decide +kernel), run, fun agrees => ?_⟩
  cases agrees.unique run

end Translator

end SyncGrammar
