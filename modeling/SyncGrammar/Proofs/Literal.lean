import SyncGrammar.EngineLaws
import SyncGrammar.Proofs.GreedyEngine
import SyncGrammar.Proofs.Lossless

namespace SyncGrammar

variable {Compiled : Type} {engine : RegexEngine Compiled}

namespace Pattern

variable {table : VariableTable} {side : Text} {pattern : Pattern Compiled}

theorem splice_literal (literal : Token.segments table.names side = side.map .literal)
    (escape : Text → Text) : splice escape table side = escape side := by
  have one (side : Text) : piecesFrom table [] (side.map .literal) = [.literal side] := by
    induction side with
    | nil => rfl
    | cons c side ih => rw [List.map_cons, piecesFrom, ih, Piece.prepend]
  rw [splice, pieces, literal, one, List.flatMap_singleton, Piece.written]

theorem all_literal (finds : engine.FindsLiterals)
    (literal : Token.segments table.names side = side.map .literal)
    (compiled : compile engine table side = .ok pattern) (text : Text) :
    ∃ answers, pattern.all engine text = .ok answers ∧
      (∀ assignment ∈ answers, assignment = ⟨[]⟩) ∧ (answers ≠ [] ↔ side <:+: text) := by
  obtain ⟨-, -, regex, groups⟩ := of_compile_eq_ok compiled
  rw [splice_literal literal] at regex
  have tokens : Token.tokens table.names side = [] := by
    rw [Token.tokens, literal, List.filterMap_map]
    exact List.filterMap_none side
  refine ⟨_, all_eq_ok (finds.succeeds side _ regex text), ?_, ?_⟩
  · intro assignment member
    obtain ⟨found, -, rfl⟩ := List.mem_map.mp member
    rw [bindings, groups, tokens]
    rfl
  · rw [Ne, List.map_eq_nil_iff]
    exact finds.found_iff side _ regex text

end Pattern

/-- No declared name occurs in either side. -/
def Production.IsLiteral (names : List Text) (production : Production) : Prop :=
  ∀ name ∈ names, name ≠ [] → ¬ name <:+: production.source ∧ ¬ name <:+: production.target

instance (names : List Text) (production : Production) : Decidable (production.IsLiteral names) :=
  inferInstanceAs (Decidable (∀ name ∈ names, name ≠ [] →
    ¬ name <:+: production.source ∧ ¬ name <:+: production.target))

theorem Production.IsLiteral.turned {names : List Text} {production : Production}
    (literal : production.IsLiteral names) (direction : Direction) :
    (production.turned direction).IsLiteral names := by
  intro name declared nonempty
  cases direction with
  | forward => exact literal name declared nonempty
  | backward => exact (literal name declared nonempty).symm

namespace Translator

variable {translator : Translator} {text : Text} {direction : Direction}

/-- The rules of the root are answered by whether their sources occur in the text. -/
def AsksForOccurrences (translator : Translator) (text : Text) (direction : Direction) : Prop :=
  ∀ production ∈ translator.grammar.orientedRules direction translator.grammar.root, ∃ answers,
    translator.entailment text production.source = .ok answers ∧
      (∀ assignment ∈ answers, assignment = ⟨[]⟩) ∧
      (answers ≠ [] ↔ production.source <:+: text)

theorem AsksForOccurrences.answer (asks : translator.AsksForOccurrences text direction)
    {production : Production} {answers : List Assignment} {assignment : Assignment}
    (rule : production ∈ translator.grammar.orientedRules direction translator.grammar.root)
    (answer : translator.entailment text production.source = .ok answers)
    (entails : assignment ∈ answers) : assignment = ⟨[]⟩ ∧ production.source <:+: text := by
  obtain ⟨others, known, empty, occurs⟩ := asks production rule
  rw [answer] at known
  cases known
  exact ⟨empty assignment entails, occurs.mp (List.ne_nil_of_mem entails)⟩

theorem AsksForOccurrences.exists_rule (asks : translator.AsksForOccurrences text direction)
    {key : DerivationKey}
    (demanded : Downward.Demanded translator.grammar translator.entailment direction text key) :
    ∃ production ∈ translator.grammar.orientedRules direction translator.grammar.root,
      key = .ofProduction text translator.grammar.root production := by
  induction demanded with
  | @root production rule => exact ⟨production, rule, rfl⟩
  | child _ answer entails bound _ ih =>
    obtain ⟨above, own, rfl⟩ := ih
    obtain ⟨rfl, -⟩ := asks.answer own answer entails
    cases bound

theorem AsksForOccurrences.answered (asks : translator.AsksForOccurrences text direction) :
    translator.Answered text direction := by
  intro key demanded
  obtain ⟨production, rule, rfl⟩ := asks.exists_rule demanded
  obtain ⟨answers, answer, -⟩ := asks production rule
  exact ⟨answers, answer⟩

theorem AsksForOccurrences.derivesWith (asks : translator.AsksForOccurrences text direction)
    {production : Production}
    (rule : production ∈ translator.grammar.orientedRules direction translator.grammar.root)
    (occurs : production.source <:+: text) (admits : Derivation → DerivationKey → Prop) :
    DerivesWith translator.grammar translator.entailment direction admits
      (.ofProduction text translator.grammar.root production) := by
  obtain ⟨answers, answer, empty, found⟩ := asks production rule
  obtain ⟨assignment, entails⟩ := List.exists_mem_of_ne_nil _ (found.mpr occurs)
  cases empty assignment entails
  exact .entailed rule answer entails .done

theorem AsksForOccurrences.of_derives (asks : translator.AsksForOccurrences text direction)
    {key : DerivationKey} (derives : Derives translator.grammar translator.entailment direction key)
    (whole : key.subtext = text) (asRoot : key.token = translator.grammar.root) :
    ∃ production ∈ translator.grammar.orientedRules direction translator.grammar.root,
      production.source <:+: text ∧
        key = .ofProduction text translator.grammar.root production := by
  cases derives with
  | @entailed subtext token production answers assignment _ rule answer entails resolves =>
    obtain rfl : subtext = text := resolves.subtext_eq.symm.trans whole
    obtain rfl : token = translator.grammar.root := resolves.token_eq.symm.trans asRoot
    obtain ⟨rfl, occurs⟩ := asks.answer rule answer entails
    cases resolves
    exact ⟨production, rule, occurs, rfl⟩

theorem AsksForOccurrences.exists_outcome (asks : translator.AsksForOccurrences text direction) :
    ∃ down up, translator.DownEnds text direction down ∧ down.failure = none ∧
      translator.UpEnds down up ∧ ∀ key,
        key ∈ up.completed.lookup text translator.grammar.root ↔
          ∃ production ∈ translator.grammar.orientedRules direction translator.grammar.root,
            production.source <:+: text ∧
              key = .ofProduction text translator.grammar.root production := by
  have within (key : DerivationKey)
      (demanded : Downward.Demanded translator.grammar translator.entailment direction text key) :
      Downward.WithinText translator.grammar direction text key := by
    obtain ⟨production, rule, rfl⟩ := asks.exists_rule demanded
    exact ⟨List.infix_refl text, List.mem_cons_self, rule⟩
  obtain ⟨down, ends⟩ := Downward.exists_endsIn_of_within within
    (.opened "downward" :: openingEvents direction text [])
  have succeeded := asks.answered.succeeded ends
  have bounded (item : Derivation) (member : item ∈ down.stack.items) :
      Upward.Bounded translator.grammar text.byteLength item := by
    obtain ⟨demanded, answers, answer, entails⟩ :=
      Downward.demanded_of_mem_stack ends.reached member
    obtain ⟨key, assignment⟩ := item
    obtain ⟨production, rule, rfl⟩ := asks.exists_rule demanded
    obtain ⟨rfl, -⟩ := asks.answer rule answer entails
    exact ⟨Nat.le_refl _, fun binding bound => by cases bound⟩
  obtain ⟨up, ended⟩ := Upward.exists_endsIn bounded
    (.opened "upward" :: .closed :: down.queuedNote :: down.events)
  refine ⟨down, up, ends, succeeded, ended, fun key => ?_⟩
  rw [CompletedSet.mem_lookup]
  constructor
  · rintro ⟨completed, whole, asRoot⟩
    have derives := derives_of_onWayUp ⟨down, ends, succeeded, ended.reached⟩ completed
    exact asks.of_derives derives whole asRoot
  · rintro ⟨production, rule, occurs, rfl⟩
    refine ⟨?_, rfl, rfl⟩
    exact Upward.completed_of_derivesWith ends succeeded ended
      (asks.derivesWith rule occurs _) classDemanded_root

theorem AsksForOccurrences.exists_targets (asks : translator.AsksForOccurrences text direction)
    (allowed : translator.config.directions.allows direction = true)
    (resolved : ∀ production ∈ translator.grammar.orientedRules direction translator.grammar.root,
      Token.tokens translator.grammar.variableNames production.target = []) :
    ∃ targets, translator.Yields text direction (.ok targets) ∧ targets.Pairwise (· < ·) ∧
      ∀ target, target ∈ targets ↔
        ∃ production ∈ translator.grammar.orientedRules direction translator.grammar.root,
          production.source <:+: text ∧ production.target = target := by
  obtain ⟨down, up, ends, succeeded, ended, completed⟩ := asks.exists_outcome
  have yields := yields_of_outcome allowed (.collected ends succeeded ended)
  rw [collect_of_resolved fun key member => ?_] at yields
  · refine ⟨_, yields, Text.pairwise_sortedDistinct _, fun target => ?_⟩
    rw [Text.mem_sortedDistinct, List.mem_map]
    constructor
    · rintro ⟨key, member, rfl⟩
      obtain ⟨production, rule, occurs, rfl⟩ := (completed key).mp member
      exact ⟨production, rule, occurs, rfl⟩
    · rintro ⟨production, rule, occurs, rfl⟩
      exact ⟨_, (completed _).mpr ⟨production, rule, occurs, rfl⟩, rfl⟩
  · obtain ⟨production, rule, -, rfl⟩ := (completed key).mp member
    exact resolved production rule

section Literal

variable {grammar : Grammar} {config : TranslatorConfig} {table : RuleTable}
  (finds : engine.FindsLiterals) (built : ofConfig engine grammar config = .ok translator)
  (root : grammar.rulesFor grammar.root = .ok table)
  (literal : ∀ production ∈ table.productions, production.IsLiteral grammar.variableNames)

include root

theorem mem_orientedRules_root {production : Production} :
    production ∈ grammar.orientedRules direction grammar.root ↔
      production.turned direction ∈ table.productions := by
  simp [Grammar.mem_orientedRules, Grammar.rulesFor_eq_ok_iff.mp root]

include literal

theorem isLiteral_of_root {production : Production}
    (rule : production ∈ grammar.orientedRules direction grammar.root) :
    production.IsLiteral grammar.variableNames := by
  have turned := (literal _ ((mem_orientedRules_root root).mp rule)).turned direction
  cases direction with
  | forward => exact turned
  | backward => exact turned

include finds built

theorem asksForOccurrences_of_literal (text : Text) (direction : Direction) :
    translator.AsksForOccurrences text direction := by
  obtain ⟨rfl, rfl, matching⟩ := of_ofConfig built
  intro production rule
  have isLiteral := isLiteral_of_root root literal rule
  have cut : Token.segments (translator.grammar.leafVariables translator.config.wildcard).names
      production.source = production.source.map .literal := by
    rw [Grammar.names_leafVariables]
    exact Token.segments_of_unnamed fun name declared nonempty =>
      (isLiteral name declared nonempty).1
  have compiles := isOk_ofConfig_iff.mp (congrArg Except.isOk built) production.source
    (Grammar.source_mem_hypotheses rule)
  cases compiled : Pattern.compile engine
      (translator.grammar.leafVariables translator.config.wildcard) production.source with
  | error error =>
    rw [compiled] at compiles
    cases compiles
  | ok pattern =>
    obtain ⟨answers, all, empty, occurs⟩ := Pattern.all_literal finds cut compiled text
    refine ⟨answers, ?_, empty, occurs⟩
    rw [matching]
    exact Entailment.matching_eq_ok compiled all

theorem exists_targets_of_literal (text : Text)
    (allowed : config.directions.allows direction = true) :
    ∃ targets, translator.Yields text direction (.ok targets) ∧ targets.Pairwise (· < ·) ∧
      ∀ target, target ∈ targets ↔ ∃ production ∈ grammar.orientedRules direction grammar.root,
        production.source <:+: text ∧ production.target = target := by
  have asks := asksForOccurrences_of_literal finds built root literal text direction
  obtain ⟨rfl, rfl, -⟩ := of_ofConfig built
  apply asks.exists_targets allowed
  intro production rule
  have isLiteral := isLiteral_of_root root literal rule
  exact Token.tokens_eq_nil_of_unnamed fun name declared nonempty =>
    (isLiteral name declared nonempty).2

end Literal

/-- Where the rules of the root hold no declared names, a text is translated forward to the targets
of those whose sources occur in it and backward to the sources of those whose targets do. In
particular each rule translates its own sides into one another. -/
theorem literal_rules_by_occurrence {grammar : Grammar} {config : TranslatorConfig}
    {table : RuleTable} (finds : engine.FindsLiterals)
    (built : ofConfig engine grammar config = .ok translator)
    (root : grammar.rulesFor grammar.root = .ok table)
    (literal : ∀ production ∈ table.productions, production.IsLiteral grammar.variableNames) :
    (config.directions.allows .forward = true → ∀ text, ∃ targets,
      translator.Yields text .forward (.ok targets) ∧ targets.Pairwise (· < ·) ∧
        ∀ target, target ∈ targets ↔
          ∃ production ∈ table.productions, production.source <:+: text ∧
            production.target = target) ∧
    (config.directions.allows .backward = true → ∀ text, ∃ sources,
      translator.Yields text .backward (.ok sources) ∧ sources.Pairwise (· < ·) ∧
        ∀ source, source ∈ sources ↔
          ∃ production ∈ table.productions, production.target <:+: text ∧
            production.source = source) ∧
    ∀ production ∈ table.productions,
      (config.directions.allows .forward = true →
        translator.Translates production.source .forward production.target) ∧
      (config.directions.allows .backward = true →
        translator.Translates production.target .backward production.source) := by
  have forward (allowed : config.directions.allows .forward = true) (text : Text) :
      ∃ targets, translator.Yields text .forward (.ok targets) ∧ targets.Pairwise (· < ·) ∧
        ∀ target, target ∈ targets ↔ ∃ production ∈ table.productions,
          production.source <:+: text ∧ production.target = target := by
    obtain ⟨targets, yields, ascending, exact⟩ :=
      exists_targets_of_literal finds built root literal text allowed
    refine ⟨targets, yields, ascending, fun target => (exact target).trans ?_⟩
    simp only [mem_orientedRules_root root]
    rfl
  have backward (allowed : config.directions.allows .backward = true) (text : Text) :
      ∃ sources, translator.Yields text .backward (.ok sources) ∧ sources.Pairwise (· < ·) ∧
        ∀ source, source ∈ sources ↔ ∃ production ∈ table.productions,
          production.target <:+: text ∧ production.source = source := by
    obtain ⟨sources, yields, ascending, exact⟩ :=
      exists_targets_of_literal finds built root literal text allowed
    refine ⟨sources, yields, ascending, fun source => (exact source).trans ?_⟩
    simp only [mem_orientedRules_root root]
    constructor
    · rintro ⟨production, rule, occurs, same⟩
      exact ⟨_, rule, occurs, same⟩
    · rintro ⟨production, rule, occurs, same⟩
      exact ⟨production.inverted, rule, occurs, same⟩
  refine ⟨forward, backward, fun production rule => ⟨fun allowed => ?_, fun allowed => ?_⟩⟩
  · obtain ⟨targets, yields, -, exact⟩ := forward allowed production.source
    exact ⟨targets, yields, (exact _).mpr ⟨production, rule, List.infix_refl _, rfl⟩⟩
  · obtain ⟨sources, yields, -, exact⟩ := backward allowed production.target
    exact ⟨sources, yields, (exact _).mpr ⟨production, rule, List.infix_refl _, rfl⟩⟩

def dottedRules : RuleTable :=
  .ofList [⟨"a.b".toList, "(x)".toList⟩, ⟨"a".toList, "x|y".toList⟩, ⟨"a".toList, "(x".toList⟩,
    ⟨"b".toList, "(x".toList⟩]

def dotted : Grammar :=
  ⟨"<s>".toList, .ofList [("<s>".toList, dottedRules),
    ("<u>".toList, .ofList [⟨"<u>".toList, "U(<u>)".toList⟩])], ∅⟩

theorem literal_rules_by_occurrence_dotted :
    Regex.engine.FindsLiterals ∧ dotted.unitCycles ≠ [] ∧
      ∃ translator, ofConfig Regex.engine dotted .standard = .ok translator ∧
      (∃ targets, translator.Yields "axb".toList .forward (.ok targets) ∧
        "x|y".toList ∈ targets ∧ "(x".toList ∈ targets ∧ "(x)".toList ∉ targets) ∧
      (∃ sources, translator.Yields "((x|".toList .backward (.ok sources) ∧
        "a".toList ∈ sources ∧ "b".toList ∈ sources ∧ "a.b".toList ∉ sources) ∧
      translator.Translates "a.b".toList .forward "(x)".toList := by
  have compiles : (RegexEntailment.forGrammar Regex.engine dotted
      TranslatorConfig.standard.wildcard).isOk = true := by decide +kernel
  have root : dotted.rulesFor dotted.root = .ok dottedRules := by rfl
  have literal : ∀ production ∈ dottedRules.productions,
      production.IsLiteral dotted.variableNames := by decide +kernel
  obtain ⟨forward, backward, own⟩ :=
    literal_rules_by_occurrence Regex.findsLiterals_engine (ofConfig_eq_ok compiles) root literal
  refine ⟨Regex.findsLiterals_engine, by decide +kernel, _, ofConfig_eq_ok compiles, ?_, ?_, ?_⟩
  · obtain ⟨targets, yields, -, exact⟩ := forward rfl "axb".toList
    exact ⟨targets, yields, (exact _).mpr (by decide +kernel), (exact _).mpr (by decide +kernel),
      fun member => absurd ((exact _).mp member) (by decide +kernel)⟩
  · obtain ⟨sources, yields, -, exact⟩ := backward rfl "((x|".toList
    exact ⟨sources, yields, (exact _).mpr (by decide +kernel), (exact _).mpr (by decide +kernel),
      fun member => absurd ((exact _).mp member) (by decide +kernel)⟩
  · exact (own ⟨"a.b".toList, "(x)".toList⟩ (by decide +kernel)).1 rfl

end Translator

end SyncGrammar
