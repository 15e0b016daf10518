import SyncGrammar.Proofs.Building
import SyncGrammar.Proofs.Matching
import SyncGrammar.Proofs.Translation
import SyncGrammar.Regex.Engine

/-!
The two directions are dual. Reading the rules of a grammar backward is reading the rules with their
sides swapped forward, step by step: the rules of a token are the same and stand in the same order,
and a unit cycle may lead through either side of a rule. Only the trace tells the two runs apart,
and no step looks at it.
-/
namespace SyncGrammar

namespace NameTable

variable {α β : Type}

def map (change : α → β) (table : NameTable α) : NameTable β :=
  ⟨table.entries.map fun entry => (entry.1, change entry.2),
    List.pairwise_map.mpr table.ascending⟩

variable {change : α → β} {table : NameTable α} {name : Text}

theorem names_map : (table.map change).names = table.names := by
  simp [names, map]

theorem contains_map : (table.map change).contains name = table.contains name := by
  simp [contains, map, List.any_map, Function.comp_def]

theorem get?_map : (table.map change).get? name = (table.get? name).map change := by
  simp [get?, map, List.find?_map, Function.comp_def]

theorem map_alter {first : Option α → α} {second : Option β → β}
    (same : ∀ old, second (old.map change) = change (first old)) :
    (table.alter name first).map change = (table.map change).alter name second := by
  apply eq_of_get?_eq
  intro other
  rw [get?_map, get?_alter, get?_alter, get?_map]
  split
  · rw [same]
    rfl
  · rw [get?_map]

end NameTable

namespace RuleTable

variable {table : RuleTable}

theorem hasEmptySide_swapped : table.swapped.hasEmptySide = table.hasEmptySide := by
  simp only [hasEmptySide, swapped, List.any_map, Function.comp_def, Production.inverted]
  congr 1
  funext production
  exact Bool.or_comm _ _

end RuleTable

/-- The grammar with the two sides of every rule swapped, in the same order. -/
def Grammar.inverted (grammar : Grammar) : Grammar :=
  ⟨grammar.root, grammar.rules.map RuleTable.swapped, grammar.variables⟩

def BuildStep.inverted : BuildStep → BuildStep
  | .root name => .root name
  | .rule nonterminal source target => .rule nonterminal target source
  | .variable name regex => .variable name regex

namespace GrammarBuilder

def inverted (builder : GrammarBuilder) : GrammarBuilder :=
  { builder with rules := builder.rules.map RuleTable.swapped }

variable {builder : GrammarBuilder}

theorem step_inverted (step : BuildStep) :
    builder.inverted.step step.inverted = (builder.step step).inverted := by
  cases step with
  | root name => rfl
  | «variable» name regex => rfl
  | rule nonterminal source target =>
    have altered :
        (builder.rules.alter nonterminal fun old => (old.getD ∅).insert ⟨source, target⟩).map
            RuleTable.swapped =
          (builder.rules.map RuleTable.swapped).alter nonterminal fun old =>
            (old.getD ∅).insert ⟨target, source⟩ := by
      apply NameTable.map_alter
      intro old
      rw [RuleTable.insert_swapped]
      cases old <;> rfl
    simp only [inverted, step, BuildStep.inverted, addRule, altered]

theorem foldl_step_inverted (steps : List BuildStep) :
    (steps.map BuildStep.inverted).foldl step builder.inverted =
      (steps.foldl step builder).inverted := by
  induction steps generalizing builder with
  | nil => rfl
  | cons first rest ih => rw [List.map_cons, List.foldl_cons, step_inverted, ih, List.foldl_cons]

theorem build_inverted : builder.inverted.build = builder.build.map Grammar.inverted := by
  obtain ⟨root, rules, table⟩ := builder
  cases root with
  | none => rfl
  | some root =>
    simp only [build, inverted, NameTable.contains_map]
    split
    · simp only [NameTable.map, List.find?_map, Function.comp_def, RuleTable.hasEmptySide_swapped]
      cases rules.entries.find? (·.2.hasEmptySide) <;> rfl
    · rfl

theorem build_ofSteps_inverted (steps : List BuildStep) :
    (ofSteps (steps.map BuildStep.inverted)).build =
      (ofSteps steps).build.map Grammar.inverted := by
  rw [← build_inverted, ofSteps, ofSteps, ← foldl_step_inverted]
  rfl

end GrammarBuilder

namespace Grammar

variable {grammar : Grammar}

theorem nonterminals_inverted : grammar.inverted.nonterminals = grammar.nonterminals :=
  NameTable.names_map

theorem variableNames_inverted : grammar.inverted.variableNames = grammar.variableNames := by
  rw [variableNames, variableNames, nonterminals_inverted]
  rfl

theorem leafVariables_inverted (wildcard : Text) :
    grammar.inverted.leafVariables wildcard = grammar.leafVariables wildcard := by
  rw [leafVariables, leafVariables, nonterminals_inverted]
  rfl

theorem nonterminalName?_inverted (token : Text) :
    grammar.inverted.nonterminalName? token = grammar.nonterminalName? token := by
  simp only [nonterminalName?, inverted, NameTable.contains_map]

theorem orientedRules_inverted (wellFormed : grammar.WellFormed) (direction : Direction)
    (token : Text) :
    grammar.inverted.orientedRules direction.reversed token =
      grammar.orientedRules direction token := by
  have table : grammar.inverted.table? token = (grammar.table? token).map RuleTable.swapped := by
    rw [table?, table?, nonterminalName?_inverted, Option.map_bind]
    congr 1
    funext name
    exact NameTable.get?_map
  rw [orientedRules, orientedRules, table]
  cases found : grammar.table? token with
  | none => rfl
  | some table =>
    obtain ⟨name, -, stored⟩ := table?_eq_some_iff.mp found
    have distinct := (wellFormed.tidy _ ((NameTable.get?_eq_some_iff _ _ _).mp stored)).distinct
    cases direction with
    | forward =>
      have back := RuleTable.inverted_eq_swapped (RuleTable.nodup_swapped distinct)
      rw [RuleTable.swapped_swapped] at back
      exact congrArg RuleTable.sortedLongToShort back
    | backward =>
      exact congrArg RuleTable.sortedLongToShort (RuleTable.inverted_eq_swapped distinct).symm

theorem unitNonterminals_inverted (side : Text) :
    grammar.inverted.unitNonterminals side = grammar.unitNonterminals side := by
  have named : grammar.inverted.nonterminalName? = grammar.nonterminalName? :=
    funext nonterminalName?_inverted
  rw [unitNonterminals, unitNonterminals, variableNames_inverted, named]

theorem leads_inverted : grammar.inverted.Leads = grammar.Leads := by
  funext name next
  apply propext
  have stored : grammar.inverted.rules.get? name =
      (grammar.rules.get? name).map RuleTable.swapped := NameTable.get?_map
  simp only [leads_iff, stored, unitNonterminals_inverted]
  cases grammar.rules.get? name with
  | none => simp
  | some table => simp [RuleTable.swapped, Production.inverted, or_comm]

theorem unitCycles_inverted : grammar.inverted.unitCycles = grammar.unitCycles := by
  rw [unitCycles, unitCycles, nonterminals_inverted]
  apply List.filter_congr
  intro name _
  rw [Bool.eq_iff_iff, isOnUnitCycle_iff, isOnUnitCycle_iff, leads_inverted]

theorem mem_hypotheses_inverted {hypothesis : Text} :
    hypothesis ∈ RegexEntailment.hypotheses grammar.inverted ↔
      hypothesis ∈ RegexEntailment.hypotheses grammar := by
  simp only [RegexEntailment.hypotheses, inverted, NameTable.map, RuleTable.swapped,
    List.mem_flatMap, List.flatMap_map, Production.inverted, List.mem_cons, List.not_mem_nil,
    or_false]
  simp only [or_comm]

end Grammar

theorem none_or_some_of_map_eq {σ τ : Type} {view : σ → τ} {first second : Option σ}
    (same : first.map view = second.map view) :
    first = none ∧ second = none ∨
      ∃ one other, first = some one ∧ second = some other ∧ view one = view other := by
  cases first with
  | none => exact Or.inl ⟨rfl, Option.map_eq_none_iff.mp same.symm⟩
  | some one =>
    obtain ⟨other, found, seen⟩ := Option.map_eq_some_iff.mp same.symm
    exact Or.inr ⟨one, other, rfl, found, seen.symm⟩

/-- What is seen of the end of a run depends only on what is seen of its start, if every step keeps
it so. -/
theorem map_runWithin_congr {σ τ : Type} {step : σ → Option σ} {view : σ → τ}
    (kept : ∀ first second, view first = view second →
      (step first).map view = (step second).map view)
    {first second : σ} (same : view first = view second) (fuel : Nat) :
    (runWithin step fuel first).map view = (runWithin step fuel second).map view := by
  induction fuel generalizing first second with
  | zero => rfl
  | succ fuel ih =>
    rcases none_or_some_of_map_eq (kept first second same) with
      ⟨one, other⟩ | ⟨next, otherNext, one, other, seen⟩
    · simp only [runWithin, one, other, Option.map_some, same]
    · simp only [runWithin, one, other]
      exact ih seen

namespace Downward

variable {grammar : Grammar} {entailment : Entailment} {direction : Direction}

def untraced (state : Downward) : Downward :=
  { state with events := [] }

theorem map_untraced_step {first second : Downward} (same : first.untraced = second.untraced) :
    (step grammar entailment direction first).map untraced =
      (step grammar entailment direction second).map untraced := by
  obtain ⟨⟨pending, accepted⟩, stack, failure, events⟩ := first
  obtain ⟨⟨otherPending, otherAccepted⟩, otherStack, otherFailure, otherEvents⟩ := second
  simp only [untraced, mk.injEq, DedupQueue.mk.injEq, and_true] at same
  obtain ⟨⟨rfl, rfl⟩, rfl, rfl⟩ := same
  cases failure with
  | some failure => rfl
  | none =>
    cases pending with
    | nil => rfl
    | cons key pending =>
      cases answer : entailment key.subtext key.source with
      | error failure => simp [step, DedupQueue.remove?, answer, untraced]
      | ok answers =>
        cases answers with
        | nil => simp [step, DedupQueue.remove?, answer, untraced]
        | cons first rest =>
          simp only [step, DedupQueue.remove?, answer, foldl_expand, Option.map_some, untraced]

end Downward

namespace Upward

variable {grammar : Grammar} {cycles : List Text}

def untraced (state : Upward) : Upward :=
  { state with events := [] }

theorem map_untraced_step {first second : Upward} (same : first.untraced = second.untraced) :
    (step grammar cycles first).map untraced = (step grammar cycles second).map untraced := by
  obtain ⟨⟨items⟩, completed, waitlist, events⟩ := first
  obtain ⟨otherStack, otherCompleted, otherWaitlist, otherEvents⟩ := second
  simp only [untraced, mk.injEq, and_true] at same
  obtain ⟨rfl, rfl, rfl⟩ := same
  cases items with
  | nil => rfl
  | cons item items =>
    obtain ⟨key, ⟨bindings⟩⟩ := item
    cases bindings with
    | nil =>
      simp only [step, ResultStack.pop?, Assignment.splitFirst?, complete, Option.map_some]
      split
      · rfl
      · rfl
    | cons binding rest =>
      simp only [step, ResultStack.pop?, Assignment.splitFirst?, resolve, Option.map_some]
      split
      · split
        · rfl
        · rfl
      · rfl

end Upward

namespace Translator

/-- Two translators read the same rules, one of them in `direction` and the other in `opposite`. -/
structure Mirrors (translator other : Translator) (direction opposite : Direction) : Prop where
  root : translator.grammar.root = other.grammar.root
  rules : ∀ token, translator.grammar.orientedRules direction token =
    other.grammar.orientedRules opposite token
  nonterminals : ∀ token, translator.grammar.nonterminalName? token =
    other.grammar.nonterminalName? token
  names : translator.grammar.variableNames = other.grammar.variableNames
  cycles : translator.grammar.unitCycles = other.grammar.unitCycles
  entailment : translator.entailment = other.entailment

namespace Mirrors

variable {translator other : Translator} {direction opposite : Direction}
  (mirrors : translator.Mirrors other direction opposite)

include mirrors

theorem demands_eq :
    Downward.demands translator.grammar direction = Downward.demands other.grammar opposite := by
  funext subtext token
  rw [Downward.demands, Downward.demands, mirrors.rules]

theorem downward_step_eq :
    Downward.step translator.grammar translator.entailment direction =
      Downward.step other.grammar other.entailment opposite := by
  have children : Downward.childDemands translator.grammar direction =
      Downward.childDemands other.grammar opposite := by
    funext assignment
    rw [Downward.childDemands, Downward.childDemands, mirrors.demands_eq]
  have expansion : Downward.expand translator.grammar direction =
      Downward.expand other.grammar opposite := by
    funext key state assignment
    rw [Downward.expand, Downward.expand, children]
  funext state
  rw [Downward.step, Downward.step, expansion, mirrors.entailment]

theorem upward_step_eq :
    Upward.step translator.grammar translator.grammar.unitCycles =
      Upward.step other.grammar other.grammar.unitCycles := by
  have waiting : Upward.waits translator.grammar = Upward.waits other.grammar := by
    funext cycles subtext token value
    rw [Upward.waits, Upward.waits, mirrors.nonterminals]
  have resolution : Upward.resolve translator.grammar = Upward.resolve other.grammar := by
    funext cycles state derivation token value rest
    rw [Upward.resolve, Upward.resolve, waiting, Grammar.hasNonterminal, Grammar.hasNonterminal,
      mirrors.nonterminals]
  funext state
  rw [Upward.step, Upward.step, resolution, mirrors.cycles]

theorem map_untraced_downward (fuel : Nat) (text : Text) (events others : List TraceEvent) :
    (translator.downward fuel text direction events).map Downward.untraced =
      (other.downward fuel text opposite others).map Downward.untraced := by
  rw [downward, downward, ← mirrors.downward_step_eq]
  apply map_runWithin_congr fun _ _ => Downward.map_untraced_step
  rw [Downward.start, Downward.start, mirrors.demands_eq, mirrors.root]
  rfl

theorem map_untraced_upward (fuel : Nat) (stack : ResultStack Derivation)
    (events others : List TraceEvent) :
    (translator.upward fuel stack events).map Upward.untraced =
      (other.upward fuel stack others).map Upward.untraced := by
  rw [upward, upward, ← mirrors.upward_step_eq]
  apply map_runWithin_congr fun _ _ => Upward.map_untraced_step
  rfl

theorem collect_eq : collect translator.grammar = collect other.grammar := by
  have complaint : unresolved? translator.grammar = unresolved? other.grammar := by
    funext key
    rw [unresolved?, unresolved?, mirrors.names]
  funext text completed
  rw [collect, collect, complaint, mirrors.root]

theorem translate_eq (allowed : translator.config.directions.allows direction = true)
    (alsoAllowed : other.config.directions.allows opposite = true) (fuel : Nat) (text : Text) :
    translator.translate fuel text direction = other.translate fuel text opposite := by
  simp only [translate, translateTraced, allowed, alsoAllowed, if_true, Option.bind_eq_bind]
  rcases none_or_some_of_map_eq (mirrors.map_untraced_downward fuel text
      (openingEvents direction text []) (openingEvents opposite text [])) with
    ⟨one, two⟩ | ⟨down, otherDown, one, two, seen⟩
  · rw [one, two]
    rfl
  · obtain ⟨-, stack, failure, -⟩ := Downward.mk.inj seen
    rw [one, two, Option.bind_some, Option.bind_some, ← failure, ← stack]
    cases down.failure with
    | some failure => rfl
    | none =>
      rcases none_or_some_of_map_eq (mirrors.map_untraced_upward fuel down.stack
          (.closed :: down.queuedNote :: down.events)
          (.closed :: otherDown.queuedNote :: otherDown.events)) with
        ⟨one, two⟩ | ⟨up, otherUp, one, two, seen⟩
      · simp only [one, two, Option.bind_none]
      · obtain ⟨-, completed, -, -⟩ := Upward.mk.inj seen
        simp only [one, two, Option.bind_some, Option.pure_def, Option.map_some,
          mirrors.collect_eq, completed]

end Mirrors

variable {Compiled : Type} {engine : RegexEngine Compiled} {grammar : Grammar}
  {config : TranslatorConfig}

theorem mirrors_of_ofConfig {translator other : Translator} {direction : Direction}
    (wellFormed : grammar.WellFormed) (built : ofConfig engine grammar config = .ok translator)
    (alsoBuilt : ofConfig engine grammar.inverted config = .ok other) :
    translator.Mirrors other direction direction.reversed := by
  obtain ⟨same, -, entailment⟩ := of_ofConfig built
  obtain ⟨otherSame, -, otherEntailment⟩ := of_ofConfig alsoBuilt
  refine ⟨?_, fun token => ?_, fun token => ?_, ?_, ?_, ?_⟩
  · rw [same, otherSame]
    rfl
  · rw [same, otherSame, Grammar.orientedRules_inverted wellFormed]
  · rw [same, otherSame, Grammar.nonterminalName?_inverted]
  · rw [same, otherSame, Grammar.variableNames_inverted]
  · rw [same, otherSame, Grammar.unitCycles_inverted]
  · rw [entailment, otherEntailment, Grammar.leafVariables_inverted]

/-- The grammar with all sides swapped is built by the same steps with their sides swapped. It has a
translator exactly if the grammar has one, and the two give the same answers in opposite
directions. -/
theorem inverted_translates_reversed (engine : RegexEngine Compiled) {steps : List BuildStep}
    (config : TranslatorConfig)
    (built : (GrammarBuilder.ofSteps steps).build = .ok grammar) :
    (GrammarBuilder.ofSteps (steps.map BuildStep.inverted)).build = .ok grammar.inverted ∧
      ((ofConfig engine grammar config).isOk = true ↔
        (ofConfig engine grammar.inverted config).isOk = true) ∧
      ∀ translator other direction, ofConfig engine grammar config = .ok translator →
        ofConfig engine grammar.inverted config = .ok other →
        config.directions.allows direction = true →
        config.directions.allows direction.reversed = true → ∀ fuel text,
          translator.translate fuel text direction =
            other.translate fuel text direction.reversed := by
  refine ⟨?_, ?_, ?_⟩
  · rw [GrammarBuilder.build_ofSteps_inverted, built]
    rfl
  · rw [isOk_ofConfig_iff, isOk_ofConfig_iff, Grammar.leafVariables_inverted]
    simp only [Grammar.mem_hypotheses_inverted]
  · intro translator other direction made alsoMade allowed alsoAllowed fuel text
    have wellFormed := GrammarBuilder.wellFormed_of_build built
    have settings : translator.config = config := (of_ofConfig made).2.1
    have otherSettings : other.config = config := (of_ofConfig alsoMade).2.1
    exact (mirrors_of_ofConfig wellFormed made alsoMade).translate_eq (settings ▸ allowed)
      (otherSettings ▸ alsoAllowed) fuel text

def unitLoopSteps : List BuildStep :=
  [.rule "<r>".toList "<x>".toList "R(<x>)".toList, .rule "<x>".toList "a".toList "A".toList,
    .rule "<x>".toList "<z>".toList "X(<z>)".toList,
    .rule "<z>".toList "<x>".toList "Z(<x>)".toList]

theorem inverted_translates_reversed_unitLoop :
    (GrammarBuilder.ofSteps unitLoopSteps).build = .ok unitLoop ∧ unitLoop.unitCycles ≠ [] ∧
      ∃ translator other, ofConfig Regex.engine unitLoop .standard = .ok translator ∧
        ofConfig Regex.engine unitLoop.inverted .standard = .ok other ∧
        translator.translate 200 "R(X(Z(A)))".toList .backward = some (.ok ["a".toList]) ∧
        ∀ fuel text, translator.translate fuel text .backward =
          other.translate fuel text .forward := by
  have built : (GrammarBuilder.ofSteps unitLoopSteps).build = .ok unitLoop := by decide +kernel
  obtain ⟨-, succeeds, same⟩ := inverted_translates_reversed Regex.engine .standard built
  have compiles : (RegexEntailment.forGrammar Regex.engine unitLoop
      TranslatorConfig.standard.wildcard).isOk = true := by decide +kernel
  have made := ofConfig_eq_ok compiles
  have other : ∃ other, ofConfig Regex.engine unitLoop.inverted .standard = .ok other := by
    have exists_ok := succeeds.mp (congrArg Except.isOk made)
    cases found : ofConfig Regex.engine unitLoop.inverted .standard with
    | error error =>
      rw [found] at exists_ok
      cases exists_ok
    | ok other => exact ⟨other, rfl⟩
  obtain ⟨other, found⟩ := other
  refine ⟨built, by decide +kernel, _, other, made, found, ?_, fun fuel text => ?_⟩
  · decide +kernel
  · exact same _ other .backward made found rfl rfl fuel text

end Translator

end SyncGrammar
