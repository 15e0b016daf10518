import SyncGrammar.Proofs.Matching
import SyncGrammar.Proofs.QueueOrder
import SyncGrammar.Proofs.Rereading
import SyncGrammar.Regex.Engine

namespace SyncGrammar

variable {Compiled : Type} {engine : RegexEngine Compiled} {grammar : Grammar}
  {table : VariableTable}

theorem Pattern.eq_invalid_of_compile {hypothesis : Text} {error : ConfigurationError}
    (filled : hypothesis ≠ []) (given : table.isEmpty = false)
    (refused : compile engine table hypothesis = .error error) :
    ∃ reason, error = .invalidPattern hypothesis reason := by
  have inked : hypothesis.isEmpty = false := by simpa using filled
  simp only [compile, inked, given, Bool.false_eq_true, if_false] at refused
  split at refused
  · exact ⟨_, (Except.error.inj refused).symm⟩
  · cases refused

namespace RegexEntailment

theorem exists_reason_of_compiled {entailment : RegexEntailment Compiled} {text hypothesis : Text}
    {failure : TranslateError} (compiled : (entailment.compiled.lookup hypothesis).isSome)
    (refused : entailment.entail engine text hypothesis = .error failure) :
    ∃ reason, failure = .entailment reason := by
  obtain ⟨known, found⟩ := Option.isSome_iff_exists.mp compiled
  have searched : matchAll engine known text = .error failure := by
    simpa [entail, pattern, find?, found] using refused
  exact exists_reason_of_matchAll searched

end RegexEntailment

theorem Grammar.source_mem_hypotheses {direction : Direction} {token : Text}
    {production : Production} (rule : production ∈ grammar.orientedRules direction token) :
    production.source ∈ RegexEntailment.hypotheses grammar := by
  obtain ⟨rules, found, member⟩ := mem_orientedRules.mp rule
  obtain ⟨name, -, stored⟩ := table?_eq_some_iff.mp found
  have listed := (NameTable.get?_eq_some_iff _ _ _).mp stored
  refine List.mem_flatMap.mpr ⟨(name, rules), listed, List.mem_flatMap.mpr ⟨_, member, ?_⟩⟩
  cases direction <;> simp [Production.turned, Production.inverted]

theorem Grammar.WellFormed.ne_nil_of_mem_hypotheses (wellFormed : grammar.WellFormed)
    {hypothesis : Text} (member : hypothesis ∈ RegexEntailment.hypotheses grammar) :
    hypothesis ≠ [] := by
  obtain ⟨entry, listed, member⟩ := List.mem_flatMap.mp member
  obtain ⟨production, rule, side⟩ := List.mem_flatMap.mp member
  have sides := wellFormed.sides_ne_nil listed rule
  simp only [List.mem_cons, List.not_mem_nil, or_false] at side
  rcases side with rfl | rfl
  · exact sides.1
  · exact sides.2

theorem Downward.Demanded.source_mem_hypotheses {entailment : Entailment} {direction : Direction}
    {text : Text} {key : DerivationKey}
    (demanded : Demanded grammar entailment direction text key) :
    key.source ∈ RegexEntailment.hypotheses grammar := by
  cases demanded with
  | root rule => exact Grammar.source_mem_hypotheses rule
  | child _ _ _ _ rule => exact Grammar.source_mem_hypotheses rule

theorem Downward.Asks.source_mem_hypotheses {entailment : Entailment} {direction : Direction}
    {text : Text} {events : List TraceEvent} {asked : List DerivationKey} {state : Downward}
    (asks : Asks grammar entailment direction (start grammar direction text events) asked state)
    {key : DerivationKey} (member : key ∈ asked) :
    key.source ∈ RegexEntailment.hypotheses grammar := by
  rw [asks.asked.ordered] at member
  exact (demanded_of_mem_inQueueOrder member).source_mem_hypotheses

theorem Translator.exists_unresolved_of_collect {text : Text} {completed : CompletedSet}
    {failure : TranslateError} (refused : collect grammar text completed = .error failure) :
    ∃ target tokens, failure = .unresolvedVariables target tokens := by
  unfold collect at refused
  dsimp only at refused
  split at refused
  · rename_i complaint found
    cases refused
    obtain ⟨key, -, complains⟩ := List.exists_of_findSome?_eq_some found
    unfold unresolved? at complains
    split at complains
    · cases complains
    · exact ⟨_, _, (Option.some.inj complains).symm⟩
  · cases refused

/-- The entailment of a translator and the patterns that have been compiled for it. -/
structure Translator.Precompiled (engine : RegexEngine Compiled) (translator : Translator)
    (entailment : RegexEntailment Compiled) : Prop where
  entails : translator.entailment = entailment.entail engine
  compiled : ∀ hypothesis ∈ RegexEntailment.hypotheses translator.grammar,
    (entailment.compiled.lookup hypothesis).isSome

theorem Grammar.WellFormed.ofConfig_cases (wellFormed : grammar.WellFormed)
    (engine : RegexEngine Compiled) (config : TranslatorConfig) :
    (∃ entailment, RegexEntailment.forGrammar engine grammar config.wildcard = .ok entailment ∧
      Translator.ofConfig engine grammar config =
        .ok ⟨grammar, config, entailment.entail engine⟩ ∧
      Translator.Precompiled engine ⟨grammar, config, entailment.entail engine⟩ entailment) ∨
    ∃ hypothesis ∈ RegexEntailment.hypotheses grammar, ∃ reason,
      Translator.ofConfig engine grammar config = .error (.invalidPattern hypothesis reason) := by
  have given : (grammar.leafVariables config.wildcard).isEmpty = false :=
    isEmpty_leafVariables ((NameTable.mem_names_iff _ _).mpr wellFormed.rooted)
  simp only [Translator.ofConfig, Translator.ofEntailment_eq_ok, RegexEntailment.forGrammar_eq]
  rcases @RegexEntailment.ofPatterns_cases _ engine (RegexEntailment.hypotheses grammar)
    (grammar.leafVariables config.wildcard) with
      ⟨compiled, made, prepared⟩ | ⟨hypothesis, member, error, refused, stopped⟩
  · rw [made]
    exact Or.inl ⟨_, rfl, rfl, rfl, prepared.listed⟩
  · rw [stopped]
    have filled := wellFormed.ne_nil_of_mem_hypotheses member
    obtain ⟨reason, rfl⟩ := Pattern.eq_invalid_of_compile filled given refused
    exact Or.inr ⟨hypothesis, member, reason, rfl⟩

namespace Translator

variable {translator : Translator} {entailment : RegexEntailment Compiled} {text : Text}
  {direction : Direction}

theorem Precompiled.failures (precompiled : translator.Precompiled engine entailment)
    {failure : TranslateError} (yields : translator.Yields text direction (.error failure)) :
    failure = .unsupportedDirection direction ∨ (∃ reason, failure = .entailment reason) ∨
      ∃ target tokens, failure = .unresolvedVariables target tokens := by
  cases allowed : translator.config.directions.allows direction with
  | false => exact Or.inl (Except.error.inj (eq_unsupported_of_yields allowed yields))
  | true =>
    rcases (outcome_of_yields allowed yields).failed_or_collected with
      ⟨down, reason, ends, failed, same⟩ | ⟨down, up, -, -, -, same⟩
    · cases same
      obtain ⟨key, demanded, refused⟩ := Downward.failure_demanded ends failed
      rw [precompiled.entails] at refused
      exact Or.inr (Or.inl (RegexEntailment.exists_reason_of_compiled
        (precompiled.compiled _ demanded.source_mem_hypotheses) refused))
    · exact Or.inr (Or.inr (exists_unresolved_of_collect same.symm))

/-- A grammar that was built or read makes a translator, unless the expression of some side of a
rule is malformed. What the way down asks about has been compiled by then, and a text is refused
only for its direction, for a search that was given up, or for tokens that are left over. -/
theorem configured_before_use (engine : RegexEngine Compiled) {grammar : Grammar}
    (made : (∃ steps, (GrammarBuilder.ofSteps steps).build = .ok grammar) ∨
      ∃ source, Grammar.read source = .ok grammar) (config : TranslatorConfig) :
    ((∃ translator, ofConfig engine grammar config = .ok translator) ∨
      ∃ hypothesis ∈ RegexEntailment.hypotheses grammar, ∃ reason,
        ofConfig engine grammar config = .error (.invalidPattern hypothesis reason)) ∧
    ∀ translator, ofConfig engine grammar config = .ok translator → ∃ entailment,
      RegexEntailment.forGrammar engine grammar config.wildcard = .ok entailment ∧
      translator.entailment = entailment.entail engine ∧
      ∀ text direction,
        (∀ asked down, Downward.Asks grammar translator.entailment direction
            (translator.downStart text direction) asked down →
          ∀ key ∈ asked, (entailment.compiled.lookup key.source).isSome) ∧
        ∀ failure, translator.Yields text direction (.error failure) →
          failure = .unsupportedDirection direction ∨ (∃ reason, failure = .entailment reason) ∨
            ∃ target tokens, failure = .unresolvedVariables target tokens := by
  have wellFormed : grammar.WellFormed := by
    rcases made with ⟨steps, built⟩ | ⟨source, read⟩
    · exact GrammarBuilder.wellFormed_of_build built
    · obtain ⟨steps, same⟩ := Grammar.exists_steps_of_read source
      exact GrammarBuilder.wellFormed_of_build (same ▸ read)
  rcases wellFormed.ofConfig_cases engine config with
    ⟨entailment, known, built, precompiled⟩ | ⟨hypothesis, member, reason, refused⟩
  · refine ⟨Or.inl ⟨_, built⟩, fun translator same => ?_⟩
    cases built.symm.trans same
    refine ⟨entailment, known, rfl, fun text direction => ⟨?_, fun failure => ?_⟩⟩
    · intro asked down asks key member
      exact precompiled.compiled _ (asks.source_mem_hypotheses member)
    · exact precompiled.failures
  · refine ⟨Or.inr ⟨hypothesis, member, reason, refused⟩, fun translator built => ?_⟩
    rw [refused] at built
    cases built

def greetingSteps : List BuildStep :=
  [.rule "<s>".toList "hi <who>".toList "HI(<who>)".toList,
    .rule "<who>".toList "<name>".toList "<name>".toList, .variable "<name>".toList "\\w+".toList]

def greeting : Grammar :=
  ⟨"<s>".toList, .ofList [
    ("<s>".toList, .ofList [⟨"hi <who>".toList, "HI(<who>)".toList⟩]),
    ("<who>".toList, .ofList [⟨"<name>".toList, "<name>".toList⟩])],
    .ofList [("<name>".toList, "\\w+".toList)]⟩

theorem configured_before_use_greeting :
    (GrammarBuilder.ofSteps greetingSteps).build = .ok greeting ∧
      (∃ translator, ofConfig Regex.engine greeting .standard = .ok translator ∧
        ∀ text direction failure, translator.Yields text direction (.error failure) →
          failure = .unsupportedDirection direction ∨ (∃ reason, failure = .entailment reason) ∨
            ∃ target tokens, failure = .unresolvedVariables target tokens) ∧
      ∃ hypothesis ∈ RegexEntailment.hypotheses greeting, ∃ reason,
        ofConfig Regex.engine greeting ⟨.both, "(".toList, false⟩ =
          .error (.invalidPattern hypothesis reason) := by
  have built : (GrammarBuilder.ofSteps greetingSteps).build = .ok greeting := by decide +kernel
  have compiles : (RegexEntailment.forGrammar Regex.engine greeting
      TranslatorConfig.standard.wildcard).isOk = true := by decide +kernel
  have malformed : (RegexEntailment.forGrammar Regex.engine greeting "(".toList).isOk = false := by
    decide +kernel
  have made := ofConfig_eq_ok compiles
  have standard := configured_before_use Regex.engine (Or.inl ⟨_, built⟩) .standard
  have broken := configured_before_use Regex.engine (Or.inl ⟨_, built⟩) ⟨.both, "(".toList, false⟩
  refine ⟨built, ⟨_, made, fun text direction => ?_⟩, ?_⟩
  · obtain ⟨entailment, -, -, runs⟩ := standard.2 _ made
    exact (runs text direction).2
  · rcases broken.1 with ⟨translator, also⟩ | refused
    · obtain ⟨entailment, known, -⟩ := broken.2 translator also
      rw [known] at malformed
      cases malformed
    · exact refused

end Translator

end SyncGrammar
