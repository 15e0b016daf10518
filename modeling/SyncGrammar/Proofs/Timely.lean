import SyncGrammar.Proofs.Fixpoint
import SyncGrammar.Regex.Engine

/-!
Derivations next to unit cycles. Where a whole text is bound to a token on a unit cycle, only what
is complete by then is put in its place. What is found so depends on the order of the stack: it is
what is derived in time, and this can leave out derivations that go round no cycle.
-/
namespace SyncGrammar

/-- Resolves a derivation by derivations in which no token is derived twice from the same text on a
path from the root. What is on the path to the derivation is `above` it. -/
inductive Unrepeated (grammar : Grammar) (entailment : Entailment) (direction : Direction) :
    List (Text × Text) → Derivation → DerivationKey → Prop
  | done {above : List (Text × Text)} {key : DerivationKey} :
      Unrepeated grammar entailment direction above ⟨key, ⟨[]⟩⟩ key
  | terminal {above : List (Text × Text)} {key result : DerivationKey} {token value : Text}
      {rest : List (Text × Text)} (isTerminal : grammar.hasNonterminal token = false)
      (onward : Unrepeated grammar entailment direction above
        ⟨key.substituted token value value, ⟨rest⟩⟩ result) :
      Unrepeated grammar entailment direction above ⟨key, ⟨(token, value) :: rest⟩⟩ result
  | nonterminal {above : List (Text × Text)} {key result : DerivationKey} (child : DerivationKey)
      (production : Production) {rest : List (Text × Text)} {answers : List Assignment}
      {assignment : Assignment} (isNonterminal : grammar.hasNonterminal child.token = true)
      (fresh : (child.subtext, child.token) ∉ above)
      (rule : production ∈ grammar.orientedRules direction child.token)
      (answer : entailment child.subtext production.source = .ok answers)
      (entails : assignment ∈ answers)
      (below : Unrepeated grammar entailment direction ((child.subtext, child.token) :: above)
        ⟨.ofProduction child.subtext child.token production, assignment⟩ child)
      (onward : Unrepeated grammar entailment direction above
        ⟨key.substituted child.token child.source child.target, ⟨rest⟩⟩ result) :
      Unrepeated grammar entailment direction above
        ⟨key, ⟨(child.token, child.subtext) :: rest⟩⟩ result

theorem Unrepeated.of_eq {grammar : Grammar} {entailment : Entailment} {direction : Direction}
    {above : List (Text × Text)} {key result : DerivationKey} (same : key = result) :
    Unrepeated grammar entailment direction above ⟨key, ⟨[]⟩⟩ result :=
  same ▸ .done

theorem Unrepeated.resolves {grammar : Grammar} {entailment : Entailment} {direction : Direction}
    {above : List (Text × Text)} {item : Derivation} {result : DerivationKey}
    (unrepeated : Unrepeated grammar entailment direction above item result) :
    Resolves grammar (fun _ _ => True) (Derives grammar entailment direction) item result := by
  induction unrepeated with
  | done => exact .done
  | terminal isTerminal _ onward => exact .terminal isTerminal onward
  | nonterminal _ _ isNonterminal _ rule answer entails _ _ below onward =>
    exact .nonterminal isNonterminal (.entailed rule answer entails below) trivial onward

namespace Translator

variable {translator : Translator} {text : Text} {direction : Direction}

def DerivesUnrepeated (translator : Translator) (text : Text) (direction : Direction)
    (target : Text) : Prop :=
  ∃ source, ∃ production ∈ translator.grammar.orientedRules direction translator.grammar.root,
    ∃ answers, translator.entailment text production.source = .ok answers ∧
      ∃ assignment ∈ answers,
        Unrepeated translator.grammar translator.entailment direction
          [(text, translator.grammar.root)]
          ⟨.ofProduction text translator.grammar.root production, assignment⟩
          ⟨text, translator.grammar.root, source, target⟩

theorem derivesTarget_of_unrepeated {target : Text}
    (unrepeated : translator.DerivesUnrepeated text direction target) :
    translator.DerivesTarget text direction target := by
  obtain ⟨source, production, rule, answers, answer, assignment, entails, below⟩ := unrepeated
  exact ⟨source, .entailed rule answer entails below.resolves⟩

/-- While the text is translated, the child is in time to be put in place of the first token of
`item`. -/
def InTime (translator : Translator) (text : Text) (direction : Direction) (item : Derivation)
    (child : DerivationKey) : Prop :=
  ∃ down, translator.DownEnds text direction down ∧
    Upward.Timely translator.grammar translator.grammar.unitCycles (upStart down) item child

def DerivesInTime (translator : Translator) (text : Text) (direction : Direction)
    (target : Text) : Prop :=
  ∃ source, DerivesWith translator.grammar translator.entailment direction
    (translator.InTime text direction) ⟨text, translator.grammar.root, source, target⟩

/-- A target of the whole text as the root, derived without binding the whole text of a derivation
to a token on a unit cycle. -/
def DerivesWaiting (translator : Translator) (text : Text) (direction : Direction)
    (target : Text) : Prop :=
  ∃ source, DerivesWith translator.grammar translator.entailment direction
    (fun item child => Upward.waits translator.grammar translator.grammar.unitCycles
      item.key.subtext child.token child.subtext = true)
    ⟨text, translator.grammar.root, source, target⟩

theorem DerivesWaiting.inTime {target : Text}
    (derives : translator.DerivesWaiting text direction target) {down : Downward}
    (ends : translator.DownEnds text direction down) :
    translator.DerivesInTime text direction target := by
  obtain ⟨source, derives⟩ := derives
  exact ⟨source, derives.mono fun item child waits => ⟨down, ends, Or.inl waits⟩⟩

theorem derivesInTime_iff {down : Downward} {up : Upward}
    (ends : translator.DownEnds text direction down) (succeeded : down.failure = none)
    (ended : translator.UpEnds down up) (target : Text) :
    translator.DerivesInTime text direction target ↔
      target ∈ (up.completed.lookup text translator.grammar.root).map (·.target) := by
  rw [List.mem_map]
  constructor
  · rintro ⟨source, derives⟩
    have timely := derives.mono fun item child inTime => by
      obtain ⟨other, also, timely⟩ := inTime
      rw [← ends.unique also] at timely
      exact timely
    have completed := Upward.completed_of_derivesWith ends succeeded ended timely classDemanded_root
    exact ⟨_, CompletedSet.mem_lookup.mpr ⟨completed, rfl, rfl⟩, rfl⟩
  · rintro ⟨⟨subtext, token, source, _⟩, member, rfl⟩
    obtain ⟨completed, rfl, rfl⟩ := CompletedSet.mem_lookup.mp member
    have derives := Upward.derivesWith_of_completed ends succeeded ended.reached completed
    exact ⟨source, derives.mono fun item child timely => ⟨down, ends, timely⟩⟩

theorem collect_eq_ok {grammar : Grammar} {completed : CompletedSet} {targets : List Text}
    (collected : collect grammar text completed = .ok targets) :
    targets = Text.sortedDistinct ((completed.lookup text grammar.root).map (·.target)) := by
  unfold collect at collected
  dsimp only at collected
  split at collected
  · cases collected
  · cases collected
    rfl

theorem allowed_of_yields {targets : List Text}
    (yields : translator.Yields text direction (.ok targets)) :
    translator.config.directions.allows direction = true := by
  obtain ⟨fuel, run⟩ := yields
  by_cases allowed : translator.config.directions.allows direction = true
  · exact allowed
  · simp [translate, translateTraced, allowed] at run

theorem Outcome.ends {result : Except TranslateError (List Text)} {targets : List Text}
    (outcome : Outcome translator text direction result) (answer : result = .ok targets) :
    ∃ down up, translator.DownEnds text direction down ∧ down.failure = none ∧
      translator.UpEnds down up ∧
        collect translator.grammar text up.completed = .ok targets := by
  cases outcome with
  | failed => cases answer
  | collected ends succeeded ended => exact ⟨_, _, ends, succeeded, ended, answer⟩

/-- A text translates to what is derived in time, neither more nor less. What waits for all its
children is always among it. -/
theorem targets_are_derived_in_time (translator : Translator) (text : Text)
    (direction : Direction) :
    (translator.entailment.Confined translator.grammar →
      ∃ result, translator.Yields text direction result) ∧
    ∀ targets, translator.Yields text direction (.ok targets) → ∀ target,
      (target ∈ targets ↔ translator.DerivesInTime text direction target) ∧
      (translator.DerivesWaiting text direction target → target ∈ targets) := by
  refine ⟨fun confined => exists_yields confined text direction, ?_⟩
  intro targets yields target
  have outcome := outcome_of_yields (allowed_of_yields yields) yields
  obtain ⟨down, up, ends, succeeded, ended, collected⟩ := outcome.ends rfl
  have found : target ∈ targets ↔ translator.DerivesInTime text direction target := by
    rw [collect_eq_ok collected, Text.mem_sortedDistinct]
    exact (derivesInTime_iff ends succeeded ended target).symm
  exact ⟨found, fun derives => found.mpr (derives.inTime ends)⟩

def unitDetour : Grammar :=
  ⟨"<r>".toList, .ofList [
    ("<r>".toList, .ofList [⟨"<x>".toList, "R1(<x>)".toList⟩, ⟨"<y>".toList, "R2(<y>)".toList⟩]),
    ("<x>".toList, .ofList [⟨"a".toList, "A".toList⟩, ⟨"<z>".toList, "X(<z>)".toList⟩]),
    ("<y>".toList, .ofList [⟨"<x>".toList, "Y(<x>)".toList⟩]),
    ("<z>".toList, .ofList [⟨"<x>".toList, "Z(<x>)".toList⟩])], ∅⟩

def unitDetourMatching : Entailment :=
  match RegexEntailment.forGrammar Regex.engine unitDetour
      TranslatorConfig.standard.wildcard with
  | .ok matching => matching.entail Regex.engine
  | .error error => fun _ _ => .error (.configuration error)

def unitDetourTranslator : Translator :=
  ⟨unitDetour, .standard, unitDetourMatching⟩

theorem ofConfig_unitDetour :
    ofConfig Regex.engine unitDetour .standard = .ok unitDetourTranslator := by
  have built : (RegexEntailment.forGrammar Regex.engine unitDetour
      TranslatorConfig.standard.wildcard).isOk = true := by
    decide +kernel
  simp only [ofConfig, ofEntailment_eq_ok, unitDetourTranslator, unitDetourMatching]
  cases matching : RegexEntailment.forGrammar Regex.engine unitDetour
      TranslatorConfig.standard.wildcard with
  | ok matching => rfl
  | error error =>
    rw [matching] at built
    cases built

/-- The derivation of <y> from <x> comes to the top of the stack before that of <x> is complete. -/
theorem unrepeated_lost_unitDetour :
    ofConfig Regex.engine unitDetour .standard = .ok unitDetourTranslator ∧
      unitDetourTranslator.DerivesUnrepeated "a".toList .forward "R2(Y(A))".toList ∧
      unitDetourTranslator.Yields "a".toList .forward (.ok ["R1(A)".toList]) := by
  refine ⟨ofConfig_unitDetour, ?_, 50, by decide +kernel⟩
  have asX : unitDetourTranslator.entailment "a".toList "<x>".toList =
      .ok [⟨[("<x>".toList, "a".toList)]⟩] := by decide +kernel
  have asY : unitDetourTranslator.entailment "a".toList "<y>".toList =
      .ok [⟨[("<y>".toList, "a".toList)]⟩] := by decide +kernel
  have asLetter : unitDetourTranslator.entailment "a".toList "a".toList = .ok [⟨[]⟩] := by
    decide +kernel
  refine ⟨"a".toList, ⟨"<y>".toList, "R2(<y>)".toList⟩, by decide +kernel, _, asY, _,
    List.mem_cons_self, ?_⟩
  refine .nonterminal ⟨"a".toList, "<y>".toList, "a".toList, "Y(A)".toList⟩
    ⟨"<x>".toList, "Y(<x>)".toList⟩ (by decide +kernel) (by decide) ?_ asX List.mem_cons_self ?_
    (.of_eq (by decide +kernel))
  · decide +kernel
  refine .nonterminal ⟨"a".toList, "<x>".toList, "a".toList, "A".toList⟩
    ⟨"a".toList, "A".toList⟩ (by decide +kernel) (by decide) ?_ asLetter List.mem_cons_self .done
    (.of_eq (by decide +kernel))
  decide +kernel

def unitDetourAnswers : Entailment :=
  .ofRows [
    ⟨"a".toList, "<x>".toList, .ok [⟨[("<x>".toList, "a".toList)]⟩]⟩,
    ⟨"a".toList, "<y>".toList, .ok [⟨[("<y>".toList, "a".toList)]⟩]⟩,
    ⟨"a".toList, "<z>".toList, .ok [⟨[("<z>".toList, "a".toList)]⟩]⟩,
    ⟨"a".toList, "a".toList, .ok [⟨[]⟩]⟩]

theorem targets_are_derived_in_time_unitDetour :
    unitDetourAnswers.Confined unitDetour ∧
      (∃ result, Yields ⟨unitDetour, .standard, unitDetourAnswers⟩ "a".toList .forward result) ∧
      DerivesInTime ⟨unitDetour, .standard, unitDetourAnswers⟩ "a".toList .forward
        "R1(A)".toList ∧
      ¬ DerivesInTime ⟨unitDetour, .standard, unitDetourAnswers⟩ "a".toList .forward
        "R2(Y(A))".toList := by
  have confined : unitDetourAnswers.Confined unitDetour :=
    Entailment.confined_ofRows (by decide +kernel)
  have run : Yields ⟨unitDetour, .standard, unitDetourAnswers⟩ "a".toList .forward
      (.ok ["R1(A)".toList]) := ⟨50, by decide +kernel⟩
  obtain ⟨answers, exact⟩ := targets_are_derived_in_time
    ⟨unitDetour, .standard, unitDetourAnswers⟩ "a".toList .forward
  have found := (exact _ run "R1(A)".toList).1
  have lost := (exact _ run "R2(Y(A))".toList).1
  refine ⟨confined, answers confined, found.mp List.mem_cons_self, fun derives => ?_⟩
  exact absurd (lost.mpr derives) (by decide)

end Translator

end SyncGrammar
