import SyncGrammar.Proofs.Termination
import SyncGrammar.Translator

namespace SyncGrammar.Translator

variable {translator : Translator} {text : Text} {direction : Direction}

def Yields (translator : Translator) (text : Text) (direction : Direction)
    (result : Except TranslateError (List Text)) : Prop :=
  ∃ fuel, translator.translate fuel text direction = some result

def downStart (translator : Translator) (text : Text) (direction : Direction) : Downward :=
  .start translator.grammar direction text
    (.opened "downward" :: openingEvents direction text [])

def upStart (down : Downward) : Upward :=
  .start down.stack (.opened "upward" :: .closed :: down.queuedNote :: down.events)

def DownEnds (translator : Translator) (text : Text) (direction : Direction) (down : Downward) :
    Prop :=
  EndsIn (Downward.step translator.grammar translator.entailment direction)
    (translator.downStart text direction) down

def UpEnds (translator : Translator) (down : Downward) (up : Upward) : Prop :=
  EndsIn (Upward.step translator.grammar translator.grammar.unitCycles) (upStart down) up

inductive Outcome (translator : Translator) (text : Text) (direction : Direction) :
    Except TranslateError (List Text) → Prop
  | failed {down : Downward} {failure : TranslateError}
      (ends : translator.DownEnds text direction down) (failed : down.failure = some failure) :
      Outcome translator text direction (.error failure)
  | collected {down : Downward} {up : Upward} (ends : translator.DownEnds text direction down)
      (succeeded : down.failure = none) (ended : translator.UpEnds down up) :
      Outcome translator text direction (collect translator.grammar text up.completed)

theorem yields_of_outcome {result : Except TranslateError (List Text)}
    (allowed : translator.config.directions.allows direction = true)
    (outcome : Outcome translator text direction result) :
    translator.Yields text direction result := by
  cases outcome with
  | failed ends failed =>
    obtain ⟨bound, runs⟩ := ends.exists_fuel
    have down := runs bound (Nat.le_refl _)
    refine ⟨bound, ?_⟩
    simp only [downStart] at down
    simp [translate, translateTraced, allowed, downward, down, failed]
  | @collected down up ends succeeded ended =>
    obtain ⟨downBound, downRuns⟩ := ends.exists_fuel
    obtain ⟨upBound, upRuns⟩ := ended.exists_fuel
    have downRun := downRuns (downBound + upBound) (Nat.le_add_right _ _)
    have upRun := upRuns (downBound + upBound) (Nat.le_add_left _ _)
    refine ⟨downBound + upBound, ?_⟩
    simp only [downStart, upStart] at downRun upRun
    simp [translate, translateTraced, allowed, downward, upward, downRun, succeeded, upRun]

theorem translateTraced_cases {fuel : Nat} {events : List TraceEvent} {translated : Translated}
    (run : translator.translateTraced fuel text direction events = some translated) :
    (translator.config.directions.allows direction = false ∧
      translated = ⟨.error (.unsupportedDirection direction), events⟩) ∨
    (translator.config.directions.allows direction = true ∧ ∃ down,
      EndsIn (Downward.step translator.grammar translator.entailment direction)
        (.start translator.grammar direction text
          (.opened "downward" :: openingEvents direction text events)) down ∧
      ((∃ failure, down.failure = some failure ∧ translated = ⟨.error failure, down.events⟩) ∨
        down.failure = none ∧ ∃ up, translator.UpEnds down up ∧
          translated = ⟨collect translator.grammar text up.completed,
            .closed :: .closed :: up.summaryNote :: up.events⟩)) := by
  unfold translateTraced at run
  cases allowed : translator.config.directions.allows direction with
  | false =>
    simp only [allowed, Bool.false_eq_true, if_false, Option.some.injEq] at run
    exact Or.inl ⟨rfl, run.symm⟩
  | true =>
    simp only [allowed, if_true, Option.bind_eq_bind, Option.bind_eq_some_iff] at run
    obtain ⟨down, downRun, rest⟩ := run
    refine Or.inr ⟨rfl, down, .of_runWithin downRun, ?_⟩
    cases failure : down.failure with
    | some reason =>
      simp only [failure, Option.pure_def, Option.some.injEq] at rest
      exact Or.inl ⟨reason, rfl, rest.symm⟩
    | none =>
      simp only [failure, Option.bind_eq_some_iff, Option.pure_def, Option.some.injEq] at rest
      obtain ⟨up, upRun, collected⟩ := rest
      exact Or.inr ⟨rfl, up, .of_runWithin upRun, collected.symm⟩

theorem outcome_of_yields {result : Except TranslateError (List Text)}
    (allowed : translator.config.directions.allows direction = true)
    (yields : translator.Yields text direction result) :
    Outcome translator text direction result := by
  obtain ⟨fuel, run⟩ := yields
  obtain ⟨translated, traced, rfl⟩ := Option.map_eq_some_iff.mp run
  rcases translateTraced_cases traced with
    ⟨barred, -⟩ | ⟨-, down, ends, ⟨failure, failed, rfl⟩ | ⟨succeeded, up, ended, rfl⟩⟩
  · rw [allowed] at barred
    cases barred
  · exact .failed ends failed
  · exact .collected ends succeeded ended

theorem Outcome.unique {first second : Except TranslateError (List Text)}
    (one : Outcome translator text direction first)
    (other : Outcome translator text direction second) : first = second := by
  cases one with
  | failed ends failed =>
    cases other with
    | failed also alsoFailed =>
      rw [ends.unique also, alsoFailed] at failed
      cases failed
      rfl
    | collected also succeeded =>
      rw [ends.unique also, succeeded] at failed
      cases failed
  | collected ends succeeded ended =>
    cases other with
    | failed also failed =>
      rw [ends.unique also, failed] at succeeded
      cases succeeded
    | collected also _ alsoEnded =>
      cases ends.unique also
      rw [ended.unique alsoEnded]

theorem Yields.unique {first second : Except TranslateError (List Text)}
    (one : translator.Yields text direction first)
    (other : translator.Yields text direction second) : first = second := by
  cases allowed : translator.config.directions.allows direction with
  | true => exact (outcome_of_yields allowed one).unique (outcome_of_yields allowed other)
  | false =>
    obtain ⟨fuel, run⟩ := one
    obtain ⟨more, rerun⟩ := other
    simp only [translate, translateTraced, allowed, Bool.false_eq_true, if_false, Option.map_some,
      Option.some.injEq] at run rerun
    exact run.symm.trans rerun

theorem eq_unsupported_of_yields {result : Except TranslateError (List Text)}
    (barred : translator.config.directions.allows direction = false)
    (yields : translator.Yields text direction result) :
    result = .error (.unsupportedDirection direction) := by
  obtain ⟨fuel, run⟩ := yields
  simp only [translate, translateTraced, barred, Bool.false_eq_true, if_false, Option.map_some,
    Option.some.injEq] at run
  exact run.symm

theorem Outcome.failed_or_collected {result : Except TranslateError (List Text)}
    (outcome : Outcome translator text direction result) :
    (∃ down failure, translator.DownEnds text direction down ∧ down.failure = some failure ∧
      result = .error failure) ∨
    ∃ down up, translator.DownEnds text direction down ∧ down.failure = none ∧
      translator.UpEnds down up ∧ result = collect translator.grammar text up.completed := by
  cases outcome with
  | failed ends failed => exact Or.inl ⟨_, _, ends, failed, rfl⟩
  | collected ends succeeded ended => exact Or.inr ⟨_, _, ends, succeeded, ended, rfl⟩

theorem exists_downEnds (confined : translator.entailment.Confined translator.grammar)
    (text : Text) (direction : Direction) : ∃ down, translator.DownEnds text direction down :=
  Downward.exists_endsIn confined _

theorem exists_wayUp_endsIn (confined : translator.entailment.Confined translator.grammar)
    {down : Downward} {downEvents : List TraceEvent}
    (reached : Reaches (Downward.step translator.grammar translator.entailment direction)
      (.start translator.grammar direction text downEvents) down) (events : List TraceEvent) :
    ∃ up, EndsIn (Upward.step translator.grammar translator.grammar.unitCycles)
      (.start down.stack events) up := by
  have bounded (item : Derivation) (member : item ∈ down.stack.items) :
      Upward.Bounded translator.grammar text.byteLength item := by
    obtain ⟨demanded, answers, answer, entails⟩ := Downward.demanded_of_mem_stack reached member
    exact Upward.bounded_of_demanded confined demanded answer entails
  exact Upward.exists_endsIn bounded events

theorem exists_outcome (confined : translator.entailment.Confined translator.grammar)
    (text : Text) (direction : Direction) : ∃ result, Outcome translator text direction result := by
  obtain ⟨down, ends⟩ := exists_downEnds confined text direction
  cases failure : down.failure with
  | some failure => exact ⟨_, .failed ends failure⟩
  | none =>
    obtain ⟨up, ended⟩ := exists_wayUp_endsIn confined ends.reached _
    exact ⟨_, .collected ends failure ended⟩

theorem exists_yields (confined : translator.entailment.Confined translator.grammar)
    (text : Text) (direction : Direction) : ∃ result, translator.Yields text direction result := by
  cases allowed : translator.config.directions.allows direction with
  | true =>
    obtain ⟨result, outcome⟩ := exists_outcome confined text direction
    exact ⟨result, yields_of_outcome allowed outcome⟩
  | false =>
    refine ⟨.error (.unsupportedDirection direction), 0, ?_⟩
    simp [translate, translateTraced, allowed]

/-- Both loops stop, whatever has been traced before them, so that every text has an answer. -/
theorem both_ways_end (translator : Translator) (text : Text) (direction : Direction)
    (events : List TraceEvent) (confined : translator.entailment.Confined translator.grammar) :
    ∃ down,
      (∃ bound, ∀ fuel, bound ≤ fuel →
        translator.downward fuel text direction events = some down) ∧
      (∀ later, ∃ up bound, ∀ fuel, bound ≤ fuel →
        translator.upward fuel down.stack later = some up) ∧
      ∃ result, translator.Yields text direction result := by
  obtain ⟨down, ends⟩ := Downward.exists_endsIn confined (.opened "downward" :: events)
  refine ⟨down, ends.exists_fuel, ?_, exists_yields confined text direction⟩
  intro later
  obtain ⟨up, ended⟩ := exists_wayUp_endsIn confined ends.reached (.opened "upward" :: later)
  exact ⟨up, ended.exists_fuel⟩

def unitLoop : Grammar :=
  ⟨"<r>".toList, .ofList [
    ("<r>".toList, .ofList [⟨"<x>".toList, "R(<x>)".toList⟩]),
    ("<x>".toList, .ofList [⟨"a".toList, "A".toList⟩, ⟨"<z>".toList, "X(<z>)".toList⟩]),
    ("<z>".toList, .ofList [⟨"<x>".toList, "Z(<x>)".toList⟩])], ∅⟩

def unitLoopAnswers : Entailment :=
  .ofRows [
    ⟨"a".toList, "<x>".toList, .ok [⟨[("<x>".toList, "a".toList)]⟩]⟩,
    ⟨"a".toList, "<z>".toList, .ok [⟨[("<z>".toList, "a".toList)]⟩]⟩,
    ⟨"a".toList, "a".toList, .ok [⟨[]⟩]⟩]

theorem both_ways_end_unitLoop :
    unitLoop.unitCycles = ["<x>".toList, "<z>".toList] ∧
      unitLoopAnswers.Confined unitLoop ∧
      ∃ down,
        (∃ bound, ∀ fuel, bound ≤ fuel →
          Translator.downward ⟨unitLoop, .standard, unitLoopAnswers⟩ fuel "a".toList .forward [] =
            some down) ∧
        (∀ later, ∃ up bound, ∀ fuel, bound ≤ fuel →
          Translator.upward ⟨unitLoop, .standard, unitLoopAnswers⟩ fuel down.stack later =
            some up) ∧
        ∃ result, Yields ⟨unitLoop, .standard, unitLoopAnswers⟩ "a".toList .forward result := by
  have confined : unitLoopAnswers.Confined unitLoop :=
    Entailment.confined_ofRows (by decide +kernel)
  exact ⟨by decide +kernel, confined, both_ways_end _ _ _ _ confined⟩

end SyncGrammar.Translator
