import SyncGrammar.Proofs.Derives
import SyncGrammar.Proofs.Translation

/-!
The two ways compute a least fixpoint. Whatever order the queue and the stack impose, only derived
keys are ever completed, and without unit cycles every derived key that the way down has led to is
complete in the end. The answer to a text is then read off the derived keys of the whole text as the
root.
-/
namespace SyncGrammar.Translator

variable {translator : Translator} {text : Text} {direction : Direction}

/-- The way up is in `state` at some time while a text is translated. -/
def OnWayUp (translator : Translator) (text : Text) (direction : Direction) (state : Upward) :
    Prop :=
  ∃ down, translator.DownEnds text direction down ∧ down.failure = none ∧
    Reaches (Upward.step translator.grammar translator.grammar.unitCycles) (upStart down) state

def Answered (translator : Translator) (text : Text) (direction : Direction) : Prop :=
  ∀ key, Downward.Demanded translator.grammar translator.entailment direction text key →
    ∃ answers, translator.entailment key.subtext key.source = .ok answers

def DerivesTarget (translator : Translator) (text : Text) (direction : Direction)
    (target : Text) : Prop :=
  ∃ source, Derives translator.grammar translator.entailment direction
    ⟨text, translator.grammar.root, source, target⟩

theorem answered_iff_of_endsIn {down : Downward} {events : List TraceEvent}
    (ends : EndsIn (Downward.step translator.grammar translator.entailment direction)
      (.start translator.grammar direction text events) down) :
    translator.Answered text direction ↔ down.failure = none := by
  constructor
  · intro answered
    cases failure : down.failure with
    | none => rfl
    | some reason =>
      obtain ⟨key, demanded, refused⟩ := Downward.failure_demanded ends failure
      obtain ⟨answers, answer⟩ := answered key demanded
      rw [answer] at refused
      cases refused
  · intro succeeded key demanded
    obtain ⟨answers, answer, -⟩ := Downward.answered_of_demanded ends succeeded demanded
    exact ⟨answers, answer⟩

theorem Answered.succeeded (answered : translator.Answered text direction) {down : Downward}
    (ends : translator.DownEnds text direction down) : down.failure = none :=
  (answered_iff_of_endsIn ends).mp answered

theorem derives_of_onWayUp {state : Upward} (onWay : translator.OnWayUp text direction state)
    {key : DerivationKey} (completed : key ∈ state.completed.keys) :
    Derives translator.grammar translator.entailment direction key := by
  obtain ⟨down, ends, succeeded, reached⟩ := onWay
  exact derives_of_derivesWith
    (Upward.derivesWith_of_completed ends succeeded reached completed)

theorem timely_of_acyclic {grammar : Grammar} (acyclic : grammar.unitCycles = [])
    (start : Upward) (item : Derivation) (child : DerivationKey) :
    Upward.Timely grammar grammar.unitCycles start item child := by
  left
  rw [acyclic]
  simp [Upward.waits]

theorem classDemanded_root :
    Upward.ClassDemanded translator.grammar translator.entailment direction text text
      translator.grammar.root :=
  fun _ rule => .root rule

theorem mem_lookup_iff_derives (acyclic : translator.grammar.unitCycles = []) {down : Downward}
    {up : Upward} (ends : translator.DownEnds text direction down)
    (succeeded : down.failure = none) (ended : translator.UpEnds down up) (key : DerivationKey) :
    key ∈ up.completed.lookup text translator.grammar.root ↔
      Derives translator.grammar translator.entailment direction key ∧ key.subtext = text ∧
        key.token = translator.grammar.root := by
  rw [CompletedSet.mem_lookup]
  constructor
  · rintro ⟨completed, whole, asRoot⟩
    exact ⟨derives_of_onWayUp ⟨down, ends, succeeded, ended.reached⟩ completed, whole, asRoot⟩
  · rintro ⟨derives, whole, asRoot⟩
    refine ⟨?_, whole, asRoot⟩
    have timely := derives.mono fun item child _ =>
      timely_of_acyclic acyclic (upStart down) item child
    apply Upward.completed_of_derivesWith ends succeeded ended timely
    rw [whole, asRoot]
    exact classDemanded_root

theorem unresolved?_eq_none_iff {grammar : Grammar} {key : DerivationKey} :
    unresolved? grammar key = none ↔ Token.tokens grammar.variableNames key.target = [] := by
  unfold unresolved?
  cases Token.tokens grammar.variableNames key.target <;> simp

theorem unresolved?_of_tokens {grammar : Grammar} {key : DerivationKey}
    (held : Token.tokens grammar.variableNames key.target ≠ []) :
    unresolved? grammar key = some (.unresolvedVariables key.target
      (dropRepeats (Token.tokens grammar.variableNames key.target))) := by
  unfold unresolved?
  cases tokens : Token.tokens grammar.variableNames key.target with
  | nil => exact absurd tokens held
  | cons first rest => rfl

theorem collect_of_resolved {grammar : Grammar} {completed : CompletedSet}
    (resolved : ∀ key ∈ completed.lookup text grammar.root,
      Token.tokens grammar.variableNames key.target = []) :
    collect grammar text completed =
      .ok (Text.sortedDistinct ((completed.lookup text grammar.root).map (·.target))) := by
  have none : (completed.lookup text grammar.root).findSome? (unresolved? grammar) = none :=
    List.findSome?_eq_none_iff.mpr fun key member =>
      unresolved?_eq_none_iff.mpr (resolved key member)
  simp [collect, none]

theorem collect_of_unresolved {grammar : Grammar} {completed : CompletedSet} {key : DerivationKey}
    (member : key ∈ completed.lookup text grammar.root)
    (held : Token.tokens grammar.variableNames key.target ≠ []) :
    ∃ first ∈ completed.lookup text grammar.root,
      Token.tokens grammar.variableNames first.target ≠ [] ∧
        collect grammar text completed = .error (.unresolvedVariables first.target
          (dropRepeats (Token.tokens grammar.variableNames first.target))) := by
  cases found : (completed.lookup text grammar.root).findSome? (unresolved? grammar) with
  | none =>
    have resolved := List.findSome?_eq_none_iff.mp found key member
    exact absurd (unresolved?_eq_none_iff.mp resolved) held
  | some error =>
    obtain ⟨first, inside, complaint⟩ := List.exists_of_findSome?_eq_some found
    have holds : Token.tokens grammar.variableNames first.target ≠ [] := by
      intro empty
      rw [unresolved?_eq_none_iff.mpr empty] at complaint
      cases complaint
    refine ⟨first, inside, holds, ?_⟩
    rw [unresolved?_of_tokens holds] at complaint
    cases complaint
    simp [collect, found]

theorem derivesTarget_iff (acyclic : translator.grammar.unitCycles = []) {down : Downward}
    {up : Upward} (ends : translator.DownEnds text direction down)
    (succeeded : down.failure = none) (ended : translator.UpEnds down up) (target : Text) :
    translator.DerivesTarget text direction target ↔
      target ∈ (up.completed.lookup text translator.grammar.root).map (·.target) := by
  have completed := mem_lookup_iff_derives acyclic ends succeeded ended
  rw [List.mem_map]
  constructor
  · rintro ⟨source, derives⟩
    exact ⟨_, (completed _).mpr ⟨derives, rfl, rfl⟩, rfl⟩
  · rintro ⟨⟨subtext, token, source, _⟩, member, rfl⟩
    obtain ⟨derives, rfl, rfl⟩ := (completed _).mp member
    exact ⟨source, derives⟩

/-- The answer without unit cycles: the derived targets of the text, or the complaint about one of
them that still holds tokens. -/
theorem yields_of_acyclic (acyclic : translator.grammar.unitCycles = []) {down : Downward}
    {up : Upward} (allowed : translator.config.directions.allows direction = true)
    (ends : translator.DownEnds text direction down) (succeeded : down.failure = none)
    (ended : translator.UpEnds down up) :
    (∃ targets, translator.Yields text direction (.ok targets) ∧ targets.Pairwise (· < ·) ∧
      ∀ target, (target ∈ targets ↔ translator.DerivesTarget text direction target) ∧
        (translator.DerivesTarget text direction target →
          Token.tokens translator.grammar.variableNames target = [])) ∨
    ∃ target, translator.DerivesTarget text direction target ∧
      Token.tokens translator.grammar.variableNames target ≠ [] ∧
        translator.Yields text direction (.error (.unresolvedVariables target
          (dropRepeats (Token.tokens translator.grammar.variableNames target)))) := by
  have yields := yields_of_outcome allowed (.collected ends succeeded ended)
  have derived := derivesTarget_iff acyclic ends succeeded ended
  let keys := up.completed.lookup text translator.grammar.root
  by_cases resolved : ∀ key ∈ keys, Token.tokens translator.grammar.variableNames key.target = []
  · left
    rw [collect_of_resolved resolved] at yields
    refine ⟨_, yields, Text.pairwise_sortedDistinct _, fun target => ⟨?_, fun derives => ?_⟩⟩
    · rw [Text.mem_sortedDistinct, derived]
    · obtain ⟨key, member, rfl⟩ := List.mem_map.mp ((derived target).mp derives)
      exact resolved key member
  · right
    obtain ⟨key, member, held⟩ : ∃ key ∈ keys,
        Token.tokens translator.grammar.variableNames key.target ≠ [] := by
      simpa using resolved
    obtain ⟨first, inside, holds, complaint⟩ := collect_of_unresolved member held
    rw [complaint] at yields
    exact ⟨first.target, (derived _).mpr (List.mem_map.mpr ⟨first, inside, rfl⟩), holds, yields⟩

/-- Whatever is completed is derived. Without unit cycles, and if no question is refused, what is
completed of the whole text as the root in the end is exactly what is derived, and the answer is
read off it. -/
theorem computes_least_fixpoint (translator : Translator) (text : Text) (direction : Direction)
    (confined : translator.entailment.Confined translator.grammar) :
    (∀ state, translator.OnWayUp text direction state → ∀ key ∈ state.completed.keys,
      Derives translator.grammar translator.entailment direction key) ∧
    (translator.grammar.unitCycles = [] → translator.Answered text direction →
      (∃ last, translator.OnWayUp text direction last ∧ last.stack.items = [] ∧
        ∀ key, key ∈ last.completed.lookup text translator.grammar.root ↔
          Derives translator.grammar translator.entailment direction key ∧ key.subtext = text ∧
            key.token = translator.grammar.root) ∧
      (translator.config.directions.allows direction = true →
        (∃ targets, translator.Yields text direction (.ok targets) ∧ targets.Pairwise (· < ·) ∧
          ∀ target, (target ∈ targets ↔ translator.DerivesTarget text direction target) ∧
            (translator.DerivesTarget text direction target →
              Token.tokens translator.grammar.variableNames target = [])) ∨
        ∃ target, translator.DerivesTarget text direction target ∧
          Token.tokens translator.grammar.variableNames target ≠ [] ∧
            translator.Yields text direction (.error (.unresolvedVariables target
              (dropRepeats (Token.tokens translator.grammar.variableNames target)))))) := by
  refine ⟨fun state onWay key => derives_of_onWayUp onWay, fun acyclic answered => ?_⟩
  obtain ⟨down, ends⟩ := exists_downEnds confined text direction
  have succeeded := answered.succeeded ends
  obtain ⟨up, ended⟩ := exists_wayUp_endsIn confined ends.reached _
  refine ⟨⟨up, ⟨down, ends, succeeded, ended.reached⟩, ?_, ?_⟩, fun allowed => ?_⟩
  · exact Upward.step_eq_none_iff.mp ended.stopped
  · exact mem_lookup_iff_derives acyclic ends succeeded ended
  · exact yields_of_acyclic acyclic allowed ends succeeded ended

def sharedChild : Grammar :=
  ⟨"<r>".toList, .ofList [
    ("<r>".toList, .ofList [⟨"<x>".toList, "R1(<x>)".toList⟩, ⟨"<y>".toList, "R2(<y>)".toList⟩]),
    ("<x>".toList, .ofList [⟨"a".toList, "A".toList⟩]),
    ("<y>".toList, .ofList [⟨"<x>".toList, "Y(<x>)".toList⟩])], ∅⟩

def sharedChildRows : List Entailment.Row :=
  [⟨"a".toList, "<x>".toList, .ok [⟨[("<x>".toList, "a".toList)]⟩]⟩,
    ⟨"a".toList, "<y>".toList, .ok [⟨[("<y>".toList, "a".toList)]⟩]⟩,
    ⟨"a".toList, "a".toList, .ok [⟨[]⟩]⟩]

def sharedChildTranslator : Translator :=
  ⟨sharedChild, .standard, .ofRows sharedChildRows⟩

theorem computes_least_fixpoint_sharedChild :
    sharedChildTranslator.entailment.Confined sharedChild ∧ sharedChild.unitCycles = [] ∧
      sharedChildTranslator.Answered "a".toList .forward ∧
      ∀ target, sharedChildTranslator.DerivesTarget "a".toList .forward target ↔
        target ∈ ["R1(A)".toList, "R2(Y(A))".toList] := by
  have confined : sharedChildTranslator.entailment.Confined sharedChild :=
    Entailment.confined_ofRows (by decide +kernel)
  have acyclic : sharedChild.unitCycles = [] := by decide +kernel
  have answered : sharedChildTranslator.Answered "a".toList .forward :=
    fun key _ => Entailment.exists_answers_ofRows (by decide +kernel) key.subtext key.source
  have run : sharedChildTranslator.Yields "a".toList .forward
      (.ok ["R1(A)".toList, "R2(Y(A))".toList]) := ⟨50, by decide +kernel⟩
  obtain ⟨-, whole⟩ := computes_least_fixpoint sharedChildTranslator "a".toList .forward confined
  obtain ⟨-, answer⟩ := whole acyclic answered
  refine ⟨confined, acyclic, answered, fun target => ?_⟩
  rcases answer rfl with ⟨targets, yields, -, exact⟩ | ⟨held, -, -, yields⟩
  · cases run.unique yields
    exact (exact target).1.symm
  · cases run.unique yields

end SyncGrammar.Translator
