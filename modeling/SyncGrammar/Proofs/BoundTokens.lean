import SyncGrammar.Proofs.Grafting
import SyncGrammar.Proofs.RoundTrip

/-!
Tokens on the way up. Where both sides of each rule hold the same tokens, and each answer binds just
the tokens of the side that was asked about, the tokens left in a derivation are at all times those
that it still binds, so that nothing is left of them when it completes.
-/
namespace SyncGrammar

/-- The answers about a plain text bind just the tokens of the hypothesis, each once and to a plain
text. -/
def Entailment.BindsTokens (entailment : Entailment) (names : List Text) : Prop :=
  ∀ text hypothesis answers, text.Plain → entailment text hypothesis = .ok answers →
    ∀ assignment ∈ answers, assignment.tokens.Nodup ∧
      (∀ token, token ∈ assignment.tokens ↔ token ∈ Token.tokens names hypothesis) ∧
        ∀ binding ∈ assignment.bindings, binding.2.Plain

theorem Entailment.Exact.bindsTokens {entailment : Entailment} {names : List Text}
    (exact : entailment.Exact names) (bracketed : ∀ name ∈ names, name.Bracketed) :
    entailment.BindsTokens names := by
  intro text hypothesis answers plain answer assignment entails
  have solves := exact.solves answer entails
  refine ⟨solves.nodup, fun token => solves.mem_tokens, fun binding member => ?_⟩
  exact plain.of_infix (solves.confined bracketed member).2.1

/-- The tokens left on both sides are those that are still bound. -/
structure Derivation.Matched (names : List Text) (item : Derivation) : Prop where
  source : ∀ token, token ∈ Token.tokens names item.key.source ↔ token ∈ item.assignment.tokens
  target : ∀ token, token ∈ Token.tokens names item.key.target ↔ token ∈ item.assignment.tokens

structure DerivationKey.Resolved (names : List Text) (key : DerivationKey) : Prop where
  source : Token.tokens names key.source = []
  target : Token.tokens names key.target = []

structure DerivationKey.Cut (names : List Text) (key : DerivationKey) : Prop where
  source : Token.WellCut names (Token.segments names key.source)
  target : Token.WellCut names (Token.segments names key.target)

variable {names : List Text} {key child : DerivationKey} {token : Text}

theorem DerivationKey.cut_substituted (bracketed : ∀ name ∈ names, name.Bracketed)
    (isToken : Token.IsToken names token) (cut : key.Cut names) (childCut : child.Cut names) :
    (key.substituted token child.source child.target).Cut names :=
  ⟨Token.wellCut_substitute bracketed isToken cut.source childCut.source,
    Token.wellCut_substitute bracketed isToken cut.target childCut.target⟩

/-- What is preserved while the bindings of an item are resolved. -/
structure Derivation.Resolvable (names : List Text) (item : Derivation) : Prop where
  cut : item.key.Cut names
  matched : item.Matched names
  distinct : item.assignment.tokens.Nodup
  plain : ∀ binding ∈ item.assignment.bindings, binding.2.Plain

theorem Token.mem_tokens_left {side value : Text} {rest : List Text}
    (bracketed : ∀ name ∈ names, name.Bracketed)
    (bound : ∀ other, other ∈ tokens names side ↔ other ∈ token :: rest) (fresh : token ∉ rest)
    (cut : WellCut names (segments names side)) (valueCut : WellCut names (segments names value))
    (resolved : tokens names value = []) (other : Text) :
    other ∈ tokens names (substitute token value side) ↔ other ∈ rest := by
  have isToken : IsToken names token :=
    isToken_of_mem_tokens ((bound token).mpr List.mem_cons_self)
  rw [mem_tokens_substitute bracketed isToken cut valueCut, bound, List.mem_cons, resolved]
  constructor
  · rintro (⟨same | later, different⟩ | ⟨-, none⟩)
    · exact absurd same.symm different
    · exact later
    · cases none
  · intro later
    have different : token ≠ other := fun same => fresh (same ▸ later)
    exact Or.inl ⟨Or.inr later, different⟩

theorem Derivation.Resolvable.substituted {value : Text} {rest : List (Text × Text)}
    (bracketed : ∀ name ∈ names, name.Bracketed)
    (resolvable : Derivation.Resolvable names ⟨key, ⟨(token, value) :: rest⟩⟩)
    (cut : child.Cut names) (resolved : child.Resolved names) :
    Derivation.Resolvable names ⟨key.substituted token child.source child.target, ⟨rest⟩⟩ := by
  obtain ⟨fresh, distinct⟩ := List.nodup_cons.mp resolvable.distinct
  have inSource := resolvable.matched.source
  have inTarget := resolvable.matched.target
  have isToken := Token.isToken_of_mem_tokens ((inSource token).mpr List.mem_cons_self)
  refine ⟨DerivationKey.cut_substituted bracketed isToken resolvable.cut cut, ⟨?_, ?_⟩, distinct,
    (List.forall_mem_cons.mp resolvable.plain).2⟩
  · exact Token.mem_tokens_left bracketed inSource fresh resolvable.cut.source cut.source
      resolved.source
  · exact Token.mem_tokens_left bracketed inTarget fresh resolvable.cut.target cut.target
      resolved.target

theorem Derivation.Resolvable.resolved (resolvable : Derivation.Resolvable names ⟨key, ⟨[]⟩⟩) :
    key.Resolved names := by
  constructor
  · apply List.eq_nil_iff_forall_not_mem.mpr
    intro token occurs
    cases (resolvable.matched.source token).mp occurs
  · apply List.eq_nil_iff_forall_not_mem.mpr
    intro token occurs
    cases (resolvable.matched.target token).mp occurs

variable {grammar : Grammar} {entailment : Entailment} {direction : Direction} {text : Text}

namespace Downward.Demanded

theorem exists_rule (demanded : Demanded grammar entailment direction text key) :
    ∃ subtext token, ∃ production ∈ grammar.orientedRules direction token,
      key = .ofProduction subtext token production := by
  cases demanded with
  | root rule => exact ⟨_, _, _, rule, rfl⟩
  | child _ _ _ _ rule => exact ⟨_, _, _, rule, rfl⟩

theorem plain_subtext (demanded : Demanded grammar entailment direction text key)
    (binds : entailment.BindsTokens grammar.variableNames) (plain : text.Plain) :
    key.subtext.Plain := by
  induction demanded with
  | root rule => exact plain
  | child _ answer entails bound _ ih => exact (binds _ _ _ ih answer _ entails).2.2 _ bound

theorem resolvable (balanced : grammar.Balanced)
    (binds : entailment.BindsTokens grammar.variableNames) (plain : text.Plain)
    {assignment : Assignment} {answers : List Assignment}
    (demanded : Demanded grammar entailment direction text key)
    (answer : entailment key.subtext key.source = .ok answers) (entails : assignment ∈ answers) :
    Derivation.Resolvable grammar.variableNames ⟨key, assignment⟩ := by
  obtain ⟨distinct, bound, values⟩ :=
    binds _ _ _ (demanded.plain_subtext binds plain) answer assignment entails
  obtain ⟨subtext, token, production, rule, rfl⟩ := demanded.exists_rule
  have sides := balanced.of_rule rule
  refine ⟨⟨sides.source.wellCut, sides.target.wellCut⟩, ⟨?_, ?_⟩, distinct, values⟩
  · intro other
    exact (bound other).symm
  · intro other
    have same : other ∈ Token.tokens grammar.variableNames production.target ↔
        other ∈ Token.tokens grammar.variableNames production.source :=
      ⟨sides.read other, sides.written other⟩
    exact same.trans (bound other).symm

end Downward.Demanded

namespace Translator

variable {translator : Translator}

theorem holds_of_balanced (balanced : translator.grammar.Balanced)
    (binds : translator.entailment.BindsTokens translator.grammar.variableNames)
    (plain : text.Plain) {state : Upward} (onWay : translator.OnWayUp text direction state) :
    Upward.Holds translator.grammar translator.grammar.unitCycles
      (Derivation.Resolvable translator.grammar.variableNames)
      (fun key => key.Cut translator.grammar.variableNames ∧
        key.Resolved translator.grammar.variableNames) state := by
  have bracketed := balanced.bracketed
  obtain ⟨down, ends, succeeded, reached⟩ := onWay
  refine Upward.holds_of_reaches ?_ ?_ ?_ ?_ reached
  · intro item member
    obtain ⟨demanded, answers, answer, entails⟩ :=
      (Downward.mem_stack_iff ends succeeded item).mp member
    exact demanded.resolvable balanced binds plain answer entails
  · intro key resolvable
    exact ⟨resolvable.cut, resolvable.resolved⟩
  · intro key token value rest resolvable _
    have plainValue := (List.forall_mem_cons.mp resolvable.plain).1
    have cut := Token.wellCut_of_plain bracketed plainValue
    have resolved := Token.tokens_eq_nil_of_plain bracketed plainValue
    exact @Derivation.Resolvable.substituted _ key ⟨value, token, value, value⟩ token value rest
      bracketed resolvable ⟨cut, cut⟩ ⟨resolved, resolved⟩
  · intro key child rest resolvable below _ _
    exact resolvable.substituted bracketed below.1 below.2

theorem exists_targets_of_balanced (balanced : translator.grammar.Balanced)
    (binds : translator.entailment.BindsTokens translator.grammar.variableNames)
    (plain : text.Plain) (acyclic : translator.grammar.unitCycles = [])
    (allowed : translator.config.directions.allows direction = true) {down : Downward}
    {up : Upward} (ends : translator.DownEnds text direction down) (succeeded : down.failure = none)
    (ended : translator.UpEnds down up) :
    ∃ targets, translator.Yields text direction (.ok targets) ∧ targets.Pairwise (· < ·) ∧
      ∀ target, target ∈ targets ↔ translator.DerivesTarget text direction target := by
  have holds := holds_of_balanced balanced binds plain ⟨down, ends, succeeded, ended.reached⟩
  rcases yields_of_acyclic acyclic allowed ends succeeded ended with
    ⟨targets, yields, ascending, derived⟩ | ⟨target, derives, held, -⟩
  · exact ⟨targets, yields, ascending, fun target => (derived target).1⟩
  · rw [derivesTarget_iff acyclic ends succeeded ended] at derives
    obtain ⟨key, member, rfl⟩ := List.mem_map.mp derives
    exact absurd (holds.keys key (CompletedSet.mem_lookup.mp member).1).2.target held

/-- In a balanced grammar the tokens left in a derivation are those that it still binds, completed
keys hold none, and no text is complained about, unless the entailment itself complains. -/
theorem tokens_stay_bound (translator : Translator) (text : Text) (direction : Direction)
    (balanced : translator.grammar.Balanced)
    (binds : translator.entailment.BindsTokens translator.grammar.variableNames)
    (plain : text.Plain) :
    (∀ state, translator.OnWayUp text direction state →
      (∀ item ∈ state.stack.items, item.Matched translator.grammar.variableNames) ∧
      (∀ waiting ∈ state.waitlist.entries,
        waiting.parent.Matched translator.grammar.variableNames) ∧
      ∀ key ∈ state.completed.keys, key.Resolved translator.grammar.variableNames) ∧
    ∀ target tokens,
      translator.Yields text direction (.error (.unresolvedVariables target tokens)) →
        ∃ key, Downward.Demanded translator.grammar translator.entailment direction text key ∧
          translator.entailment key.subtext key.source =
            .error (.unresolvedVariables target tokens) := by
  refine ⟨fun state onWay => ?_, fun target tokens yields => ?_⟩
  · have holds := holds_of_balanced balanced binds plain onWay
    exact ⟨fun item member => (holds.items item member).matched,
      fun waiting entry => (holds.waiting waiting entry).1.matched,
      fun key member => (holds.keys key member).2⟩
  · cases allowed : translator.config.directions.allows direction with
    | false => cases eq_unsupported_of_yields allowed yields
    | true =>
      rcases (outcome_of_yields allowed yields).failed_or_collected with
        ⟨down, failure, ends, failed, same⟩ | ⟨down, up, ends, succeeded, ended, same⟩
      · cases same
        exact Downward.failure_demanded ends failed
      · have holds := holds_of_balanced balanced binds plain ⟨down, ends, succeeded, ended.reached⟩
        have resolved : ∀ key ∈ up.completed.lookup text translator.grammar.root,
            Token.tokens translator.grammar.variableNames key.target = [] := by
          intro key member
          exact (holds.keys key (CompletedSet.mem_lookup.mp member).1).2.target
        rw [collect_of_resolved resolved] at same
        cases same

theorem tokens_stay_bound_swapping :
    swapping.Balanced ∧ swappingTranslator.entailment.BindsTokens swapping.variableNames ∧
      Text.Plain "a+b".toList ∧ ∀ target tokens, ¬ swappingTranslator.Yields "a+b".toList .forward
        (.error (.unresolvedVariables target tokens)) := by
  have balanced : swapping.Balanced := by decide +kernel
  have binds : swappingTranslator.entailment.BindsTokens swapping.variableNames :=
    (Entailment.exact_exhaustive balanced.bracketed).bindsTokens balanced.bracketed
  have plain : Text.Plain "a+b".toList := by decide
  refine ⟨balanced, binds, plain, fun target tokens yields => ?_⟩
  obtain ⟨key, -, refused⟩ :=
    (tokens_stay_bound swappingTranslator "a+b".toList .forward balanced binds plain).2 _ _ yields
  cases refused

end Translator

end SyncGrammar
