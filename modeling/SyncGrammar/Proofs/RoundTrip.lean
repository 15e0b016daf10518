import SyncGrammar.Proofs.Fixpoint
import SyncGrammar.Proofs.Resolution

/-!
Translating back. Where both sides of each rule hold the same tokens, in brackets and apart from one
another, and entailment is exact, a derivation read in one direction can be read in the other: what
was written for the values of its tokens are then the values, and the values are what is written.
-/
namespace SyncGrammar

/-- Both sides can be read off again once their tokens are replaced, and hold the same tokens. -/
structure Production.Balanced (names : List Text) (production : Production) : Prop where
  source : Token.Legible names production.source
  target : Token.Legible names production.target
  written : ∀ token ∈ Token.tokens names production.source,
    token ∈ Token.tokens names production.target
  read : ∀ token ∈ Token.tokens names production.target,
    token ∈ Token.tokens names production.source

theorem Production.balanced_iff {names : List Text} {production : Production} :
    Token.Legible names production.source ∧ Token.Legible names production.target ∧
      (Token.tokens names production.source).all (Token.tokens names production.target).contains ∧
      (Token.tokens names production.target).all (Token.tokens names production.source).contains ↔
    production.Balanced names := by
  simp only [List.all_eq_true, List.contains_iff_mem]
  constructor
  · rintro ⟨source, target, written, read⟩
    exact ⟨source, target, written, read⟩
  · intro balanced
    exact ⟨balanced.source, balanced.target, balanced.written, balanced.read⟩

instance (names : List Text) (production : Production) : Decidable (production.Balanced names) :=
  decidable_of_iff _ Production.balanced_iff

structure Grammar.Balanced (grammar : Grammar) : Prop where
  bracketed : ∀ name ∈ grammar.variableNames, name.Bracketed
  rules : ∀ entry ∈ grammar.rules.entries, ∀ production ∈ entry.2.productions,
    production.Balanced grammar.variableNames

instance (grammar : Grammar) : Decidable grammar.Balanced :=
  decidable_of_iff (_ ∧ _) ⟨fun parts => ⟨parts.1, parts.2⟩, fun whole => ⟨whole.1, whole.2⟩⟩

theorem Production.Balanced.inverted {names : List Text} {production : Production}
    (balanced : production.Balanced names) : production.inverted.Balanced names :=
  ⟨balanced.target, balanced.source, balanced.read, balanced.written⟩

theorem Grammar.Balanced.of_rule {grammar : Grammar} {direction : Direction} {token : Text}
    {production : Production} (balanced : grammar.Balanced)
    (rule : production ∈ grammar.orientedRules direction token) :
    production.Balanced grammar.variableNames := by
  obtain ⟨table, found, member⟩ := Grammar.mem_orientedRules.mp rule
  obtain ⟨name, -, stored⟩ := Grammar.table?_eq_some_iff.mp found
  have turned := balanced.rules _ ((NameTable.get?_eq_some_iff _ _ _).mp stored) _ member
  cases direction with
  | forward => exact turned
  | backward => exact turned.inverted

variable {grammar : Grammar} {entailment : Entailment} {direction : Direction}

/-- The derivation of a plain text reads just this text and writes a plain one, of which it is a
derivation in the other direction. -/
def ReadBack (grammar : Grammar) (entailment : Entailment) (direction : Direction)
    (key : DerivationKey) : Prop :=
  key.subtext.Plain → key.source = key.subtext ∧ key.target.Plain ∧
    Derives grammar entailment direction.reversed ⟨key.target, key.token, key.target, key.subtext⟩

variable {subtext token : Text} {production : Production} {assignment : Assignment}

theorem Production.Balanced.resolvedBy_eq {names tokens : List Text} {read written : Text → Text}
    (balanced : production.Balanced names) (bracketed : ∀ name ∈ names, name.Bracketed)
    (same : ∀ token, token ∈ tokens ↔ token ∈ Token.tokens names production.source)
    (plainRead : ∀ token ∈ tokens, (read token).Plain)
    (plainWritten : ∀ token ∈ tokens, (written token).Plain) (subtext token : Text) :
    (DerivationKey.ofProduction subtext token production).resolvedBy tokens read written =
      ⟨subtext, token, Token.fill names (fun token => some (read token)) production.source,
        Token.fill names (fun token => some (written token)) production.target⟩ := by
  have sameTarget (other : Text) : other ∈ tokens ↔ other ∈ Token.tokens names production.target :=
    (same other).trans ⟨balanced.written other, balanced.read other⟩
  rw [DerivationKey.resolvedBy, DerivationKey.mk.injEq]
  refine ⟨rfl, rfl, ?_, ?_⟩
  · exact Assignment.inOrder_ofValues bracketed balanced.source same plainRead
  · exact Assignment.inOrder_ofValues bracketed balanced.target sameTarget plainWritten

theorem Production.Balanced.derives {names tokens : List Text} {value read written : Text → Text}
    {answers : List Assignment} (sides : production.Balanced names)
    (bracketed : ∀ name ∈ names, name.Bracketed)
    (rule : production ∈ grammar.orientedRules direction token)
    (answer : entailment subtext production.source = .ok answers)
    (entails : .ofValues tokens value ∈ answers)
    (same : ∀ token, token ∈ tokens ↔ token ∈ Token.tokens names production.source)
    (plain : ∀ token ∈ tokens, (read token).Plain ∧ (written token).Plain)
    (stands : ∀ token ∈ tokens, Stands grammar (Derives grammar entailment direction) token
      (value token) (read token) (written token)) :
    Derives grammar entailment direction ⟨subtext, token,
      Token.fill names (fun token => some (read token)) production.source,
      Token.fill names (fun token => some (written token)) production.target⟩ := by
  have resolves := resolves_of_stands stands (.ofProduction subtext token production)
  rw [sides.resolvedBy_eq bracketed same (fun token member => (plain token member).1)
    fun token member => (plain token member).2] at resolves
  exact .entailed rule answer entails resolves

theorem Stands.reversed {value read written : Text} (plain : value.Plain)
    (stands : Stands grammar (ReadBack grammar entailment direction) token value read written) :
    read = value ∧ written.Plain ∧
      Stands grammar (Derives grammar entailment direction.reversed) token written written
        value := by
  cases kind : grammar.hasNonterminal token with
  | true =>
    obtain ⟨same, plainWritten, back⟩ := stands.nonterminal kind plain
    refine ⟨same, plainWritten, fun _ => back, fun isTerminal => ?_⟩
    rw [kind] at isTerminal
    cases isTerminal
  | false =>
    obtain ⟨rfl, rfl⟩ := stands.terminal kind
    refine ⟨rfl, plain, fun isNonterminal => ?_, fun _ => ⟨rfl, rfl⟩⟩
    rw [kind] at isNonterminal
    cases isNonterminal

theorem readBack_of_rule {result : DerivationKey} (balanced : grammar.Balanced)
    (exact : entailment.Exact grammar.variableNames)
    (rule : production ∈ grammar.orientedRules direction token)
    (solves : Entailment.Solves grammar.variableNames subtext production.source assignment)
    (plain : subtext.Plain)
    (resolves : Resolves grammar (fun _ _ => True) (ReadBack grammar entailment direction)
      ⟨.ofProduction subtext token production, assignment⟩ result) :
    result.source = subtext ∧ result.target.Plain ∧
      Derives grammar entailment direction.reversed
        ⟨result.target, token, result.target, subtext⟩ := by
  have bracketed := balanced.bracketed
  have sides := balanced.of_rule rule
  rw [assignment.eq_ofValues solves.nodup] at resolves
  obtain ⟨read, written, stands, rfl⟩ := exists_of_resolves solves.nodup resolves
  have plainValue (other : Text) (member : other ∈ assignment.tokens) :
      (assignment.valueOf other).Plain := solves.plain_valueOf bracketed plain member
  have reversed (other : Text) (member : other ∈ assignment.tokens) :=
    (stands other member).reversed (plainValue other member)
  have inTarget (other : Text) :
      other ∈ assignment.tokens ↔ other ∈ Token.tokens grammar.variableNames production.target :=
    solves.mem_tokens.trans ⟨sides.written other, sides.read other⟩
  have filled : Token.fill grammar.variableNames (fun other => some (assignment.valueOf other))
      production.source = subtext := solves.fill_valueOf bracketed
  rw [DerivationKey.resolvedBy_congr (fun other member => (reversed other member).1)
    fun _ _ => rfl, sides.resolvedBy_eq bracketed (fun _ => solves.mem_tokens) plainValue
    fun other member => (reversed other member).2.1, filled]
  refine ⟨rfl, ?_, ?_⟩
  · refine Token.plain_fill sides.target fun other occurs => ⟨written other, rfl, ?_⟩
    exact (reversed other ((inTarget other).mpr occurs)).2.1
  · let tokens := (Token.tokens grammar.variableNames production.target).eraseDups
    have same (other : Text) : other ∈ tokens ↔ other ∈ assignment.tokens :=
      List.mem_eraseDups.trans (inTarget other).symm
    obtain ⟨answers, answer, entails⟩ :=
      exact.entails (Entailment.solves_ofValues bracketed written production.target)
    have back := sides.inverted.derives bracketed (Grammar.inverted_mem_orientedRules.mpr rule)
      answer entails (fun _ => List.mem_eraseDups)
      (fun other member => ⟨(reversed other ((same other).mp member)).2.1,
        plainValue other ((same other).mp member)⟩)
      (fun other member => (reversed other ((same other).mp member)).2.2)
    rw [Production.inverted, filled] at back
    exact back

theorem derives_readBack {key : DerivationKey} (balanced : grammar.Balanced)
    (exact : entailment.Exact grammar.variableNames)
    (derives : Derives grammar entailment direction key) :
    ReadBack grammar entailment direction key := by
  refine derives.induct (ReadBack grammar entailment direction) ?_
  intro subtext token production answers assignment result rule answer entails resolves plain
  have whole : result.subtext = subtext := resolves.subtext_eq
  have own : result.token = token := resolves.token_eq
  rw [whole] at plain
  rw [whole, own]
  exact readBack_of_rule balanced exact rule (exact.solves answer entails) plain resolves

namespace Translator

variable {translator : Translator} {text other : Text}

theorem DerivesTarget.reversed (balanced : translator.grammar.Balanced)
    (exact : translator.entailment.Exact translator.grammar.variableNames) (plain : text.Plain)
    (derives : translator.DerivesTarget text direction other) :
    other.Plain ∧ translator.DerivesTarget other direction.reversed text := by
  obtain ⟨source, derives⟩ := derives
  obtain ⟨-, plainOther, back⟩ := derives_readBack balanced exact derives plain
  exact ⟨plainOther, other, back⟩

theorem yields_of_balanced (acyclic : translator.grammar.unitCycles = [])
    (balanced : translator.grammar.Balanced)
    (exact : translator.entailment.Exact translator.grammar.variableNames)
    (allowed : translator.config.directions.allows direction = true) (plain : text.Plain) :
    ∃ targets, translator.Yields text direction (.ok targets) ∧
      ∀ target, target ∈ targets ↔ translator.DerivesTarget text direction target := by
  have confined := exact.confined balanced.bracketed
  have answered : translator.Answered text direction := fun key _ => by
    obtain ⟨answers, answer, -⟩ := exact key.subtext key.source
    exact ⟨answers, answer⟩
  obtain ⟨down, ends⟩ := exists_downEnds confined text direction
  have succeeded := answered.succeeded ends
  obtain ⟨up, ended⟩ := exists_wayUp_endsIn confined ends.reached _
  rcases yields_of_acyclic acyclic allowed ends succeeded ended with
    ⟨targets, yields, -, derived⟩ | ⟨target, derives, held, -⟩
  · exact ⟨targets, yields, fun target => (derived target).1⟩
  · have plainTarget := (derives.reversed balanced exact plain).1
    exact absurd (Token.tokens_eq_nil_of_plain balanced.bracketed plainTarget) held

/-- For plain texts, one is a translation of the other exactly if it is translated to the other in
the opposite direction. -/
theorem translates_back_and_forth (translator : Translator) (source target : Text)
    (acyclic : translator.grammar.unitCycles = []) (balanced : translator.grammar.Balanced)
    (exact : translator.entailment.Exact translator.grammar.variableNames)
    (forward : translator.config.directions.allows .forward = true)
    (backward : translator.config.directions.allows .backward = true)
    (plainSource : source.Plain) (plainTarget : target.Plain) :
    ∃ targets sources, translator.Yields source .forward (.ok targets) ∧
      translator.Yields target .backward (.ok sources) ∧
        (target ∈ targets ↔ source ∈ sources) := by
  obtain ⟨targets, yields, derived⟩ := yields_of_balanced acyclic balanced exact forward plainSource
  obtain ⟨sources, yieldsBack, derivedBack⟩ :=
    yields_of_balanced acyclic balanced exact backward plainTarget
  refine ⟨targets, sources, yields, yieldsBack, ?_⟩
  rw [derived, derivedBack]
  constructor
  · intro derives
    exact (derives.reversed balanced exact plainSource).2
  · intro derives
    exact (derives.reversed balanced exact plainTarget).2

def swapping : Grammar :=
  ⟨"<s>".toList, .ofList [
    ("<n>".toList, .ofList [⟨"a".toList, "A".toList⟩, ⟨"b".toList, "B".toList⟩]),
    ("<s>".toList, .ofList [⟨"<n>1+<n>2".toList, "<n>2,<n>1".toList⟩])], ∅⟩

def swappingTranslator : Translator :=
  ⟨swapping, .standard, .exhaustive swapping.variableNames⟩

theorem translates_back_and_forth_swapping :
    swapping.unitCycles = [] ∧ swapping.Balanced ∧
      swappingTranslator.entailment.Exact swapping.variableNames ∧
      ∃ targets sources, swappingTranslator.Yields "a+b".toList .forward (.ok targets) ∧
        swappingTranslator.Yields "B,A".toList .backward (.ok sources) ∧
          "B,A".toList ∈ targets ∧ "a+b".toList ∈ sources := by
  have acyclic : swapping.unitCycles = [] := by decide +kernel
  have balanced : swapping.Balanced := by decide +kernel
  have exact : swappingTranslator.entailment.Exact swapping.variableNames :=
    Entailment.exact_exhaustive balanced.bracketed
  have run : swappingTranslator.Yields "a+b".toList .forward (.ok ["B,A".toList]) :=
    ⟨200, by decide +kernel⟩
  obtain ⟨targets, sources, yields, yieldsBack, same⟩ := translates_back_and_forth
    swappingTranslator "a+b".toList "B,A".toList acyclic balanced exact rfl rfl (by decide)
    (by decide)
  cases run.unique yields
  have found : "B,A".toList ∈ ["B,A".toList] := List.mem_cons_self
  exact ⟨acyclic, balanced, exact, _, sources, yields, yieldsBack, found, same.mp found⟩

end Translator

end SyncGrammar
