import SyncGrammar.Proofs.BoundTokens
import SyncGrammar.Proofs.Containment
import SyncGrammar.Proofs.FaithfulEngine
import SyncGrammar.Proofs.Soundness
import SyncGrammar.Proofs.Unbound

namespace SyncGrammar

namespace Token

variable {names : List Text}

theorem fill_sublist_fill {less more : Text → Option Text} {text : Text}
    (shorter : ∀ token, ((less token).getD token).Sublist ((more token).getD token)) :
    (fill names less text).Sublist (fill names more text) := by
  unfold fill
  induction segments names text with
  | nil => exact List.Sublist.refl _
  | cons segment rest ih =>
    rw [List.flatMap_cons, List.flatMap_cons]
    refine List.Sublist.append ?_ ih
    cases segment with
    | literal c => exact List.Sublist.refl _
    | token name index => exact shorter (name ++ index)

end Token

/-- Declared names stand in brackets, brackets occur in the sides of rules only as parts of tokens,
and no token directly follows another. -/
structure Grammar.Legible (grammar : Grammar) : Prop where
  bracketed : ∀ name ∈ grammar.variableNames, name.Bracketed
  rules : ∀ entry ∈ grammar.rules.entries, ∀ production ∈ entry.2.productions,
    Token.Legible grammar.variableNames production.source ∧
      Token.Legible grammar.variableNames production.target

instance (grammar : Grammar) : Decidable grammar.Legible :=
  decidable_of_iff (_ ∧ _) ⟨fun parts => ⟨parts.1, parts.2⟩, fun whole => ⟨whole.1, whole.2⟩⟩

variable {grammar : Grammar} {direction : Direction}

theorem Grammar.Legible.of_rule {token : Text} {production : Production}
    (legible : grammar.Legible) (rule : production ∈ grammar.orientedRules direction token) :
    Token.Legible grammar.variableNames production.source := by
  obtain ⟨table, found, member⟩ := Grammar.mem_orientedRules.mp rule
  obtain ⟨name, -, stored⟩ := Grammar.table?_eq_some_iff.mp found
  have turned := legible.rules _ ((NameTable.get?_eq_some_iff _ _ _).mp stored) _ member
  cases direction with
  | forward => exact turned.1
  | backward => exact turned.2

variable {Compiled : Type} {engine : RegexEngine Compiled} {inside : Text → Prop}

/-- The expressions of the variables, and the one that stands in for missing ones, stay inside the
groups that they are spliced into. -/
def Grammar.Contained (grammar : Grammar) (inside : Text → Prop) (wildcard : Text) : Prop :=
  inside wildcard ∧ ∀ entry ∈ grammar.variables.entries, inside entry.2

theorem Grammar.Contained.leafVariables {wildcard : Text}
    (contained : grammar.Contained inside wildcard) :
    ∀ entry ∈ (grammar.leafVariables wildcard).entries, inside entry.2 := by
  have added (names : List Text) (table : VariableTable)
      (before : ∀ entry ∈ table.entries, inside entry.2) :
      ∀ entry ∈ (names.foldl (fun table name => table.insertIfNew name wildcard) table).entries,
        inside entry.2 := by
    induction names generalizing table with
    | nil => exact before
    | cons name names ih =>
      refine ih _ fun entry member => ?_
      have stored := (NameTable.get?_eq_some_iff _ _ _).mpr member
      rw [NameTable.get?_insertIfNew] at stored
      split at stored
      · rename_i named
        cases old : table.get? name with
        | none =>
          rw [old] at stored
          exact Option.some.inj stored ▸ contained.1
        | some expression =>
          rw [old] at stored
          have known := before (name, expression) ((NameTable.get?_eq_some_iff _ _ _).mp old)
          exact Option.some.inj stored ▸ known
      · exact before entry ((NameTable.get?_eq_some_iff _ _ _).mp stored)
  exact added _ _ contained.2

/-- What is preserved while the bindings of an item are resolved: the source with the remaining
values written out can be read in the subtext, and the subtext in the text. -/
structure Derivation.ReadOff (names : List Text) (text : Text) (item : Derivation) : Prop where
  within : item.key.subtext <:+: text
  cut : Token.WellCut names (Token.segments names item.key.source)
  bound : ∀ binding ∈ item.assignment.bindings, Token.IsToken names binding.1 ∧ binding.2.Plain
  source : (Token.fill names item.assignment.get? item.key.source).Sublist item.key.subtext

variable {names : List Text} {text : Text} {key : DerivationKey}

theorem Derivation.ReadOff.substituted {token value read : Text} {rest : List (Text × Text)}
    (bracketed : ∀ name ∈ names, name.Bracketed)
    (readOff : Derivation.ReadOff names text ⟨key, ⟨(token, value) :: rest⟩⟩)
    (part : read.Sublist value) (target : Text) :
    Derivation.ReadOff names text ⟨key.substituted token read target, ⟨rest⟩⟩ := by
  obtain ⟨within, cut, bound, source⟩ := readOff
  rw [List.forall_mem_cons] at bound
  obtain ⟨⟨isToken, plainValue⟩, boundRest⟩ := bound
  have plainRead : read.Plain :=
    ⟨fun bracket => plainValue.1 (part.subset bracket),
      fun bracket => plainValue.2 (part.subset bracket)⟩
  have single : ∀ other inserted, Assignment.get? ⟨[(token, read)]⟩ other = some inserted →
      inserted.Plain :=
    fun _ _ => Substitution.plain_of_get? (by simpa using plainRead)
  have written : substitute token read key.source =
      Token.fill names (Assignment.get? ⟨[(token, read)]⟩) key.source :=
    Substitution.substituteAll_eq_fill bracketed (by simpa using isToken) key.source
  refine ⟨within, ?_, boundRest, ?_⟩
  · show Token.WellCut names (Token.segments names (substitute token read key.source))
    rw [written]
    exact Token.wellCut_fill bracketed cut single
  · refine List.Sublist.trans ?_ source
    show (Token.fill names (Assignment.get? ⟨rest⟩) (substitute token read key.source)).Sublist _
    rw [written, Token.fill_fill bracketed cut single]
    apply Token.fill_sublist_fill
    intro other
    rw [Assignment.get?_cons, Assignment.get?_cons]
    by_cases same : token = other
    · simpa [same] using part
    · simp [same, Assignment.get?]

theorem Derivation.ReadOff.resolved (readOff : Derivation.ReadOff names text ⟨key, ⟨[]⟩⟩) :
    key.source.Sublist key.subtext ∧ key.subtext <:+: text := by
  refine ⟨?_, readOff.within⟩
  have source := readOff.source
  have unbound : Assignment.get? ⟨[]⟩ = fun _ => none := rfl
  rwa [unbound, Token.fill_unbound] at source

theorem Entailment.Sound.confined {entailment : Entailment}
    (sound : entailment.Sound grammar.variableNames)
    (bracketed : ∀ name ∈ grammar.variableNames, name.Bracketed) :
    entailment.Confined grammar := by
  intro text hypothesis answers answer assignment entails binding member
  obtain ⟨part, inside, solves⟩ := sound _ _ _ answer _ entails
  obtain ⟨occurs, within, level⟩ := solves.confined bracketed member
  refine ⟨occurs, within.trans inside, fun same => level ?_⟩
  have upper := Text.byteLength_le_of_infix inside
  have lower := Text.byteLength_le_of_infix within
  omega

theorem Entailment.Sound.subtext_infix {entailment : Entailment}
    (sound : entailment.Sound grammar.variableNames)
    (bracketed : ∀ name ∈ grammar.variableNames, name.Bracketed)
    (demanded : Downward.Demanded grammar entailment direction text key) :
    key.subtext <:+: text := by
  induction demanded with
  | root rule => exact List.infix_rfl
  | child _ answer entails bound _ ih =>
    exact (sound.confined bracketed _ _ _ answer _ entails _ bound).2.1.trans ih

theorem Entailment.Sound.readOff {entailment : Entailment}
    (sound : entailment.Sound grammar.variableNames) (legible : grammar.Legible)
    (plain : text.Plain) (demanded : Downward.Demanded grammar entailment direction text key)
    {answers : List Assignment} {assignment : Assignment}
    (answer : entailment key.subtext key.source = .ok answers) (entails : assignment ∈ answers) :
    Derivation.ReadOff grammar.variableNames text ⟨key, assignment⟩ := by
  have within := sound.subtext_infix legible.bracketed demanded
  obtain ⟨part, inside, solves⟩ := sound _ _ _ answer _ entails
  obtain ⟨subtext, token, production, rule, rfl⟩ := demanded.exists_rule
  refine ⟨within, (legible.of_rule rule).wellCut, fun binding member => ?_, ?_⟩
  · have confined := sound.confined legible.bracketed _ _ _ answer _ entails binding member
    exact ⟨Token.isToken_of_mem_tokens confined.1, plain.of_infix (confined.2.1.trans within)⟩
  · have filled := solves.fill_eq legible.bracketed
    exact filled.symm ▸ inside.sublist

theorem Grammar.Contained.sound {wildcard : Text} (contained : grammar.Contained inside wildcard)
    (faithful : engine.Faithful inside)
    (bracketed : ∀ name ∈ grammar.variableNames, name.Bracketed) :
    (Entailment.matching engine (grammar.leafVariables wildcard)).Sound grammar.variableNames := by
  have sound := Entailment.sound_matching faithful
    (fun name member => bracketed name (Grammar.mem_names_leafVariables.mp member))
    contained.leafVariables
  intro text hypothesis answers answer assignment entails
  obtain ⟨part, inside, tokens, written⟩ := sound text hypothesis answers answer assignment entails
  rw [Token.tokens_congr fun _ _ => Grammar.mem_names_leafVariables] at tokens
  exact ⟨part, inside, tokens, written⟩

namespace Translator

variable {translator : Translator} {config : TranslatorConfig}

theorem holds_of_sound (sound : translator.entailment.Sound translator.grammar.variableNames)
    (legible : translator.grammar.Legible) (plain : text.Plain) {state : Upward}
    (onWay : translator.OnWayUp text direction state) :
    Upward.Holds translator.grammar translator.grammar.unitCycles
      (Derivation.ReadOff translator.grammar.variableNames text)
      (fun key => key.source.Sublist key.subtext ∧ key.subtext <:+: text) state := by
  obtain ⟨down, ends, succeeded, reached⟩ := onWay
  refine Upward.holds_of_reaches ?_ ?_ ?_ ?_ reached
  · intro item member
    obtain ⟨demanded, answers, answer, entails⟩ :=
      (Downward.mem_stack_iff ends succeeded item).mp member
    exact sound.readOff legible plain demanded answer entails
  · exact fun key readOff => readOff.resolved
  · intro key token value rest readOff _
    exact readOff.substituted legible.bracketed (List.Sublist.refl value) value
  · intro key child rest readOff below _ _
    exact readOff.substituted legible.bracketed below.1 child.target

/-- What a derivation has read is in its subtext, in this order, and its subtext is a part of the
text. -/
theorem sources_are_read_off (faithful : engine.Faithful inside)
    (built : ofConfig engine grammar config = .ok translator) (legible : grammar.Legible)
    (contained : grammar.Contained inside config.wildcard) (plain : text.Plain) {state : Upward}
    (onWay : translator.OnWayUp text direction state) :
    ∀ key ∈ state.completed.keys, key.source.Sublist key.subtext ∧ key.subtext <:+: text := by
  obtain ⟨rfl, rfl, same⟩ := of_ofConfig built
  have sound : translator.entailment.Sound translator.grammar.variableNames :=
    same ▸ contained.sound faithful legible.bracketed
  exact (holds_of_sound sound legible plain onWay).keys

def skipping : Grammar :=
  ⟨"<r>".toList, .ofList [
    ("<r>".toList, .ofList [⟨"[<x>]".toList, "(<x>)".toList⟩]),
    ("<x>".toList, .ofList [⟨"a".toList, "A".toList⟩])], .empty⟩

def skippingTranslator : Translator :=
  ⟨skipping, .standard,
    .matching Regex.engine (skipping.leafVariables TranslatorConfig.standard.wildcard)⟩

theorem sources_are_read_off_skipping :
    Regex.engine.Faithful Regex.StaysInside ∧
      ofConfig Regex.engine skipping .standard = .ok skippingTranslator ∧ skipping.Legible ∧
      skipping.Contained Regex.StaysInside TranslatorConfig.standard.wildcard ∧
      Text.Plain "[bab]".toList ∧
      ∃ state, skippingTranslator.OnWayUp "[bab]".toList .forward state ∧
        ∃ key ∈ state.completed.keys, key.source = "[a]".toList ∧
          key.subtext = "[bab]".toList ∧ key.source.Sublist key.subtext := by
  have built : ofConfig Regex.engine skipping .standard = .ok skippingTranslator :=
    ofConfig_eq_ok (by decide +kernel)
  have legible : skipping.Legible := by decide +kernel
  have contained : skipping.Contained Regex.StaysInside TranslatorConfig.standard.wildcard :=
    ⟨Regex.staysInside_anything, fun _ member => by cases member⟩
  have plain : Text.Plain "[bab]".toList := by decide
  have run : skippingTranslator.Yields "[bab]".toList .forward (.ok ["(A)".toList]) :=
    ⟨50, by decide +kernel⟩
  rcases (outcome_of_yields rfl run).failed_or_collected with
    ⟨down, failure, ends, failed, answer⟩ | ⟨down, up, ends, succeeded, ended, -⟩
  · cases answer
  have acyclic : skipping.unitCycles = [] := by decide +kernel
  have asRoot : skippingTranslator.entailment "[bab]".toList "[<x>]".toList =
      .ok [⟨[("<x>".toList, "bab".toList)]⟩] := by decide +kernel
  have asLetter : skippingTranslator.entailment "bab".toList "a".toList = .ok [⟨[]⟩] := by
    decide +kernel
  let root : Production := ⟨"[<x>]".toList, "(<x>)".toList⟩
  let letter : Production := ⟨"a".toList, "A".toList⟩
  let child : DerivationKey := .ofProduction "bab".toList "<x>".toList letter
  let key : DerivationKey := .ofProduction "[bab]".toList "<r>".toList root
  have below : Derives skipping skippingTranslator.entailment .forward child :=
    .entailed (by decide +kernel) asLetter List.mem_cons_self .done
  have derives : Derives skipping skippingTranslator.entailment .forward
      (key.substituted "<x>".toList child.source child.target) :=
    .entailed (by decide +kernel) asRoot List.mem_cons_self
      (.nonterminal (by decide +kernel) below trivial .done)
  have completed := (mem_lookup_iff_derives acyclic ends succeeded ended _).mpr
    ⟨derives, rfl, rfl⟩
  have member := (CompletedSet.mem_lookup.mp completed).1
  have onWay : skippingTranslator.OnWayUp "[bab]".toList .forward up :=
    ⟨down, ends, succeeded, ended.reached⟩
  have readOff := sources_are_read_off Regex.faithful_engine built legible contained plain onWay _
    member
  exact ⟨Regex.faithful_engine, built, legible, contained, plain, up, onWay, _, member,
    by decide +kernel, rfl, readOff.1⟩

end Translator

end SyncGrammar
