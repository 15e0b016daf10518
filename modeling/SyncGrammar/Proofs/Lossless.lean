import SyncGrammar.Proofs.Agreement
import SyncGrammar.Proofs.Building
import SyncGrammar.Proofs.GreedyEngine
import SyncGrammar.Proofs.GreedyRuns
import SyncGrammar.Proofs.Precompiled
import SyncGrammar.Proofs.Reindexing

/-!
Nothing is lost between the two directions where rules only move runs of characters about. Such a
grammar has the rules of the root and terminal variables, each of which stands for one character or
more of a class. What a rule reads is then split in the one way in which it has been put together,
whatever other rules there are.
-/
namespace SyncGrammar

/-- The rules are those of the root, over terminal variables that stand for runs of characters of
their classes, and no side holds a token twice. -/
structure Grammar.OverRuns (grammar : Grammar) (isClass : Text → (Char → Bool) → Prop)
    (sets : Text → Char → Bool) : Prop where
  balanced : grammar.Balanced
  rooted : ∀ entry ∈ grammar.rules.entries, entry.1 = grammar.root
  terminal : ∀ entry ∈ grammar.rules.entries, ∀ production ∈ entry.2.productions,
    ∀ token ∈ production.tokens grammar.variableNames, grammar.nonterminalName? token = none
  unrepeated : ∀ entry ∈ grammar.rules.entries, ∀ production ∈ entry.2.productions,
    (Token.tokens grammar.variableNames production.source).Nodup ∧
      (Token.tokens grammar.variableNames production.target).Nodup
  runs : ∀ entry ∈ grammar.variables.entries,
    (∃ written, entry.2 = written ++ ['+'] ∧ isClass written (sets entry.2)) ∧
      sets entry.2 '<' = false ∧ sets entry.2 '>' = false

/-- The values can be told from the literal parts of both sides. -/
structure Production.Telling (names : List Text) (classes : Text → Char → Bool)
    (value : Text → Text) (production : Production) : Prop where
  source : Pattern.Telling classes value (Token.segments names production.source)
  target : Pattern.Telling classes value (Token.segments names production.target)

variable {Compiled : Type} {engine : RegexEngine Compiled}
  {isClass : Text → (Char → Bool) → Prop} {sets : Text → Char → Bool} {grammar : Grammar}
  {direction : Direction} {wildcard token : Text} {production : Production}

namespace Grammar

theorem turned_mem_orientedRules {entry : Text × RuleTable}
    (listed : entry ∈ grammar.rules.entries) (rule : production ∈ entry.2.productions)
    (direction : Direction) :
    production.turned direction ∈ grammar.orientedRules direction entry.1 := by
  have stored := NameTable.get?_of_mem _ listed
  have declared : grammar.rules.contains entry.1 = true := by
    rw [← NameTable.isSome_get?, stored]
    rfl
  have table : grammar.table? entry.1 = some entry.2 := by
    rw [table?, nonterminalName?, if_pos declared]
    exact stored
  refine mem_orientedRules.mpr ⟨entry.2, table, ?_⟩
  cases direction with
  | forward => exact rule
  | backward => exact rule

theorem WellFormed.nonempty (wellFormed : grammar.WellFormed)
    (rule : production ∈ grammar.orientedRules direction token) : production.source ≠ [] := by
  obtain ⟨table, found, member⟩ := mem_orientedRules.mp rule
  obtain ⟨name, -, stored⟩ := table?_eq_some_iff.mp found
  have entry := (NameTable.get?_eq_some_iff _ _ _).mp stored
  have sides := wellFormed.sides_ne_nil entry member
  cases direction with
  | forward => exact sides.1
  | backward => exact sides.2

end Grammar

namespace Grammar.OverRuns

variable (overRuns : grammar.OverRuns isClass sets)

include overRuns

theorem of_rule (rule : production ∈ grammar.orientedRules direction token) :
    (∀ other ∈ Token.tokens grammar.variableNames production.source,
      grammar.nonterminalName? other = none) ∧
        (Token.tokens grammar.variableNames production.source).Nodup := by
  obtain ⟨table, found, member⟩ := Grammar.mem_orientedRules.mp rule
  obtain ⟨name, -, stored⟩ := Grammar.table?_eq_some_iff.mp found
  have entry := (NameTable.get?_eq_some_iff _ _ _).mp stored
  have terminal := overRuns.terminal _ entry _ member
  have unrepeated := overRuns.unrepeated _ entry _ member
  cases direction with
  | forward =>
    exact ⟨fun other occurs => terminal other (List.mem_append_left _ occurs), unrepeated.1⟩
  | backward =>
    exact ⟨fun other occurs => terminal other (List.mem_append_right _ occurs), unrepeated.2⟩

theorem unitCycles_eq_nil : grammar.unitCycles = [] := by
  apply Grammar.unitCycles_eq_nil_of_terminals
  · intro entry listed production rule token occurs
    exact overRuns.terminal entry listed production rule token (List.mem_append_left _ occurs)
  · intro entry listed production rule token occurs
    exact overRuns.terminal entry listed production rule token (List.mem_append_right _ occurs)

theorem exists_variable {name index side : Text}
    (inside : .token name index ∈ Token.segments grammar.variableNames side)
    (terminal : grammar.nonterminalName? (name ++ index) = none) :
    name ∉ grammar.nonterminals ∧ ∃ expression, (name, expression) ∈ grammar.variables.entries := by
  obtain ⟨declared, digits⟩ := Token.declared_of_mem_segments inside
  have other : name ∉ grammar.nonterminals := by
    intro member
    have listed : grammar.rules.contains name = true := (NameTable.mem_names_iff _ _).mp member
    rw [Grammar.nonterminalName?_token overRuns.balanced declared digits, if_pos listed] at terminal
    cases terminal
  have asVariable := (Grammar.mem_variableNames.mp declared).resolve_left other
  obtain ⟨⟨_, expression⟩, listed, rfl⟩ := List.mem_map.mp asVariable
  exact ⟨other, expression, listed⟩

theorem plain_value {value : Text → Text} {side : Text}
    (terminal : ∀ token ∈ Token.tokens grammar.variableNames side,
      grammar.nonterminalName? token = none)
    (telling : Pattern.Telling (Pattern.charsOf sets grammar.variables) value
      (Token.segments grammar.variableNames side))
    (occurs : token ∈ Token.tokens grammar.variableNames side) : (value token).Plain := by
  obtain ⟨name, index, inside, rfl⟩ := Token.mem_tokens_iff.mp occurs
  obtain ⟨-, expression, listed⟩ := overRuns.exists_variable inside (terminal _ occurs)
  obtain ⟨-, opening, closing⟩ := overRuns.runs _ listed
  have all := (telling.runs name index inside).2
  rw [Pattern.charsOf, NameTable.get?_of_mem _ listed, Option.getD_some] at all
  constructor
  · intro member
    rw [all _ member] at opening
    cases opening
  · intro member
    rw [all _ member] at closing
    cases closing

theorem get?_leafVariables {name index side : Text}
    (inside : .token name index ∈ Token.segments grammar.variableNames side)
    (terminal : ∀ token ∈ Token.tokens grammar.variableNames side,
      grammar.nonterminalName? token = none) :
    (grammar.leafVariables wildcard).get? name = grammar.variables.get? name := by
  have occurs := Token.mem_tokens_iff.mpr ⟨name, index, inside, rfl⟩
  exact Grammar.get?_leafVariables (overRuns.exists_variable inside (terminal _ occurs)).1

theorem ofRuns (rule : production ∈ grammar.orientedRules direction token)
    (compiles : (Pattern.compile engine (grammar.leafVariables wildcard)
      production.source).isOk = true) :
    Pattern.OfRuns engine isClass sets (grammar.leafVariables wildcard) production.source := by
  obtain ⟨terminal, unrepeated⟩ := overRuns.of_rule rule
  have names := grammar.names_leafVariables wildcard
  refine ⟨compiles, ?_, names ▸ unrepeated⟩
  rw [names]
  intro name index inside
  have occurs := Token.mem_tokens_iff.mpr ⟨name, index, inside, rfl⟩
  obtain ⟨-, expression, listed⟩ := overRuns.exists_variable inside (terminal _ occurs)
  rw [Pattern.charsOf, overRuns.get?_leafVariables inside terminal, NameTable.get?_of_mem _ listed]
  exact (overRuns.runs _ listed).1

end Grammar.OverRuns

namespace Translator

def Translates (translator : Translator) (text : Text) (direction : Direction)
    (target : Text) : Prop :=
  ∃ targets, translator.Yields text direction (.ok targets) ∧ target ∈ targets

section OverRuns

variable {translator : Translator} {text : Text} {value : Text → Text}
  (overRuns : translator.grammar.OverRuns isClass sets)
  (matching : translator.entailment = .matching engine (translator.grammar.leafVariables wildcard))

include overRuns matching

theorem terminal_of_answer {answers : List Assignment} {assignment : Assignment} {subtext : Text}
    {binding : Text × Text}
    (rule : production ∈ translator.grammar.orientedRules direction token)
    (answer : translator.entailment subtext production.source = .ok answers)
    (entails : assignment ∈ answers) (bound : binding ∈ assignment.bindings) :
    translator.grammar.nonterminalName? binding.1 = none ∧ binding.2 <:+: subtext := by
  rw [matching] at answer
  obtain ⟨tokens, parts⟩ := Entailment.tokens_of_matching answer entails
  rw [Grammar.names_leafVariables] at tokens
  have member : binding.1 ∈ assignment.tokens := List.mem_map_of_mem bound
  rw [tokens, List.mem_eraseDups] at member
  exact ⟨(overRuns.of_rule rule).1 _ member, parts binding bound⟩

theorem exists_rule_of_demanded {key : DerivationKey}
    (demanded : Downward.Demanded translator.grammar translator.entailment direction text key) :
    ∃ production ∈ translator.grammar.orientedRules direction translator.grammar.root,
      key = .ofProduction text translator.grammar.root production := by
  induction demanded with
  | @root production rule => exact ⟨production, rule, rfl⟩
  | child _ answer entails bound rule ih =>
    obtain ⟨above, own, rfl⟩ := ih
    have unnamed := (terminal_of_answer overRuns matching own answer entails bound).1
    rw [Grammar.orientedRules_eq_nil unnamed] at rule
    cases rule

variable (greedy : engine.LeftmostFirst isClass)
  (compiles : ∀ hypothesis ∈ RegexEntailment.hypotheses translator.grammar,
    (Pattern.compile engine (translator.grammar.leafVariables wildcard) hypothesis).isOk = true)

include greedy compiles

theorem answered_of_overRuns (text : Text) (direction : Direction) :
    translator.Answered text direction := by
  intro key demanded
  obtain ⟨production, rule, rfl⟩ := exists_rule_of_demanded overRuns matching demanded
  rw [matching]
  have ofRuns := overRuns.ofRuns rule (compiles _ (Grammar.source_mem_hypotheses rule))
  exact ofRuns.exists_answers greedy text

theorem exists_targets_of_overRuns (plain : text.Plain)
    (allowed : translator.config.directions.allows direction = true) :
    ∃ targets, translator.Yields text direction (.ok targets) ∧
      ∀ target, target ∈ targets ↔ translator.DerivesTarget text direction target := by
  have answered := answered_of_overRuns overRuns matching greedy compiles text direction
  have within (key : DerivationKey)
      (demanded : Downward.Demanded translator.grammar translator.entailment direction text key) :
      Downward.WithinText translator.grammar direction text key := by
    obtain ⟨production, rule, rfl⟩ := exists_rule_of_demanded overRuns matching demanded
    exact ⟨List.infix_refl text, List.mem_cons_self, rule⟩
  obtain ⟨down, ends⟩ := Downward.exists_endsIn_of_within within
    (.opened "downward" :: openingEvents direction text [])
  have bounded (item : Derivation) (member : item ∈ down.stack.items) :
      Upward.Bounded translator.grammar text.byteLength item := by
    obtain ⟨demanded, answers, answer, entails⟩ :=
      Downward.demanded_of_mem_stack ends.reached member
    obtain ⟨key, assignment⟩ := item
    obtain ⟨production, rule, rfl⟩ := exists_rule_of_demanded overRuns matching demanded
    have binding (binding : Text × Text) (bound : binding ∈ assignment.bindings) :=
      terminal_of_answer overRuns matching rule answer entails bound
    exact Upward.bounded_of_terminals (Nat.le_refl _) (fun _ bound => (binding _ bound).1)
      fun _ bound => (binding _ bound).2
  obtain ⟨up, ended⟩ := Upward.exists_endsIn bounded _
  have binds : translator.entailment.BindsTokens translator.grammar.variableNames :=
    matching ▸ Entailment.bindsTokens_matching
  obtain ⟨targets, yields, -, derived⟩ := exists_targets_of_balanced overRuns.balanced binds plain
    overRuns.unitCycles_eq_nil allowed ends (answered.succeeded ends) ended
  exact ⟨targets, yields, derived⟩

theorem derivesTarget_of_telling
    (rule : production ∈ translator.grammar.orientedRules direction translator.grammar.root)
    (telling : Pattern.Telling (Pattern.charsOf sets translator.grammar.variables) value
      (Token.segments translator.grammar.variableNames production.source)) :
    translator.DerivesTarget
      (Token.fill translator.grammar.variableNames (fun token => some (value token))
        production.source) direction
      (Token.fill translator.grammar.variableNames (fun token => some (value token))
        production.target) := by
  have names := translator.grammar.names_leafVariables wildcard
  have sides := overRuns.balanced.of_rule rule
  have terminal := (overRuns.of_rule rule).1
  have ofRuns := overRuns.ofRuns rule (compiles _ (Grammar.source_mem_hypotheses rule))
  have tellingLeaves : Pattern.Telling
      (Pattern.charsOf sets (translator.grammar.leafVariables wildcard)) value
      (Token.segments translator.grammar.variableNames production.source) := by
    refine telling.congr fun name index inside => ?_
    rw [Pattern.charsOf, Pattern.charsOf, overRuns.get?_leafVariables inside terminal]
  obtain ⟨answers, answer, entails⟩ := ofRuns.exists_answer greedy (names ▸ sides.source.wellCut)
    (names ▸ tellingLeaves)
  rw [names, ← matching] at answer
  rw [names] at entails
  have plain (token : Text) (occurs : token ∈ (Token.tokens translator.grammar.variableNames
      production.source).eraseDups) : (value token).Plain ∧ (value token).Plain := by
    have plain := overRuns.plain_value terminal telling (List.mem_eraseDups.mp occurs)
    exact ⟨plain, plain⟩
  have stands (token : Text) (occurs : token ∈ (Token.tokens translator.grammar.variableNames
      production.source).eraseDups) : Stands translator.grammar
        (Derives translator.grammar translator.entailment direction) token (value token)
          (value token) (value token) := by
    refine ⟨fun isNonterminal => ?_, fun _ => ⟨rfl, rfl⟩⟩
    rw [Grammar.hasNonterminal, terminal token (List.mem_eraseDups.mp occurs)] at isNonterminal
    cases isNonterminal
  exact ⟨_, sides.derives overRuns.balanced.bracketed rule answer entails
    (fun _ => List.mem_eraseDups) plain stands⟩

theorem translates_of_telling {assignment : Assignment}
    (rule : production ∈ translator.grammar.orientedRules direction translator.grammar.root)
    (bound : ∀ token, token ∈ assignment.tokens ↔
      token ∈ Token.tokens translator.grammar.variableNames production.source)
    (telling : Pattern.Telling (Pattern.charsOf sets translator.grammar.variables)
      assignment.valueOf (Token.segments translator.grammar.variableNames production.source))
    (allowed : translator.config.directions.allows direction = true) :
    translator.Translates (substituteAll assignment.bindings production.source) direction
      (substituteAll assignment.bindings production.target) := by
  have bracketed := overRuns.balanced.bracketed
  have sides := overRuns.balanced.of_rule rule
  have boundTarget (token : Text) : token ∈ assignment.tokens ↔
      token ∈ Token.tokens translator.grammar.variableNames production.target :=
    (bound token).trans ⟨sides.written token, sides.read token⟩
  rw [Assignment.substituteAll_valueOf bracketed bound,
    Assignment.substituteAll_valueOf bracketed boundTarget]
  have plain := Token.plain_fill sides.source fun token occurs => ⟨_, rfl,
    overRuns.plain_value (overRuns.of_rule rule).1 telling occurs⟩
  obtain ⟨targets, yields, derived⟩ :=
    exists_targets_of_overRuns overRuns matching greedy compiles plain allowed
  have derives := derivesTarget_of_telling overRuns matching greedy compiles rule telling
  exact ⟨targets, yields, (derived _).mpr derives⟩

end OverRuns

/-- Over runs of characters, each rule whose values can be told from its literal parts translates
its filled source to its filled target, and its filled target back to its filled source. The engine
is greedy and accepts the sides of the rules. -/
theorem lossless_over_runs {grammar : Grammar} {config : TranslatorConfig}
    {entry : Text × RuleTable} {assignment : Assignment} (greedy : engine.LeftmostFirst isClass)
    (accepted : ∀ hypothesis ∈ RegexEntailment.hypotheses grammar,
      (engine.compile (Pattern.splice engine.escape (grammar.leafVariables config.wildcard)
        hypothesis)).isOk = true)
    (wellFormed : grammar.WellFormed) (overRuns : grammar.OverRuns isClass sets)
    (listed : entry ∈ grammar.rules.entries) (rule : production ∈ entry.2.productions)
    (bound : ∀ token, token ∈ assignment.tokens ↔
      token ∈ production.tokens grammar.variableNames)
    (telling : production.Telling grammar.variableNames
      (Pattern.charsOf sets grammar.variables) assignment.valueOf) :
    ∃ translator, ofConfig engine grammar config = .ok translator ∧
      (config.directions.allows .forward = true →
        translator.Translates (substituteAll assignment.bindings production.source) .forward
          (substituteAll assignment.bindings production.target)) ∧
      (config.directions.allows .backward = true →
        translator.Translates (substituteAll assignment.bindings production.target) .backward
          (substituteAll assignment.bindings production.source)) := by
  have given : (grammar.leafVariables config.wildcard).isEmpty = false :=
    Grammar.isEmpty_leafVariables ((NameTable.mem_names_iff _ _).mpr wellFormed.rooted)
  have compiles : ∀ hypothesis ∈ RegexEntailment.hypotheses grammar,
      (Pattern.compile engine (grammar.leafVariables config.wildcard) hypothesis).isOk = true := by
    intro hypothesis member
    rw [Pattern.isOk_compile (wellFormed.ne_nil_of_mem_hypotheses member) given]
    exact accepted hypothesis member
  cases built : ofConfig engine grammar config with
  | error error =>
    have builds := isOk_ofConfig_iff.mpr compiles
    rw [built] at builds
    cases builds
  | ok translator =>
    obtain ⟨rfl, rfl, matching⟩ := of_ofConfig built
    have sides := overRuns.balanced.rules entry listed production rule
    have turned (direction : Direction) := Grammar.turned_mem_orientedRules listed rule direction
    rw [overRuns.rooted entry listed] at turned
    have boundSource (token : Text) : token ∈ assignment.tokens ↔
        token ∈ Token.tokens translator.grammar.variableNames production.source := by
      rw [bound, Production.tokens, List.mem_append, or_iff_left_iff_imp]
      exact sides.read token
    have boundTarget (token : Text) : token ∈ assignment.tokens ↔
        token ∈ Token.tokens translator.grammar.variableNames production.target :=
      (boundSource token).trans ⟨sides.written token, sides.read token⟩
    refine ⟨translator, rfl, fun allowed => ?_, fun allowed => ?_⟩
    · exact translates_of_telling overRuns matching greedy compiles (turned .forward) boundSource
        telling.source allowed
    · exact translates_of_telling overRuns matching greedy compiles (turned .backward) boundTarget
        telling.target allowed

def numberAndWord : Production :=
  ⟨"<n> <w>".toList, "<w>, <n>".toList⟩

def changingPlaces : Grammar :=
  ⟨"<r>".toList,
    .ofList [("<r>".toList, .ofList [numberAndWord, ⟨"<w>".toList, "<w>!".toList⟩])],
    .ofList [("<n>".toList, "[0-9]+".toList), ("<w>".toList, "[a-z]+".toList)]⟩

def digitsAndLetters (expression : Text) (c : Char) : Bool :=
  if expression = "[0-9]+".toList then '0' ≤ c && c ≤ '9' else 'a' ≤ c && c ≤ 'z'

def twelveAndAbc : Assignment :=
  ⟨[("<n>".toList, "12".toList), ("<w>".toList, "abc".toList)]⟩

theorem overRuns_changingPlaces : changingPlaces.OverRuns Regex.IsClass digitsAndLetters := by
  have digits : Regex.IsClass "[0-9]".toList (digitsAndLetters "[0-9]+".toList) :=
    Regex.isClass_range rfl rfl (by decide)
  have letters : Regex.IsClass "[a-z]".toList (digitsAndLetters "[a-z]+".toList) :=
    Regex.isClass_range rfl rfl (by decide)
  have entries : changingPlaces.variables.entries =
      [("<n>".toList, "[0-9]+".toList), ("<w>".toList, "[a-z]+".toList)] := by decide +kernel
  refine ⟨by decide +kernel, by decide +kernel, by decide +kernel, by decide +kernel, ?_⟩
  rw [entries, List.forall_mem_cons, List.forall_mem_cons]
  exact ⟨⟨⟨_, rfl, digits⟩, rfl, rfl⟩, ⟨⟨_, rfl, letters⟩, rfl, rfl⟩, fun _ none => by cases none⟩

theorem telling_numberAndWord : numberAndWord.Telling changingPlaces.variableNames
    (Pattern.charsOf digitsAndLetters changingPlaces.variables) twelveAndAbc.valueOf := by
  let chars := Pattern.charsOf digitsAndLetters changingPlaces.variables
  have apart : ∀ name ∈ ["<n>".toList, "<w>".toList],
      chars name ',' = false ∧ chars name ' ' = false := by decide +kernel
  have runs : ∀ name ∈ ["<n>".toList, "<w>".toList], twelveAndAbc.valueOf (name ++ []) ≠ [] ∧
      (twelveAndAbc.valueOf (name ++ [])).all (chars name) = true := by
    decide +kernel
  have tells {cut : List Token.Segment}
      (inside : ∀ segment ∈ cut, segment ∈ [.literal ',', .literal ' ',
        Token.Segment.token "<n>".toList [], .token "<w>".toList []]) :
      Pattern.Telling chars twelveAndAbc.valueOf cut := by
    have named {name index : Text} (isToken : .token name index ∈ cut) :
        name ∈ ["<n>".toList, "<w>".toList] ∧ index = [] := by
      simpa [← or_and_right] using inside _ isToken
    constructor
    · intro c isLiteral name index isToken
      have known : c = ',' ∨ c = ' ' := by simpa using inside _ isLiteral
      obtain ⟨comma, space⟩ := apart name (named isToken).1
      rcases known with rfl | rfl
      · exact comma
      · exact space
    · intro name index isToken
      obtain ⟨known, rfl⟩ := named isToken
      obtain ⟨nonempty, all⟩ := runs name known
      exact ⟨nonempty, List.all_eq_true.mp all⟩
  exact ⟨tells (by decide +kernel), tells (by decide +kernel)⟩

theorem lossless_over_runs_changingPlaces :
    Regex.engine.LeftmostFirst Regex.IsClass ∧ changingPlaces.WellFormed ∧
      changingPlaces.OverRuns Regex.IsClass digitsAndLetters ∧
      ∃ translator, ofConfig Regex.engine changingPlaces .standard = .ok translator ∧
        translator.Translates "12 abc".toList .forward "abc, 12".toList ∧
        translator.Translates "abc, 12".toList .backward "12 abc".toList := by
  have accepted : ∀ hypothesis ∈ RegexEntailment.hypotheses changingPlaces,
      (Regex.engine.compile (Pattern.splice Regex.engine.escape
        (changingPlaces.leafVariables TranslatorConfig.standard.wildcard) hypothesis)).isOk =
          true := by decide +kernel
  have wellFormed : changingPlaces.WellFormed := by
    have nonempty : ∀ entry ∈ changingPlaces.rules.entries, entry.2.productions ≠ [] := by
      decide +kernel
    have distinct : ∀ entry ∈ changingPlaces.rules.entries, entry.2.productions.Nodup := by
      decide +kernel
    exact ⟨by decide +kernel, fun entry listed => ⟨nonempty entry listed, distinct entry listed⟩,
      by decide +kernel⟩
  have bound (token : Text) : token ∈ twelveAndAbc.tokens ↔
      token ∈ numberAndWord.tokens changingPlaces.variableNames := by
    have tokens : numberAndWord.tokens changingPlaces.variableNames =
        ["<n>".toList, "<w>".toList, "<w>".toList, "<n>".toList] := by decide +kernel
    have given : twelveAndAbc.tokens = ["<n>".toList, "<w>".toList] := rfl
    simp only [tokens, given, List.mem_cons, List.not_mem_nil]
    tauto
  let entry := ("<r>".toList, RuleTable.ofList [numberAndWord, ⟨"<w>".toList, "<w>!".toList⟩])
  have listed : entry ∈ changingPlaces.rules.entries := by decide +kernel
  have rule : numberAndWord ∈ entry.2.productions := by decide +kernel
  obtain ⟨translator, built, forward, backward⟩ := lossless_over_runs Regex.leftmostFirst_engine
    accepted wellFormed overRuns_changingPlaces listed rule bound telling_numberAndWord
  have source : substituteAll twelveAndAbc.bindings numberAndWord.source = "12 abc".toList := by
    decide +kernel
  have target : substituteAll twelveAndAbc.bindings numberAndWord.target = "abc, 12".toList := by
    decide +kernel
  rw [source, target] at forward backward
  exact ⟨Regex.leftmostFirst_engine, wellFormed, overRuns_changingPlaces, translator, built,
    forward rfl, backward rfl⟩

end Translator

end SyncGrammar
