import SyncGrammar.Proofs.Exact
import SyncGrammar.Translator

namespace SyncGrammar

namespace NameTable

variable {α : Type}

theorem mem_names_insertIfNew {table : NameTable α} {name other : Text} {value : α} :
    other ∈ (table.insertIfNew name value).names ↔ name = other ∨ other ∈ table.names := by
  rw [mem_names_iff, mem_names_iff, ← isSome_get?, ← isSome_get?, get?_insertIfNew]
  split
  · rename_i same
    simp [same]
  · rename_i different
    simp [different]

end NameTable

theorem Grammar.mem_names_leafVariables {grammar : Grammar} {wildcard name : Text} :
    name ∈ (grammar.leafVariables wildcard).names ↔ name ∈ grammar.variableNames := by
  have added (names : List Text) (table : VariableTable) :
      name ∈ (names.foldl (fun table name => table.insertIfNew name wildcard) table).names ↔
        name ∈ names ∨ name ∈ table.names := by
    induction names generalizing table with
    | nil => simp
    | cons first rest ih =>
      rw [List.foldl_cons, ih, NameTable.mem_names_insertIfNew, List.mem_cons, eq_comm,
        or_left_comm, or_assoc]
  rw [leafVariables, added, mem_variableNames]

theorem Grammar.isEmpty_leafVariables {grammar : Grammar} {wildcard name : Text}
    (listed : name ∈ grammar.nonterminals) : (grammar.leafVariables wildcard).isEmpty = false := by
  have declared : name ∈ (grammar.leafVariables wildcard).names := by
    rw [mem_names_leafVariables]
    exact mem_variableNames.mpr (Or.inl listed)
  obtain ⟨entry, member, -⟩ := List.mem_map.mp declared
  simpa [NameTable.isEmpty] using List.ne_nil_of_mem member

theorem Grammar.get?_leafVariables {grammar : Grammar} {wildcard name : Text}
    (terminal : name ∉ grammar.nonterminals) :
    (grammar.leafVariables wildcard).get? name = grammar.variables.get? name := by
  have added (names : List Text) (table : VariableTable) (other : name ∉ names) :
      (names.foldl (fun table name => table.insertIfNew name wildcard) table).get? name =
        table.get? name := by
    induction names generalizing table with
    | nil => rfl
    | cons first rest ih =>
      rw [List.mem_cons, not_or] at other
      rw [List.foldl_cons, ih _ other.2, NameTable.get?_insertIfNew, if_neg (Ne.symm other.1)]
  exact added _ _ terminal

namespace Token

variable {names others : List Text} {text : Text}

theorem longestName_congr (same : ∀ name, name <+: text → (name ∈ names ↔ name ∈ others)) :
    longestName names text = longestName others text := by
  cases found : longestName names text with
  | none =>
    symm
    rw [longestName_eq_none_iff] at found ⊢
    intro name declared nonempty starts
    exact found name ((same name starts).mpr declared) nonempty starts
  | some name =>
    obtain ⟨declared, nonempty, starts, longest⟩ := longestName_eq_some found
    have alsoDeclared := (same name starts).mp declared
    cases also : longestName others text with
    | none => exact absurd starts (longestName_eq_none_iff.mp also name alsoDeclared nonempty)
    | some other =>
      obtain ⟨otherDeclared, -, otherStarts, otherLongest⟩ := longestName_eq_some also
      have longer := longest other ((same other otherStarts).mpr otherDeclared) otherStarts
      have shorter := otherLongest name alsoDeclared starts
      have level : name.length = other.length := Nat.le_antisymm shorter longer
      exact congrArg some ((List.prefix_of_prefix_length_le starts otherStarts shorter).eq_of_length
        level)

theorem segments_congr (same : ∀ name, name <:+: text → (name ∈ names ↔ name ∈ others)) :
    segments names text = segments others text := by
  fun_induction segments names text with
  | case1 => rw [segments]
  | case2 c rest unnamed ih =>
    have agree := longestName_congr fun name starts => same name starts.isInfix
    rw [segments, ← agree, unnamed]
    refine congrArg _ (ih fun name inside => same name ?_)
    exact inside.trans (List.suffix_cons c rest).isInfix
  | case3 c rest name found after ih =>
    have agree := longestName_congr fun name starts => same name starts.isInfix
    rw [segments, ← agree, found]
    refine congrArg _ (ih fun name inside => same name ?_)
    have later : after.dropWhile Char.isDigit <:+: rest :=
      ((List.dropWhile_suffix _).trans (List.drop_suffix _ _)).isInfix
    exact inside.trans (later.trans (List.suffix_cons c rest).isInfix)

theorem tokens_congr (same : ∀ name, name <:+: text → (name ∈ names ↔ name ∈ others)) :
    tokens names text = tokens others text :=
  congrArg _ (segments_congr same)

theorem infix_of_mem_segments {segment : Segment} (member : segment ∈ segments names text) :
    segment.text <:+: text := by
  obtain ⟨before, after, split⟩ := List.append_of_mem member
  refine ⟨before.flatMap Segment.text, after.flatMap Segment.text, ?_⟩
  have whole := flatMap_text_segments names text
  rwa [split, List.flatMap_append, List.flatMap_cons, ← List.append_assoc] at whole

theorem infix_of_mem_tokens {token : Text} (occurs : token ∈ tokens names text) :
    token <:+: text := by
  obtain ⟨name, index, member, rfl⟩ := mem_tokens_iff.mp occurs
  exact infix_of_mem_segments member

end Token

namespace Assignment

theorem bindings_ofList {pairs : List (Text × Text)} (distinct : (pairs.map (·.1)).Nodup) :
    (ofList pairs).bindings = pairs := by
  have appended (token value : Text) (bindings : List (Text × Text))
      (fresh : token ∉ bindings.map (·.1)) :
      bindIn token value bindings = bindings ++ [(token, value)] := by
    induction bindings with
    | nil => rfl
    | cons binding rest ih =>
      rw [List.map_cons, List.mem_cons, not_or] at fresh
      rw [bindIn, if_neg (Ne.symm fresh.1), ih fresh.2]
      rfl
  have added (start : Assignment) (apart : ((start.bindings ++ pairs).map (·.1)).Nodup) :
      (pairs.foldl (fun assignment pair => assignment.bind pair.1 pair.2) start).bindings =
        start.bindings ++ pairs := by
    induction pairs generalizing start with
    | nil => simp
    | cons pair rest ih =>
      have fresh : pair.1 ∉ start.bindings.map (·.1) := by
        intro member
        rw [List.map_append] at apart
        exact (List.nodup_append.mp apart).2.2 _ member _ List.mem_cons_self rfl
      have bound : (start.bind pair.1 pair.2).bindings = start.bindings ++ [pair] :=
        appended pair.1 pair.2 start.bindings fresh
      rw [List.map_cons, List.nodup_cons] at distinct
      rw [List.foldl_cons, ih distinct.2 _ (by simpa [bound] using apart), bound, List.append_assoc]
      rfl
  exact added empty distinct

end Assignment

namespace Pattern

variable {Compiled : Type} {engine : RegexEngine Compiled} {table others : VariableTable}
  {pattern : Pattern Compiled} {text hypothesis : Text}

theorem of_compile_eq_ok (compiled : compile engine table hypothesis = .ok pattern) :
    table.isEmpty = false ∧ pattern.text = hypothesis ∧
      engine.compile (splice engine.escape table hypothesis) = .ok pattern.regex ∧
      pattern.groups = (Token.tokens table.names hypothesis).eraseDups.zipIdx.map
        fun (token, position) => (token, groupName position) := by
  unfold compile at compiled
  split at compiled
  · cases compiled
  · split at compiled
    · cases compiled
    · rename_i given
      split at compiled
      · cases compiled
      · rename_i regex made
        cases compiled
        exact ⟨by simpa using given, rfl, made, rfl⟩

theorem tokens_of_compile (compiled : compile engine table hypothesis = .ok pattern) :
    pattern.tokens = (Token.tokens table.names hypothesis).eraseDups := by
  rw [tokens, (of_compile_eq_ok compiled).2.2.2]
  simp [List.map_map, Function.comp_def]

theorem nodup_tokens_of_compile (compiled : compile engine table hypothesis = .ok pattern) :
    pattern.tokens.Nodup :=
  tokens_of_compile compiled ▸ nodup_eraseDups _

theorem piecesFrom_congr {cut : List Token.Segment}
    (same : ∀ name index, .token name index ∈ cut → table.get? name = others.get? name)
    (seen : List Text) : piecesFrom table seen cut = piecesFrom others seen cut := by
  induction cut generalizing seen with
  | nil => rfl
  | cons segment rest ih =>
    have later := ih fun name index member => same name index (List.mem_cons_of_mem _ member)
    cases segment with
    | literal c => rw [piecesFrom, piecesFrom, later]
    | token name index =>
      have here := same name index List.mem_cons_self
      simp only [piecesFrom, later, here]

theorem compile_congr (empty : table.isEmpty = others.isEmpty)
    (same : ∀ name, name <:+: text → table.get? name = others.get? name) :
    compile engine table text = compile engine others text := by
  have declared (name : Text) (inside : name <:+: text) :
      name ∈ table.names ↔ name ∈ others.names := by
    rw [NameTable.mem_names_iff, NameTable.mem_names_iff, ← NameTable.isSome_get?,
      ← NameTable.isSome_get?, same name inside]
  have cut := Token.segments_congr declared
  have cutUp : pieces table text = pieces others text := by
    rw [pieces, pieces, ← cut]
    apply piecesFrom_congr
    intro name index member
    have inside := Token.infix_of_mem_segments member
    exact same name ((List.prefix_append name index).isInfix.trans inside)
  simp only [compile, empty, splice, cutUp, Token.tokens, cut]

theorem isOk_compile (filled : text ≠ []) (given : table.isEmpty = false) :
    (compile engine table text).isOk = (engine.compile (splice engine.escape table text)).isOk := by
  have inked : text.isEmpty = false := by simpa using filled
  simp only [compile, inked, given, Bool.false_eq_true, if_false]
  cases engine.compile (splice engine.escape table text) <;> rfl

theorem infix_slice (extent : Extent) (text : Text) : extent.slice text <:+: text :=
  (List.take_prefix _ _).isInfix.trans (List.drop_suffix _ _).isInfix

theorem infix_valueOf (captures : Captures) (text name : Text) :
    captures.valueOf text name <:+: text := by
  unfold Captures.valueOf
  split
  · exact infix_slice _ _
  · exact List.nil_infix

theorem bindings_bindings (distinct : pattern.tokens.Nodup) (text : Text) (found : Captures) :
    (pattern.bindings text found).bindings =
      pattern.groups.map fun (token, group) => (token, found.valueOf text group) := by
  rw [bindings, Assignment.bindings_ofList]
  simpa [tokens, List.map_map, Function.comp_def] using distinct

theorem eq_of_all_eq_ok {answers : List Assignment} (all : pattern.all engine text = .ok answers) :
    answers = (engine.matchesIn pattern.regex text).found.map (pattern.bindings text) := by
  unfold Pattern.all at all
  dsimp only at all
  split at all
  · cases all
  · exact (Except.ok.inj all).symm

theorem all_eq_ok (succeeds : (engine.matchesIn pattern.regex text).failure = none) :
    pattern.all engine text =
      .ok ((engine.matchesIn pattern.regex text).found.map (pattern.bindings text)) := by
  rw [all, succeeds]

end Pattern

theorem RegexEntailment.exists_reason_of_matchAll {Compiled : Type} {engine : RegexEngine Compiled}
    {pattern : Pattern Compiled} {text : Text} {failure : TranslateError}
    (refused : matchAll engine pattern text = .error failure) :
    ∃ reason, failure = .entailment reason := by
  unfold matchAll at refused
  cases found : pattern.all engine text with
  | error error =>
    rw [found] at refused
    exact ⟨_, (Except.error.inj refused).symm⟩
  | ok answers =>
    rw [found] at refused
    cases refused

namespace Entailment

variable {Compiled : Type}

/-- Each hypothesis is compiled when it is asked about. -/
def matching (engine : RegexEngine Compiled) (table : VariableTable) : Entailment :=
  fun text hypothesis =>
    match Pattern.compile engine table hypothesis with
    | .error error => .error (.configuration error)
    | .ok pattern => RegexEntailment.matchAll engine pattern text

variable {engine : RegexEngine Compiled} {table : VariableTable} {text hypothesis : Text}
  {answers : List Assignment} {assignment : Assignment}

theorem exists_pattern_of_matching (answer : matching engine table text hypothesis = .ok answers) :
    ∃ pattern, Pattern.compile engine table hypothesis = .ok pattern ∧
      pattern.all engine text = .ok answers := by
  unfold matching at answer
  split at answer
  · cases answer
  · rename_i pattern compiled
    refine ⟨pattern, compiled, ?_⟩
    unfold RegexEntailment.matchAll at answer
    cases found : pattern.all engine text with
    | error error =>
      rw [found] at answer
      cases answer
    | ok solutions =>
      rw [found] at answer
      cases answer
      rfl

theorem failure_of_matching {failure : TranslateError}
    (refused : matching engine table text hypothesis = .error failure) :
    (∃ error, failure = .configuration error) ∨ ∃ reason, failure = .entailment reason := by
  unfold matching at refused
  split at refused
  · rename_i error _
    cases refused
    exact Or.inl ⟨error, rfl⟩
  · exact Or.inr (RegexEntailment.exists_reason_of_matchAll refused)

theorem matching_eq_ok {pattern : Pattern Compiled}
    (compiled : Pattern.compile engine table hypothesis = .ok pattern)
    (found : pattern.all engine text = .ok answers) :
    matching engine table text hypothesis = .ok answers := by
  rw [matching, compiled]
  simp only [RegexEntailment.matchAll, found]
  rfl

theorem tokens_of_matching (answer : matching engine table text hypothesis = .ok answers)
    (entails : assignment ∈ answers) :
    assignment.tokens = (Token.tokens table.names hypothesis).eraseDups ∧
      ∀ binding ∈ assignment.bindings, binding.2 <:+: text := by
  obtain ⟨pattern, compiled, all⟩ := exists_pattern_of_matching answer
  have distinct := Pattern.nodup_tokens_of_compile compiled
  rw [Pattern.eq_of_all_eq_ok all] at entails
  obtain ⟨found, -, rfl⟩ := List.mem_map.mp entails
  have bindings := Pattern.bindings_bindings distinct text found
  refine ⟨?_, fun binding member => ?_⟩
  · rw [Assignment.tokens, bindings, ← Pattern.tokens_of_compile compiled]
    simp [Pattern.tokens, Function.comp_def]
  · rw [bindings] at member
    obtain ⟨group, -, rfl⟩ := List.mem_map.mp member
    exact Pattern.infix_valueOf _ _ _

end Entailment

namespace RegexEntailment

variable {Compiled : Type} {engine : RegexEngine Compiled} {table : VariableTable}

/-- Every known pattern is the one that would be compiled. -/
def Faithful (engine : RegexEngine Compiled) (table : VariableTable)
    (compiled : List (Text × Pattern Compiled)) : Prop :=
  ∀ hypothesis pattern, compiled.lookup hypothesis = some pattern →
    Pattern.compile engine table hypothesis = .ok pattern

theorem Faithful.concat {known : List (Text × Pattern Compiled)}
    (faithful : Faithful engine table known) {hypothesis : Text} {pattern : Pattern Compiled}
    (compiles : Pattern.compile engine table hypothesis = .ok pattern) :
    Faithful engine table (known ++ [(hypothesis, pattern)]) := by
  intro other kept found
  rw [List.lookup_append, Option.or_eq_some_iff] at found
  rcases found with old | ⟨-, new⟩
  · exact faithful other kept old
  · rw [List.lookup_cons] at new
    split at new
    · rename_i same
      cases new
      exact eq_of_beq same ▸ compiles
    · cases new

/-- The patterns of a list have been compiled, each as it would be on its own. -/
structure Prepared (engine : RegexEngine Compiled) (table : VariableTable) (patterns : List Text)
    (compiled : List (Text × Pattern Compiled)) : Prop where
  faithful : Faithful engine table compiled
  listed : ∀ hypothesis ∈ patterns, (compiled.lookup hypothesis).isSome

variable {patterns : List Text} {compiled : List (Text × Pattern Compiled)}

theorem prepared_nil : Prepared engine table [] [] where
  faithful _ _ none := by cases none
  listed _ member := by cases member

theorem Prepared.exists_pattern (prepared : Prepared engine table patterns compiled)
    {hypothesis : Text} (member : hypothesis ∈ patterns) :
    ∃ pattern, Pattern.compile engine table hypothesis = .ok pattern := by
  obtain ⟨pattern, found⟩ := Option.isSome_iff_exists.mp (prepared.listed hypothesis member)
  exact ⟨pattern, prepared.faithful hypothesis pattern found⟩

theorem Prepared.append_compiled (prepared : Prepared engine table patterns compiled)
    {hypothesis : Text} {pattern : Pattern Compiled}
    (made : Pattern.compile engine table hypothesis = .ok pattern) :
    Prepared engine table (patterns ++ [hypothesis]) (compiled ++ [(hypothesis, pattern)]) := by
  refine ⟨prepared.faithful.concat made, fun other member => ?_⟩
  rcases List.mem_append.mp member with earlier | last
  · simp [List.lookup_append, prepared.listed other earlier]
  · cases List.mem_singleton.mp last
    simp [List.lookup_append]

theorem Prepared.precompile_cases (prepared : Prepared engine table patterns compiled)
    (hypothesis : Text) :
    (∃ after, precompile engine table compiled hypothesis = .ok after ∧
      Prepared engine table (patterns ++ [hypothesis]) after) ∨
    ∃ error, Pattern.compile engine table hypothesis = .error error ∧
      precompile engine table compiled hypothesis = .error error := by
  unfold precompile
  split
  · rename_i pattern found
    refine Or.inl ⟨compiled, rfl, prepared.faithful, fun other member => ?_⟩
    rcases List.mem_append.mp member with earlier | last
    · exact prepared.listed other earlier
    · cases List.mem_singleton.mp last
      rw [found]
      rfl
  · cases made : Pattern.compile engine table hypothesis with
    | error error => exact Or.inr ⟨error, rfl, rfl⟩
    | ok pattern => exact Or.inl ⟨_, rfl, prepared.append_compiled made⟩

theorem Prepared.foldlM_cases (prepared : Prepared engine table patterns compiled)
    (more : List Text) :
    (∃ after, more.foldlM (precompile engine table) compiled = .ok after ∧
      Prepared engine table (patterns ++ more) after) ∨
    ∃ hypothesis ∈ more, ∃ error, Pattern.compile engine table hypothesis = .error error ∧
      more.foldlM (precompile engine table) compiled = .error error := by
  induction more generalizing patterns compiled with
  | nil => exact Or.inl ⟨compiled, rfl, by rwa [List.append_nil]⟩
  | cons first rest ih =>
    rw [List.foldlM_cons]
    rcases prepared.precompile_cases first with ⟨next, one, onward⟩ | ⟨error, refused, one⟩
    · rw [one]
      rcases ih onward with ⟨after, done, all⟩ | ⟨hypothesis, member, refusal⟩
      · exact Or.inl ⟨after, done, by rwa [List.append_assoc] at all⟩
      · exact Or.inr ⟨hypothesis, List.mem_cons_of_mem _ member, refusal⟩
    · rw [one]
      exact Or.inr ⟨first, List.mem_cons_self, error, refused, rfl⟩

theorem ofPatterns_cases (patterns : List Text) (table : VariableTable) :
    (∃ compiled, ofPatterns engine patterns table = .ok ⟨table, compiled, []⟩ ∧
      Prepared engine table patterns compiled) ∨
    ∃ hypothesis ∈ patterns, ∃ error, Pattern.compile engine table hypothesis = .error error ∧
      ofPatterns engine patterns table = .error error := by
  unfold ofPatterns
  rcases prepared_nil.foldlM_cases patterns with
    ⟨after, done, all⟩ | ⟨hypothesis, member, error, refused, stopped⟩
  · rw [done]
    exact Or.inl ⟨after, rfl, all⟩
  · rw [stopped]
    exact Or.inr ⟨hypothesis, member, error, refused, rfl⟩

variable {entailment : RegexEntailment Compiled}

/-- Every pattern that is kept is the one that would be compiled from its hypothesis now. -/
structure Genuine (engine : RegexEngine Compiled) (table : VariableTable)
    (entailment : RegexEntailment Compiled) : Prop where
  table_eq : entailment.variables = table
  compiled : Faithful engine table entailment.compiled
  onDemand : Faithful engine table entailment.onDemand

theorem Genuine.pattern_eq (genuine : Genuine engine table entailment) (hypothesis : Text) :
    entailment.pattern engine hypothesis = Pattern.compile engine table hypothesis := by
  unfold pattern
  cases found : entailment.find? hypothesis with
  | none => exact congrArg (Pattern.compile engine · hypothesis) genuine.table_eq
  | some known =>
    rcases Option.or_eq_some_iff.mp found with early | ⟨-, late⟩
    · exact (genuine.compiled hypothesis known early).symm
    · exact (genuine.onDemand hypothesis known late).symm

theorem Genuine.entail_eq (genuine : Genuine engine table entailment) :
    entailment.entail engine = .matching engine table := by
  funext text hypothesis
  rw [entail, genuine.pattern_eq]
  rfl

theorem genuine_of_ofPatterns (made : ofPatterns engine patterns table = .ok entailment) :
    Genuine engine table entailment := by
  rcases ofPatterns_cases patterns table with
    ⟨compiled, known, prepared⟩ | ⟨-, -, error, -, refused⟩
  · cases known.symm.trans made
    exact ⟨rfl, prepared.faithful, fun _ _ none => by cases none⟩
  · cases refused.symm.trans made

theorem entail_of_forGrammar {grammar : Grammar} {wildcard : Text}
    {entailment : RegexEntailment Compiled}
    (built : forGrammar engine grammar wildcard = .ok entailment) :
    entailment.entail engine = .matching engine (grammar.leafVariables wildcard) := by
  rw [forGrammar_eq] at built
  exact (genuine_of_ofPatterns built).entail_eq

theorem isOk_forGrammar_iff {grammar : Grammar} {wildcard : Text} :
    (forGrammar engine grammar wildcard).isOk = true ↔ ∀ hypothesis ∈ hypotheses grammar,
      (Pattern.compile engine (grammar.leafVariables wildcard) hypothesis).isOk = true := by
  rw [forGrammar_eq]
  rcases ofPatterns_cases (hypotheses grammar) (grammar.leafVariables wildcard) with
    ⟨compiled, made, prepared⟩ | ⟨hypothesis, member, error, refused, stopped⟩
  · refine iff_of_true (made ▸ rfl) fun hypothesis member => ?_
    obtain ⟨pattern, compiles⟩ := prepared.exists_pattern member
    rw [compiles]
    rfl
  · refine iff_of_false (by simp [stopped, Except.isOk, Except.toBool]) fun compiles => ?_
    have compiled := compiles hypothesis member
    rw [refused] at compiled
    cases compiled

end RegexEntailment

namespace Translator

variable {Compiled : Type} {engine : RegexEngine Compiled} {grammar : Grammar}
  {config : TranslatorConfig}

theorem of_ofConfig {translator : Translator}
    (built : ofConfig engine grammar config = .ok translator) :
    translator.grammar = grammar ∧ translator.config = config ∧
      translator.entailment = .matching engine (grammar.leafVariables config.wildcard) := by
  unfold ofConfig at built
  cases made : RegexEntailment.forGrammar engine grammar config.wildcard with
  | error error =>
    rw [made] at built
    cases built
  | ok entailment =>
    rw [made] at built
    cases (ofEntailment_eq_ok grammar config (entailment.entail engine)).symm.trans built
    exact ⟨rfl, rfl, RegexEntailment.entail_of_forGrammar made⟩

theorem ofConfig_eq_ok
    (compiles : (RegexEntailment.forGrammar engine grammar config.wildcard).isOk = true) :
    ofConfig engine grammar config =
      .ok ⟨grammar, config, .matching engine (grammar.leafVariables config.wildcard)⟩ := by
  unfold ofConfig
  cases made : RegexEntailment.forGrammar engine grammar config.wildcard with
  | error error =>
    rw [made] at compiles
    cases compiles
  | ok entailment =>
    rw [← RegexEntailment.entail_of_forGrammar made]
    exact ofEntailment_eq_ok grammar config (entailment.entail engine)

theorem isOk_ofConfig_iff :
    (ofConfig engine grammar config).isOk = true ↔
      ∀ hypothesis ∈ RegexEntailment.hypotheses grammar,
        (Pattern.compile engine (grammar.leafVariables config.wildcard)
          hypothesis).isOk = true := by
  simp only [← RegexEntailment.isOk_forGrammar_iff, ofConfig, ofEntailment_eq_ok]
  cases RegexEntailment.forGrammar engine grammar config.wildcard <;> rfl

end Translator

end SyncGrammar
