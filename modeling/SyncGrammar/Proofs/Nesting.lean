import Mathlib.Data.Finset.Card
import Mathlib.Data.Finset.Filter
import Mathlib.Logic.Relation
import Mathlib.Order.Lattice.Nat
import SyncGrammar.Proofs.Building
import SyncGrammar.Proofs.Combinations

/-!
Nonterminals that are nested to a bounded depth. Where no cycle of references is reached, chains of
references have a longest length. From that depth on the expansion stays the same: one level less is
enough for what a rule refers to, whatever the lengths of the single chains are. With names in
brackets it holds no nonterminal any more, because no name comes into being between the pieces.
-/
namespace SyncGrammar

namespace Token

variable {names chosen : List Text} {text rest : Text}

def Enclosed (names : List Text) (text : Text) : Prop :=
  ∀ segment ∈ segments names text, segment.token? = none → segment.text.Plain

instance (names : List Text) (text : Text) : Decidable (Enclosed names text) :=
  inferInstanceAs (Decidable (∀ _ ∈ _, _))

/-- A text that is put together from allowed names and characters that open none. -/
inductive Composed (allowed : Text → Prop) : Text → Prop
  | nil : Composed allowed []
  | literal {c : Char} {rest : Text} (opens : c ≠ '<') (onward : Composed allowed rest) :
      Composed allowed (c :: rest)
  | name {name rest : Text} (isAllowed : allowed name) (onward : Composed allowed rest) :
      Composed allowed (name ++ rest)

variable {allowed : Text → Prop}

theorem Composed.append (composed : Composed allowed text) (onward : Composed allowed rest) :
    Composed allowed (text ++ rest) := by
  induction composed with
  | nil => exact onward
  | literal opens _ ih => exact .literal opens ih
  | name isAllowed _ ih =>
    rw [List.append_assoc]
    exact .name isAllowed ih

theorem composed_of_unopened (opens : '<' ∉ text) : Composed allowed text := by
  induction text with
  | nil => exact .nil
  | cons c text ih =>
    rw [List.mem_cons, not_or] at opens
    exact .literal (Ne.symm opens.1) (ih opens.2)

theorem eq_or_infix_of_infix_append {name other : Text} (bracketed : name.Bracketed)
    (also : other.Bracketed) (inside : other <:+: name ++ rest) :
    name = other ∨ other <:+: rest := by
  obtain ⟨before, after, split⟩ := inside
  rw [List.append_assoc] at split
  rcases List.append_eq_append_iff.mp split with ⟨part, rfl, onward⟩ | ⟨between, rfl, onward⟩
  · by_cases atEnd : part = []
    · subst atEnd
      exact Or.inr ⟨[], after, onward⟩
    · have both : ∀ own ∈ [before ++ part, other], Text.Bracketed own := by
        simpa using ⟨bracketed, also⟩
      have either := List.prefix_or_prefix_of_prefix (List.prefix_append part rest)
        (onward ▸ List.prefix_append other after)
      have alsoListed : other ∈ [before ++ part, other] := List.mem_cons_of_mem _ List.mem_cons_self
      have same := (apart_of_bracketed both).separate _ List.mem_cons_self other alsoListed part
        (List.suffix_append before part) atEnd either
      exact Or.inl same.2
  · exact Or.inr ⟨between, after, by rw [onward, List.append_assoc]⟩

theorem Composed.allowed_of_occurs {name : Text} (composed : Composed allowed text)
    (allBracketed : ∀ own, allowed own → own.Bracketed) (bracketed : name.Bracketed)
    (inside : name <:+: text) : allowed name := by
  induction composed with
  | nil => exact absurd (List.infix_nil.mp inside) bracketed.nonempty
  | @literal c rest opens _ ih =>
    rcases List.infix_cons_iff.mp inside with starts | later
    · have first := bracketed.head?_of_starts starts
      exact absurd (Option.some.inj first) opens
    · exact ih later
  | @name own rest isAllowed _ ih =>
    rcases eq_or_infix_of_infix_append (allBracketed own isAllowed) bracketed inside with
      rfl | later
    · exact isAllowed
    · exact ih later

theorem segments_append_of_unopened (bracketed : ∀ name ∈ chosen, name.Bracketed) {before : Text}
    (opens : '<' ∉ before) :
    segments chosen (before ++ text) = before.map .literal ++ segments chosen text := by
  induction before with
  | nil => rfl
  | cons c before ih =>
    rw [List.mem_cons, not_or] at opens
    rw [List.cons_append, segments_literal bracketed (Ne.symm opens.1), ih opens.2]
    rfl

theorem segments_append_of_not_mem (bracketed : ∀ name ∈ chosen, name.Bracketed)
    {name index : Text} (own : name.Bracketed) (other : name ∉ chosen)
    (digits : ∀ d ∈ index, d.isDigit = true) :
    segments chosen (name ++ (index ++ text)) =
      (name ++ index).map .literal ++ segments chosen text := by
  have unnamed : longestName chosen (name ++ (index ++ text)) = none := by
    rw [longestName_eq_none_iff]
    intro one declared _ starts
    have same := (bracketed one declared).eq_of_starts own starts (List.prefix_append name _)
    exact other (same ▸ declared)
  obtain ⟨word, plain, rfl⟩ := own
  have opens : '<' ∉ word ++ ['>'] ++ index := by
    have noDigit : '<' ∉ index := fun member => absurd (digits _ member) (by decide)
    simpa [plain.1] using noDigit
  have onward := @segments_append_of_unopened chosen text bracketed _ opens
  simp only [List.cons_append, List.append_assoc] at unnamed onward ⊢
  rw [segments, unnamed, onward]
  rfl

/-- Filling in what is composed of allowed names leaves no others, if all the chosen ones are
filled. -/
theorem composed_fill {value : Text → Text} (bracketed : ∀ name ∈ names, name.Bracketed)
    (among : ∀ name ∈ chosen, name ∈ names) (enclosed : Enclosed names text)
    (others : ∀ name ∈ names, name ∉ chosen → allowed name)
    (given : ∀ token ∈ tokens chosen text, Composed allowed (value token)) :
    Composed allowed (fill chosen (fun token => some (value token)) text) := by
  have chosenBracketed : ∀ name ∈ chosen, name.Bracketed := fun name listed =>
    bracketed name (among name listed)
  unfold fill tokens Enclosed at *
  fun_induction segments names text with
  | case1 =>
    rw [segments]
    exact .nil
  | case2 c rest _ ih =>
    rw [List.forall_mem_cons] at enclosed
    have plain : Text.Plain [c] := enclosed.1 rfl
    have opens : c ≠ '<' := fun same => plain.1 (same ▸ List.mem_cons_self)
    rw [segments_literal chosenBracketed opens] at given ⊢
    exact .literal opens (ih enclosed.2 given)
  | case3 c rest name found after ih =>
    obtain ⟨declared, nonempty, starts, -⟩ := longestName_eq_some found
    have split : c :: rest =
        name ++ (after.takeWhile Char.isDigit ++ after.dropWhile Char.isDigit) := by
      rw [List.takeWhile_append_dropWhile, append_drop_of_prefix nonempty starts]
    have indexes := indexes_span after
    rw [List.forall_mem_cons] at enclosed
    rw [split] at given ⊢
    by_cases isChosen : name ∈ chosen
    · rw [segments_token chosenBracketed isChosen indexes] at given ⊢
      obtain ⟨here, later⟩ := List.forall_mem_cons.mp given
      exact here.append (ih enclosed.2 later)
    · have cut := @segments_append_of_not_mem chosen (after.dropWhile Char.isDigit) chosenBracketed
        name _ (bracketed name declared) isChosen indexes.digits
      rw [cut] at given ⊢
      rw [flatMap_map_literal _ _ _ fun _ => rfl, List.append_assoc]
      rw [List.filterMap_append, filterMap_map_literal, List.nil_append] at given
      have digits : Composed allowed (after.takeWhile Char.isDigit) :=
        composed_of_unopened fun member => absurd (indexes.digits _ member) (by decide)
      exact .name (others name declared isChosen) (digits.append (ih enclosed.2 given))

end Token

namespace Substitution

theorem substituteAll_nil (text : Text) : substituteAll [] text = text := by
  have unstarted := @substituteAll_append_of_unstarted [] text [] fun _ _ _ _ member => by
    cases member
  simpa [substituteAll] using unstarted

end Substitution

namespace Grammar

variable {grammar : Grammar} {name next token : Text} {height depth : Nat}

def Refers (grammar : Grammar) (name next : Text) : Prop :=
  ∃ rules ∈ grammar.rules.get? name, ∃ rule ∈ rules.productions,
    ∃ span ∈ Token.scan grammar.nonterminals rule.source ++
      Token.scan grammar.nonterminals rule.target, span.name = next

instance (grammar : Grammar) (name next : Text) : Decidable (grammar.Refers name next) :=
  inferInstanceAs (Decidable (∃ _ ∈ _, _))

inductive ReferenceChain (grammar : Grammar) : Nat → Text → Prop
  | start (name : Text) : ReferenceChain grammar 0 name
  | step {length : Nat} {name next : Text} (refers : grammar.Refers name next)
      (onward : ReferenceChain grammar length next) : ReferenceChain grammar (length + 1) name

def Acyclic (grammar : Grammar) (name : Text) : Prop :=
  ∀ other, Relation.ReflTransGen grammar.Refers name other →
    ¬ Relation.TransGen grammar.Refers other other

theorem Acyclic.of_refers (acyclic : grammar.Acyclic name) (refers : grammar.Refers name next) :
    grammar.Acyclic next :=
  fun other path => acyclic other (.head refers path)

theorem nonterminal_of_referrer (refers : grammar.Refers name next) :
    name ∈ grammar.nonterminals := by
  obtain ⟨rules, stored, -⟩ := refers
  rw [nonterminals, NameTable.mem_names_iff, ← NameTable.isSome_get?, stored]
  rfl

theorem nonterminal_of_refers (refers : grammar.Refers name next) :
    next ∈ grammar.nonterminals := by
  obtain ⟨_, _, _, _, span, scanned, rfl⟩ := refers
  rcases List.mem_append.mp scanned with side | side
  all_goals exact (Token.declared_of_mem_segments (Token.mem_segments_of_mem_spansFrom side)).1

section Rank

variable {rank : Text → Nat} (falls : ∀ name ∈ grammar.nonterminals,
  ∀ next ∈ grammar.nonterminals, grammar.Refers name next → rank next < rank name)

include falls

theorem rank_lt_of_refers (refers : grammar.Refers name next) : rank next < rank name :=
  falls name (nonterminal_of_referrer refers) next (nonterminal_of_refers refers) refers

theorem acyclic_of_rank (name : Text) : grammar.Acyclic name := by
  intro other _ cycle
  have below {first last : Text} (path : Relation.TransGen grammar.Refers first last) :
      rank last < rank first := by
    induction path with
    | single refers => exact rank_lt_of_refers falls refers
    | tail _ refers ih => exact (rank_lt_of_refers falls refers).trans ih
  exact Nat.lt_irrefl _ (below cycle)

theorem ReferenceChain.length_le_rank {length : Nat} (chain : grammar.ReferenceChain length name) :
    length ≤ rank name := by
  induction chain with
  | start => exact Nat.zero_le _
  | step refers _ ih => exact Nat.succ_le_of_lt (ih.trans_lt (rank_lt_of_refers falls refers))

end Rank

open Classical in
noncomputable def reached (grammar : Grammar) (name : Text) : Finset Text :=
  grammar.nonterminals.toFinset.filter (Relation.TransGen grammar.Refers name)

theorem mem_reached {other : Text} : other ∈ grammar.reached name ↔
    other ∈ grammar.nonterminals ∧ Relation.TransGen grammar.Refers name other := by
  simp [reached]

theorem reached_ssubset (acyclic : grammar.Acyclic name) (refers : grammar.Refers name next) :
    grammar.reached next ⊂ grammar.reached name := by
  refine Finset.ssubset_iff_of_subset ?_ |>.mpr ⟨next, ?_, ?_⟩
  · intro other below
    obtain ⟨known, path⟩ := mem_reached.mp below
    exact mem_reached.mpr ⟨known, .head refers path⟩
  · exact mem_reached.mpr ⟨nonterminal_of_refers refers, .single refers⟩
  · intro below
    exact acyclic next (.single refers) (mem_reached.mp below).2

theorem ReferenceChain.length_le {length : Nat} (chain : grammar.ReferenceChain length name)
    (acyclic : grammar.Acyclic name) : length ≤ (grammar.reached name).card := by
  induction chain with
  | start => exact Nat.zero_le _
  | step refers _ ih =>
    have shorter := ih (acyclic.of_refers refers)
    have fewer := Finset.card_lt_card (reached_ssubset acyclic refers)
    omega

theorem exists_longest (acyclic : grammar.Acyclic name) :
    ∃ height, IsGreatest {length | grammar.ReferenceChain length name} height := by
  have bounded : BddAbove {length | grammar.ReferenceChain length name} :=
    ⟨_, fun _ chain => ReferenceChain.length_le chain acyclic⟩
  exact ⟨_, Nat.sSup_mem ⟨0, .start name⟩ bounded, fun _ chain => le_csSup bounded chain⟩

/-- No chain of references from a nonterminal is longer than a bound. -/
def Nested (grammar : Grammar) (height : Nat) (name : Text) : Prop :=
  ∀ length, grammar.ReferenceChain length name → length ≤ height

theorem Nested.of_refers (nested : grammar.Nested (height + 1) name)
    (refers : grammar.Refers name next) : grammar.Nested height next :=
  fun _ chain => Nat.le_of_succ_le_succ (nested _ (.step refers chain))

theorem Nested.not_refers (nested : grammar.Nested 0 name) : ¬ grammar.Refers name next :=
  fun refers => absurd (nested 1 (.step refers (.start next))) (by decide)

theorem exists_refers {rules : RuleTable} (stored : grammar.rules.get? name = some rules)
    {rule : Production} (listed : rule ∈ rules.productions)
    (unnumbered : ∀ own ∈ grammar.nonterminals, own.Unnumbered)
    (occurs : token ∈ grammar.expansionTokens rule) :
    ∃ next, grammar.Refers name next ∧ grammar.nonterminalName? token = some next := by
  rw [mem_expansionTokens, Token.mem_tokens_iff_scan, Token.mem_tokens_iff_scan,
    ← exists_or] at occurs
  obtain ⟨span, either⟩ := occurs
  rw [← or_and_right, ← List.mem_append] at either
  obtain ⟨scanned, rfl⟩ := either
  refine ⟨span.name, ⟨rules, stored, rule, listed, span, scanned, rfl⟩, ?_⟩
  rcases List.mem_append.mp scanned with side | side
  all_goals
    exact nonterminalName?_of_unnumbered unnumbered (Token.mem_segments_of_mem_spansFrom side)

theorem expandOnce_of_no_tokens {tables : Text → RuleTable} {rules : RuleTable}
    (distinct : rules.productions.Nodup)
    (bare : ∀ rule ∈ rules.productions, grammar.expansionTokens rule = []) :
    grammar.expandOnce tables rules = rules := by
  have each (rule : Production) (listed : rule ∈ rules.productions) :
      expandProduction rule
        ((grammar.expansionTokens rule).map fun token => (token, tables token)) = [rule] := by
    rw [bare rule listed]
    simp [expandProduction, combinations, substituteChoices, Substitution.substituteAll_nil]
  have same : (rules.productions.flatMap fun rule => expandProduction rule
      ((grammar.expansionTokens rule).map fun token => (token, tables token))) =
        rules.productions := by
    rw [List.flatMap_congr each]
    exact List.flatMap_singleton' _
  rw [expandOnce, same, RuleTable.ofList_productions distinct]

structure Enclosed (grammar : Grammar) : Prop where
  bracketed : ∀ own ∈ grammar.variableNames, own.Bracketed
  source : ∀ entry ∈ grammar.rules.entries, ∀ rule ∈ entry.2.productions,
    Token.Enclosed grammar.variableNames rule.source
  target : ∀ entry ∈ grammar.rules.entries, ∀ rule ∈ entry.2.productions,
    Token.Enclosed grammar.variableNames rule.target

/-- A name that is left over when all nonterminals are filled. -/
def IsTerminal (grammar : Grammar) (own : Text) : Prop :=
  own ∈ grammar.variableNames ∧ own ∉ grammar.nonterminals

/-- Both sides are put together from names of terminals and characters that open no name. -/
def Settled (grammar : Grammar) (production : Production) : Prop :=
  Token.Composed grammar.IsTerminal production.source ∧
    Token.Composed grammar.IsTerminal production.target

theorem Settled.unnamed {production : Production} (settled : grammar.Settled production)
    (bracketed : ∀ own ∈ grammar.variableNames, own.Bracketed)
    (known : name ∈ grammar.nonterminals) :
    ¬ name <:+: production.source ∧ ¬ name <:+: production.target := by
  have ownBracketed := bracketed name (mem_variableNames.mpr (Or.inl known))
  have others : ∀ own, grammar.IsTerminal own → own.Bracketed := fun own terminal =>
    bracketed own terminal.1
  exact ⟨fun inside => (settled.1.allowed_of_occurs others ownBracketed inside).2 known,
    fun inside => (settled.2.allowed_of_occurs others ownBracketed inside).2 known⟩

theorem settled_filled (enclosed : grammar.Enclosed) {rules : RuleTable}
    (stored : grammar.rules.get? name = some rules) {rule : Production}
    (listed : rule ∈ rules.productions) {choice : Text → Production}
    (given : ∀ token ∈ grammar.expansionTokens rule, grammar.Settled (choice token)) :
    grammar.Settled (rule.filled grammar.nonterminals choice) := by
  have entry := (NameTable.get?_eq_some_iff _ _ _).mp stored
  have among : ∀ own ∈ grammar.nonterminals, own ∈ grammar.variableNames := fun own known =>
    mem_variableNames.mpr (Or.inl known)
  have others : ∀ own ∈ grammar.variableNames, own ∉ grammar.nonterminals →
      grammar.IsTerminal own := fun own declared unknown => ⟨declared, unknown⟩
  constructor
  · exact Token.composed_fill enclosed.bracketed among (enclosed.source _ entry rule listed) others
      fun token occurs => (given token (mem_expansionTokens.mpr (Or.inl occurs))).1
  · exact Token.composed_fill enclosed.bracketed among (enclosed.target _ entry rule listed) others
      fun token occurs => (given token (mem_expansionTokens.mpr (Or.inr occurs))).2

section Unnumbered

variable (unnumbered : ∀ own ∈ grammar.nonterminals, own.Unnumbered)

include unnumbered

theorem settled_succ (enclosed : grammar.Enclosed) (known : name ∈ grammar.nonterminals)
    (below : ∀ next, grammar.Refers name next →
      ∀ production ∈ (grammar.expansion depth next).productions, grammar.Settled production) :
    ∀ production ∈ (grammar.expansion (depth + 1) name).productions,
      grammar.Settled production := by
  intro production expanded
  obtain ⟨rules, stored⟩ := exists_rules known
  rw [expansion_of_ok (expand_succ unnumbered stored depth), mem_expandOnce] at expanded
  obtain ⟨rule, listed, choice, chosen, rfl⟩ := expanded
  refine settled_filled enclosed stored listed fun token occurs => ?_
  obtain ⟨next, refers, named⟩ := exists_refers stored listed unnumbered occurs
  have taken := chosen token (mem_expansionTokens.mp occurs)
  rw [expansion, expand_of_nonterminalName? named] at taken
  exact below next refers _ taken

variable (wellFormed : grammar.WellFormed)

include wellFormed

theorem expand_of_nested (known : name ∈ grammar.nonterminals)
    (nested : grammar.Nested height name) (deep : height ≤ depth) :
    grammar.expand depth name = grammar.expand height name := by
  obtain ⟨rules, stored⟩ := exists_rules known
  induction height generalizing name depth rules with
  | zero =>
    cases depth with
    | zero => rfl
    | succ depth =>
      have entry := (NameTable.get?_eq_some_iff _ _ _).mp stored
      have bare : ∀ rule ∈ rules.productions, grammar.expansionTokens rule = [] := by
        intro rule listed
        apply List.eq_nil_iff_forall_not_mem.mpr
        intro token occurs
        obtain ⟨next, refers, -⟩ := exists_refers stored listed unnumbered occurs
        exact nested.not_refers refers
      rw [expand_succ unnumbered stored, expand_zero stored,
        expandOnce_of_no_tokens (wellFormed.tidy _ entry).distinct bare]
  | succ height ih =>
    cases depth with
    | zero => exact absurd deep (by omega)
    | succ depth =>
      have agree : ∀ rule ∈ rules.productions, ∀ token ∈ grammar.expansionTokens rule,
          grammar.expansion depth token = grammar.expansion height token := by
        intro rule listed token occurs
        obtain ⟨next, refers, named⟩ := exists_refers stored listed unnumbered occurs
        have alsoKnown := nonterminal_of_refers refers
        obtain ⟨others, alsoStored⟩ := exists_rules alsoKnown
        have same := ih alsoKnown (nested.of_refers refers) (Nat.le_of_succ_le_succ deep) others
          alsoStored
        rw [← expand_of_nonterminalName? named, ← expand_of_nonterminalName? named] at same
        rw [expansion, expansion, same]
      rw [expand_succ unnumbered stored, expand_succ unnumbered stored, expandOnce_congr agree]

theorem settled_of_nested (enclosed : grammar.Enclosed) (known : name ∈ grammar.nonterminals)
    (nested : grammar.Nested height name) :
    ∀ production ∈ (grammar.expansion height name).productions, grammar.Settled production := by
  induction height generalizing name with
  | zero =>
    -- Without references it does not matter to expand once more.
    have same := expand_of_nested unnumbered wellFormed known nested (Nat.le_succ 0)
    rw [expansion, ← same]
    exact settled_succ unnumbered enclosed known fun next refers =>
      absurd refers nested.not_refers
  | succ height ih =>
    exact settled_succ unnumbered enclosed known fun next refers =>
      ih (nonterminal_of_refers refers) (nested.of_refers refers)

end Unnumbered

/-- A nonterminal that reaches no cycle of references is expanded to one and the same table at
every depth from the length of its longest chain of references on, whatever has been asked before.
If names are in brackets and there are no other brackets, no nonterminal stands in that table. -/
theorem expansion_settles {steps : List BuildStep}
    (built : (GrammarBuilder.ofSteps steps).build = .ok grammar)
    (unnumbered : ∀ own ∈ grammar.nonterminals, own.Unnumbered)
    (known : name ∈ grammar.nonterminals) (acyclic : grammar.Acyclic name) :
    ∃ height, IsGreatest {length | grammar.ReferenceChain length name} height ∧
      ∃ table, (∀ calls depth, height ≤ depth → grammar.expandAfter calls depth name = .ok table) ∧
        (grammar.Enclosed → ∀ production ∈ table.productions,
          grammar.expansionTokens production = [] ∧
            ∀ own ∈ grammar.nonterminals,
              ¬ own <:+: production.source ∧ ¬ own <:+: production.target) := by
  obtain ⟨height, longest⟩ := exists_longest acyclic
  have nested : grammar.Nested height name := fun _ chain => longest.2 chain
  have wellFormed := GrammarBuilder.wellFormed_of_build built
  have named := nonterminalName?_self ((NameTable.mem_names_iff _ _).mp known)
  refine ⟨height, longest, grammar.expansion height name, fun calls depth deep => ?_,
    fun enclosed production expanded => ?_⟩
  · rw [expandAfter_eq, expand_of_nested unnumbered wellFormed known nested deep,
      expand_eq_ok unnumbered named]
  · have settled := settled_of_nested unnumbered wellFormed enclosed known nested _ expanded
    have absent := fun own known => @Settled.unnamed grammar own _ settled enclosed.bracketed known
    refine ⟨?_, absent⟩
    rw [expansionTokens, Token.tokens_eq_nil_of_unnamed fun own known _ => (absent own known).1,
      Token.tokens_eq_nil_of_unnamed fun own known _ => (absent own known).2]
    rfl

def commandSteps : List BuildStep :=
  [.rule "<s>".toList "<d><o>".toList "<d>(<o>)".toList,
    .rule "<s>".toList "stop <n>".toList "HALT(<n>)".toList,
    .rule "<o>".toList "the <f>".toList "<f>".toList,
    .rule "<o>".toList "<n> <f>, <f>2".toList "<n>*<f>+<f>2".toList,
    .rule "<d>".toList "take ".toList "GET".toList,
    .rule "<f>".toList "bread".toList "FOOD".toList,
    .rule "<f>".toList "water".toList "FLUID".toList, .variable "<n>".toList "[0-9]+".toList]

def commands : Grammar :=
  ⟨"<s>".toList, (GrammarBuilder.ofSteps commandSteps).rules,
    (GrammarBuilder.ofSteps commandSteps).variables⟩

def commandRank (name : Text) : Nat :=
  if name = "<s>".toList then 2 else if name = "<o>".toList then 1 else 0

theorem expansion_settles_commands :
    (GrammarBuilder.ofSteps commandSteps).build = .ok commands ∧
      IsGreatest {length | commands.ReferenceChain length "<s>".toList} 2 ∧
      ∃ table, (∀ calls depth, 2 ≤ depth →
          commands.expandAfter calls depth "<s>".toList = .ok table) ∧
        commands.expandAfter [] 1 "<s>".toList ≠ .ok table ∧
        ∀ production ∈ table.productions, commands.expansionTokens production = [] := by
  have built : (GrammarBuilder.ofSteps commandSteps).build = .ok commands := by decide +kernel
  have falls : ∀ name ∈ commands.nonterminals, ∀ next ∈ commands.nonterminals,
      commands.Refers name next → commandRank next < commandRank name := by decide +kernel
  have first : commands.Refers "<s>".toList "<o>".toList := by decide +kernel
  have second : commands.Refers "<o>".toList "<f>".toList := by decide +kernel
  have chain : commands.ReferenceChain 2 "<s>".toList := .step first (.step second (.start _))
  obtain ⟨height, longest, table, settles, bare⟩ := @expansion_settles commands "<s>".toList _ built
    (by decide +kernel) (by decide +kernel) (acyclic_of_rank falls _)
  have two : height = 2 :=
    Nat.le_antisymm (ReferenceChain.length_le_rank falls longest.1) (longest.2 chain)
  subst two
  refine ⟨built, longest, table, settles, fun early => ?_, fun production listed => ?_⟩
  · rw [← settles [] 2 (Nat.le_refl 2), expandAfter_eq, expandAfter_eq] at early
    exact absurd early (by decide +kernel)
  · exact (bare ⟨by decide +kernel, by decide +kernel, by decide +kernel⟩ production listed).1

end Grammar

end SyncGrammar
