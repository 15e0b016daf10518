import SyncGrammar.Proofs.Ownership
import SyncGrammar.Proofs.Renaming
import SyncGrammar.Proofs.Sources

/-!
The indices of tokens are only names. Giving the tokens of each rule other indices, the same ones on
both sides, changes the keys of the queue and of the stack and the order of rules, and yet every
derivation is carried over, rule by rule: the answers bind other tokens to the same values, and the
sides are filled to the same texts.
-/
namespace SyncGrammar

theorem Token.stripIndex_token {name index : Text} (bracketed : name.Bracketed)
    (digits : ∀ d ∈ index, d.isDigit = true) : Token.stripIndex (name ++ index) = name := by
  rw [stripIndex_append name digits, stripIndex_eq_self_iff]
  exact bracketed.unnumbered

namespace Production

variable {names : List Text} {rename : Text → Text} {production : Production}

def tokens (names : List Text) (production : Production) : List Text :=
  Token.tokens names production.source ++ Token.tokens names production.target

def renamed (names : List Text) (rename : Text → Text) (production : Production) : Production :=
  ⟨Token.renamed names rename production.source, Token.renamed names rename production.target⟩

/-- Each token keeps its declared name, and no two become one. -/
structure Reindexes (names : List Text) (rename : Text → Text) (production : Production) :
    Prop where
  keeps : ∀ token ∈ production.tokens names, Token.SameName names token (rename token)
  injective : ∀ token ∈ production.tokens names, ∀ other ∈ production.tokens names,
    rename token = rename other → token = other

instance (names : List Text) (rename : Text → Text) (production : Production) :
    Decidable (production.Reindexes names rename) :=
  decidable_of_iff (_ ∧ _) ⟨fun parts => ⟨parts.1, parts.2⟩, fun whole => ⟨whole.1, whole.2⟩⟩

theorem mem_tokens_inverted {token : Text} :
    token ∈ production.inverted.tokens names ↔ token ∈ production.tokens names := by
  simp only [tokens, inverted, List.mem_append]
  exact or_comm

theorem Reindexes.inverted (reindexes : production.Reindexes names rename) :
    production.inverted.Reindexes names rename := by
  refine ⟨fun token member => reindexes.keeps token (mem_tokens_inverted.mp member), ?_⟩
  intro token member other alsoMember
  exact reindexes.injective token (mem_tokens_inverted.mp member) other
    (mem_tokens_inverted.mp alsoMember)

def Alike (names : List Text) (production other : Production) : Prop :=
  ∃ rename, production.Reindexes names rename ∧ other = production.renamed names rename

theorem Alike.inverted {other : Production} (alike : production.Alike names other) :
    production.inverted.Alike names other.inverted := by
  obtain ⟨rename, reindexes, rfl⟩ := alike
  exact ⟨rename, reindexes.inverted, rfl⟩

theorem Alike.turned {other : Production} (alike : production.Alike names other)
    (direction : Direction) :
    (production.turned direction).Alike names (other.turned direction) := by
  cases direction with
  | forward => exact alike
  | backward => exact alike.inverted

theorem Reindexes.exists_back (reindexes : production.Reindexes names rename) :
    ∃ back : Text → Text, ∀ token ∈ production.tokens names, back (rename token) = token := by
  have injective : Set.InjOn rename {token | token ∈ production.tokens names} :=
    fun token member other alsoMember => reindexes.injective token member other alsoMember
  exact ⟨_, fun token member => injective.leftInvOn_invFunOn member⟩

section Balanced

variable (bracketed : ∀ name ∈ names, name.Bracketed) (balanced : production.Balanced names)
  (reindexes : production.Reindexes names rename)

include bracketed balanced reindexes

theorem Reindexes.tokens_source :
    Token.tokens names (production.renamed names rename).source =
      (Token.tokens names production.source).map rename :=
  Token.tokens_renamed bracketed
    (fun token member => reindexes.keeps token (List.mem_append_left _ member))
    balanced.source.wellCut

theorem Reindexes.tokens_target :
    Token.tokens names (production.renamed names rename).target =
      (Token.tokens names production.target).map rename :=
  Token.tokens_renamed bracketed
    (fun token member => reindexes.keeps token (List.mem_append_right _ member))
    balanced.target.wellCut

theorem Reindexes.balanced_renamed : (production.renamed names rename).Balanced names := by
  have source := reindexes.tokens_source bracketed balanced
  have target := reindexes.tokens_target bracketed balanced
  refine ⟨?_, ?_, ?_, ?_⟩
  · exact balanced.source.renamed bracketed fun token member =>
      reindexes.keeps token (List.mem_append_left _ member)
  · exact balanced.target.renamed bracketed fun token member =>
      reindexes.keeps token (List.mem_append_right _ member)
  · rw [source, target]
    intro token member
    obtain ⟨own, occurs, rfl⟩ := List.mem_map.mp member
    exact List.mem_map_of_mem (balanced.written own occurs)
  · rw [source, target]
    intro token member
    obtain ⟨own, occurs, rfl⟩ := List.mem_map.mp member
    exact List.mem_map_of_mem (balanced.read own occurs)

theorem Reindexes.mem_tokens_renamed {token : Text} :
    token ∈ (production.renamed names rename).tokens names ↔
      ∃ own ∈ production.tokens names, rename own = token := by
  rw [tokens, reindexes.tokens_source bracketed balanced,
    reindexes.tokens_target bracketed balanced, ← List.map_append, List.mem_map]
  rfl

omit balanced in
theorem Reindexes.fill_side {side : Text} {back : Text → Text} (legible : Token.Legible names side)
    (inside : ∀ token ∈ Token.tokens names side, token ∈ production.tokens names)
    (returns : ∀ token ∈ production.tokens names, back (rename token) = token)
    (value : Text → Text) :
    Token.fill names (fun token => some (value (back token))) (Token.renamed names rename side) =
      Token.fill names (fun token => some (value token)) side :=
  Token.fill_renamed_back bracketed
    (fun token member => reindexes.keeps token (inside token member)) legible.wellCut
    (fun token member => returns token (inside token member)) value

theorem Reindexes.alike_back : (production.renamed names rename).Alike names production := by
  obtain ⟨back, returns⟩ := reindexes.exists_back
  have renamed {token : Text} (member : token ∈ (production.renamed names rename).tokens names) :=
    (reindexes.mem_tokens_renamed bracketed balanced).mp member
  have side {text : Text} (legible : Token.Legible names text)
      (inside : ∀ token ∈ Token.tokens names text, token ∈ production.tokens names) :
      Token.renamed names back (Token.renamed names rename text) = text := by
    have filled := reindexes.fill_side bracketed legible inside returns id
    exact filled.trans (Token.fill_self text)
  refine ⟨back, ⟨fun token member => ?_, fun token member other alsoMember same => ?_⟩, ?_⟩
  · obtain ⟨own, occurs, rfl⟩ := renamed member
    rw [returns own occurs]
    exact (reindexes.keeps own occurs).symm
  · obtain ⟨own, occurs, rfl⟩ := renamed member
    obtain ⟨alsoOwn, alsoOccurs, rfl⟩ := renamed alsoMember
    rw [returns own occurs, returns alsoOwn alsoOccurs] at same
    rw [same]
  · have source := side balanced.source fun _ => List.mem_append_left _
    have target := side balanced.target fun _ => List.mem_append_right _
    exact congrArg₂ Production.mk source.symm target.symm

end Balanced

theorem Alike.symm {other : Production} (alike : production.Alike names other)
    (bracketed : ∀ name ∈ names, name.Bracketed) (balanced : production.Balanced names) :
    other.Alike names production := by
  obtain ⟨rename, reindexes, rfl⟩ := alike
  exact reindexes.alike_back bracketed balanced

theorem Alike.balanced_other {other : Production} (alike : production.Alike names other)
    (bracketed : ∀ name ∈ names, name.Bracketed) (balanced : production.Balanced names) :
    other.Balanced names := by
  obtain ⟨rename, reindexes, rfl⟩ := alike
  exact reindexes.balanced_renamed bracketed balanced

end Production

namespace Grammar

variable {grammar other : Grammar} {rename : Text → Production → Text → Text}

/-- The grammar with the tokens of each rule reindexed. The tables of rules are made anew, so that
rules that have become one are listed once. -/
def reindexed (grammar : Grammar) (rename : Text → Production → Text → Text) : Grammar :=
  { grammar with
    rules := ⟨grammar.rules.entries.map fun entry =>
        (entry.1, .ofList (entry.2.productions.map fun production =>
          production.renamed grammar.variableNames (rename entry.1 production))),
      List.pairwise_map.mpr grammar.rules.ascending⟩ }

/-- Two grammars differ in the indices of tokens alone. -/
structure Alike (grammar other : Grammar) : Prop where
  root : other.root = grammar.root
  «variables» : other.variables = grammar.variables
  names : other.rules.names = grammar.rules.names
  rules : ∀ name table, grammar.rules.get? name = some table →
    ∃ otherTable, other.rules.get? name = some otherTable ∧
      (∀ production ∈ table.productions, ∃ same ∈ otherTable.productions,
        production.Alike grammar.variableNames same) ∧
      ∀ same ∈ otherTable.productions, ∃ production ∈ table.productions,
        production.Alike grammar.variableNames same

theorem alike_reindexed (reindexes : ∀ entry ∈ grammar.rules.entries,
      ∀ production ∈ entry.2.productions,
        production.Reindexes grammar.variableNames (rename entry.1 production)) :
    grammar.Alike (grammar.reindexed rename) := by
  refine ⟨rfl, rfl, ?_, fun name table stored => ?_⟩
  · simp [reindexed, NameTable.names]
  · have entry := (NameTable.get?_eq_some_iff _ _ _).mp stored
    refine ⟨_, (NameTable.get?_eq_some_iff _ _ _).mpr (List.mem_map_of_mem entry), ?_, ?_⟩
    · intro production member
      refine ⟨_, RuleTable.mem_ofList.mpr (List.mem_map_of_mem member), ?_⟩
      exact ⟨_, reindexes _ entry production member, rfl⟩
    · intro same member
      obtain ⟨production, own, rfl⟩ := List.mem_map.mp (RuleTable.mem_ofList.mp member)
      exact ⟨production, own, _, reindexes _ entry production own, rfl⟩

namespace Alike

variable (alike : grammar.Alike other)

include alike

theorem variableNames_eq : other.variableNames = grammar.variableNames := by
  rw [variableNames, variableNames, nonterminals, alike.names, alike.variables]
  rfl

theorem leafVariables_eq (wildcard : Text) :
    other.leafVariables wildcard = grammar.leafVariables wildcard := by
  rw [leafVariables, leafVariables, nonterminals, alike.names, alike.variables]
  rfl

theorem contains_eq (name : Text) : other.rules.contains name = grammar.rules.contains name := by
  rw [Bool.eq_iff_iff, ← NameTable.mem_names_iff, ← NameTable.mem_names_iff, alike.names]

theorem nonterminalName?_eq (token : Text) :
    other.nonterminalName? token = grammar.nonterminalName? token := by
  simp only [nonterminalName?, alike.contains_eq]

theorem hasNonterminal_eq (token : Text) :
    other.hasNonterminal token = grammar.hasNonterminal token := by
  rw [hasNonterminal, hasNonterminal, alike.nonterminalName?_eq]

theorem exists_table {name : Text} {otherTable : RuleTable}
    (stored : other.rules.get? name = some otherTable) :
    ∃ table, grammar.rules.get? name = some table ∧
      (∀ production ∈ table.productions, ∃ same ∈ otherTable.productions,
        production.Alike grammar.variableNames same) ∧
      ∀ same ∈ otherTable.productions, ∃ production ∈ table.productions,
        production.Alike grammar.variableNames same := by
  have listed : name ∈ grammar.rules.names := by
    rw [← alike.names, NameTable.mem_names_iff, ← NameTable.isSome_get?, stored]
    rfl
  rw [NameTable.mem_names_iff, ← NameTable.isSome_get?, Option.isSome_iff_exists] at listed
  obtain ⟨table, own⟩ := listed
  obtain ⟨found, alsoStored, onward, back⟩ := alike.rules name table own
  rw [stored] at alsoStored
  cases alsoStored
  exact ⟨table, own, onward, back⟩

theorem exists_rule {direction : Direction} {token otherToken : Text} {production : Production}
    (rule : production ∈ grammar.orientedRules direction token)
    (named : grammar.nonterminalName? otherToken = grammar.nonterminalName? token) :
    ∃ same ∈ other.orientedRules direction otherToken,
      production.Alike grammar.variableNames same := by
  obtain ⟨table, found, member⟩ := mem_orientedRules.mp rule
  obtain ⟨name, own, stored⟩ := table?_eq_some_iff.mp found
  obtain ⟨otherTable, alsoStored, onward, -⟩ := alike.rules name table stored
  obtain ⟨same, inside, turned⟩ := onward _ member
  have again (production : Production) :
      (production.turned direction).turned direction = production := by
    cases direction <;> rfl
  refine ⟨same.turned direction, mem_orientedRules.mpr ⟨otherTable, ?_, ?_⟩, ?_⟩
  · rw [table?_eq_some_iff]
    exact ⟨name, (alike.nonterminalName?_eq _).trans (named.trans own), alsoStored⟩
  · rwa [again]
  · have back := turned.turned direction
    rwa [again] at back

end Alike

section Balanced

variable (balanced : grammar.Balanced)

include balanced

theorem nonterminalName?_token {name index : Text} (declared : name ∈ grammar.variableNames)
    (digits : ∀ d ∈ index, d.isDigit = true) :
    grammar.nonterminalName? (name ++ index) =
      if grammar.rules.contains name then some name else none := by
  have own := balanced.bracketed name declared
  have whole (contained : grammar.rules.contains (name ++ index) = true) :
      name ++ index = name := by
    have listed : name ++ index ∈ grammar.variableNames :=
      mem_variableNames.mpr (Or.inl ((NameTable.mem_names_iff _ _).mpr contained))
    exact (balanced.bracketed _ listed).eq_of_starts own List.prefix_rfl
      (List.prefix_append name index)
  rw [nonterminalName?, Token.stripIndex_token own digits]
  split
  · rename_i contained
    have same := whole contained
    rw [same] at contained ⊢
    rw [if_pos contained]
  · rfl

theorem nonterminalName?_of_sameName {token otherToken : Text}
    (same : Token.SameName grammar.variableNames token otherToken) :
    grammar.nonterminalName? otherToken = grammar.nonterminalName? token := by
  obtain ⟨name, declared, index, otherIndex, digits, otherDigits, rfl, rfl⟩ := same
  rw [nonterminalName?_token balanced declared digits,
    nonterminalName?_token balanced declared otherDigits]

variable (alike : grammar.Alike other)

include alike

theorem Alike.symm : other.Alike grammar := by
  refine ⟨alike.root.symm, alike.variables.symm, alike.names.symm, fun name otherTable stored => ?_⟩
  obtain ⟨table, own, onward, back⟩ := alike.exists_table stored
  have sides := balanced.rules _ ((NameTable.get?_eq_some_iff _ _ _).mp own)
  rw [alike.variableNames_eq]
  refine ⟨table, own, fun same member => ?_, fun production member => ?_⟩
  · obtain ⟨production, inside, turned⟩ := back same member
    exact ⟨production, inside, turned.symm balanced.bracketed (sides production inside)⟩
  · obtain ⟨same, inside, turned⟩ := onward production member
    exact ⟨same, inside, turned.symm balanced.bracketed (sides production member)⟩

theorem Alike.balanced_other : other.Balanced := by
  have bracketed := balanced.bracketed
  refine ⟨alike.variableNames_eq ▸ bracketed, fun entry member same inside => ?_⟩
  obtain ⟨table, own, -, back⟩ :=
    alike.exists_table ((NameTable.get?_eq_some_iff _ _ _).mpr member)
  obtain ⟨production, stands, turned⟩ := back same inside
  rw [alike.variableNames_eq]
  have sides := balanced.rules _ ((NameTable.get?_eq_some_iff _ _ _).mp own) production stands
  exact turned.balanced_other bracketed sides

omit alike in
theorem mem_unitNonterminals_renamed {rename : Text → Text} {side next : Text}
    (legible : Token.Legible grammar.variableNames side)
    (keeps : ∀ token ∈ Token.tokens grammar.variableNames side,
      Token.SameName grammar.variableNames token (rename token))
    (leads : next ∈ grammar.unitNonterminals side) :
    next ∈ grammar.unitNonterminals (Token.renamed grammar.variableNames rename side) := by
  obtain ⟨only, token, occurs, named⟩ := mem_unitNonterminals.mp leads
  have cut := legible.wellCut
  rw [mem_unitNonterminals, Token.onlyTokens_renamed balanced.bracketed keeps cut,
    Token.tokens_renamed balanced.bracketed keeps cut]
  refine ⟨only, rename token, List.mem_map_of_mem occurs, ?_⟩
  rw [nonterminalName?_of_sameName balanced (keeps token occurs), named]

theorem Alike.leads {name next : Text} (leads : grammar.Leads name next) :
    other.Leads name next := by
  have named : other.nonterminalName? = grammar.nonterminalName? :=
    funext alike.nonterminalName?_eq
  have units (side : Text) : other.unitNonterminals side = grammar.unitNonterminals side := by
    rw [unitNonterminals, unitNonterminals, alike.variableNames_eq, named]
  obtain ⟨table, stored, production, member, either⟩ := leads_iff.mp leads
  obtain ⟨otherTable, alsoStored, onward, -⟩ := alike.rules name table stored
  obtain ⟨same, inside, rename, reindexes, rfl⟩ := onward production member
  have sides := balanced.rules _ ((NameTable.get?_eq_some_iff _ _ _).mp stored) production member
  refine leads_iff.mpr ⟨otherTable, alsoStored, _, inside, ?_⟩
  rw [units, units]
  rcases either with source | target
  · exact Or.inl (mem_unitNonterminals_renamed balanced sides.source
      (fun token occurs => reindexes.keeps token (List.mem_append_left _ occurs)) source)
  · exact Or.inr (mem_unitNonterminals_renamed balanced sides.target
      (fun token occurs => reindexes.keeps token (List.mem_append_right _ occurs)) target)

theorem Alike.unitCycles_eq : other.unitCycles = grammar.unitCycles := by
  have same : other.Leads = grammar.Leads := by
    funext name next
    exact propext ⟨(alike.symm balanced).leads (alike.balanced_other balanced),
      alike.leads balanced⟩
  rw [unitCycles, unitCycles, nonterminals, nonterminals, alike.names]
  apply List.filter_congr
  intro name _
  rw [Bool.eq_iff_iff, isOnUnitCycle_iff, isOnUnitCycle_iff, same]

end Balanced

end Grammar

theorem Text.eq_of_mem_iff {first second : List Text} (ascending : first.Pairwise (· < ·))
    (alsoAscending : second.Pairwise (· < ·)) (same : ∀ text, text ∈ first ↔ text ∈ second) :
    first = second := by
  have irreflexive : Std.Irrefl fun a b : Text => a < b := ⟨List.lt_irrefl⟩
  have asymmetric : Std.Antisymm fun a b : Text => a < b :=
    ⟨fun _ _ below above => absurd above (List.lt_asymm below)⟩
  exact ascending.eq_of_mem_iff alsoAscending same

theorem Grammar.names_leafVariables (grammar : Grammar) (wildcard : Text) :
    (grammar.leafVariables wildcard).names = grammar.variableNames := by
  have ascending : (grammar.leafVariables wildcard).names.Pairwise (· < ·) :=
    List.pairwise_map.mpr (grammar.leafVariables wildcard).ascending
  exact Text.eq_of_mem_iff ascending (Text.pairwise_sortedDistinct _)
    fun _ => mem_names_leafVariables

section Carrying

variable {Compiled : Type} {engine : RegexEngine Compiled} {grammar other : Grammar}
  {direction : Direction} {wildcard text : Text}

theorem Production.Reindexes.answers {production : Production} {rename : Text → Text}
    {subtext : Text} {answers : List Assignment} (balanced : grammar.Balanced)
    (sides : production.Balanced grammar.variableNames)
    (reindexes : production.Reindexes grammar.variableNames rename)
    (answer : Entailment.matching engine (grammar.leafVariables wildcard) subtext
      production.source = .ok answers) :
    Entailment.matching engine (grammar.leafVariables wildcard) subtext
        (production.renamed grammar.variableNames rename).source =
      .ok (answers.map (Assignment.renamed rename)) := by
  have names := grammar.names_leafVariables wildcard
  have renamed := @Entailment.matching_renamed _ engine (grammar.leafVariables wildcard) rename
    subtext production.source answers
  rw [names] at renamed
  exact renamed balanced.bracketed sides.source.wellCut
    (fun token member => reindexes.keeps token (List.mem_append_left _ member))
    (fun token member other alsoMember => reindexes.injective token
      (List.mem_append_left _ member) other (List.mem_append_left _ alsoMember)) answer

variable (alike : grammar.Alike other) (balanced : grammar.Balanced)

include alike balanced

theorem Grammar.Alike.exists_demanded {key : DerivationKey}
    (demanded : Downward.Demanded grammar (.matching engine (grammar.leafVariables wildcard))
      direction text key) :
    ∃ subtext token production otherToken same, key = .ofProduction subtext token production ∧
      production ∈ grammar.orientedRules direction token ∧
      production.Alike grammar.variableNames same ∧
      Downward.Demanded other (.matching engine (grammar.leafVariables wildcard)) direction text
        (.ofProduction subtext otherToken same) := by
  induction demanded with
  | @root production rule =>
    obtain ⟨same, alsoRule, turned⟩ := alike.exists_rule rule rfl
    rw [← alike.root] at alsoRule
    exact ⟨_, _, production, _, same, rfl, rule, turned, .root alsoRule⟩
  | @child key answers assignment token value production parent answer entails bound rule ih =>
    obtain ⟨subtext, above, own, otherAbove, _, rfl, ownRule, ⟨rename, reindexes, rfl⟩, also⟩ := ih
    have alsoAnswer := reindexes.answers balanced (balanced.of_rule ownRule) answer
    have tokens := (Entailment.tokens_of_matching answer entails).1
    rw [grammar.names_leafVariables] at tokens
    have occurs : token ∈ Token.tokens grammar.variableNames own.source := by
      rw [← List.mem_eraseDups]
      exact tokens ▸ List.mem_map_of_mem bound
    have named := Grammar.nonterminalName?_of_sameName balanced
      (reindexes.keeps token (List.mem_append_left _ occurs))
    obtain ⟨same, alsoRule, turned⟩ := alike.exists_rule rule named
    refine ⟨value, token, production, rename token, same, rfl, rule, turned, ?_⟩
    exact also.child alsoAnswer (List.mem_map_of_mem entails) (List.mem_map_of_mem bound) alsoRule

omit alike in
theorem Production.Reindexes.derives {production : Production} {rename read written : Text → Text}
    {subtext token : Text} {answers : List Assignment} {assignment : Assignment}
    (sides : production.Balanced grammar.variableNames)
    (reindexes : production.Reindexes grammar.variableNames rename)
    (rule : production.renamed grammar.variableNames rename ∈ other.orientedRules direction token)
    (answer : Entailment.matching engine (grammar.leafVariables wildcard) subtext
      production.source = .ok answers) (entails : assignment ∈ answers)
    (distinct : assignment.tokens.Nodup)
    (bound : ∀ token, token ∈ assignment.tokens ↔
      token ∈ Token.tokens grammar.variableNames production.source)
    (plain : ∀ token ∈ assignment.tokens, (read token).Plain ∧ (written token).Plain)
    (stands : ∀ token ∈ assignment.tokens,
      Stands other (Derives other (.matching engine (grammar.leafVariables wildcard)) direction)
        (rename token) (assignment.valueOf token) (read token) (written token)) :
    Derives other (.matching engine (grammar.leafVariables wildcard)) direction
      ⟨subtext, token,
        Token.fill grammar.variableNames (fun token => some (read token)) production.source,
        Token.fill grammar.variableNames (fun token => some (written token))
          production.target⟩ := by
  have bracketed := balanced.bracketed
  obtain ⟨back, returns⟩ := reindexes.exists_back
  have own (other : Text) (member : other ∈ assignment.tokens) : back (rename other) = other :=
    returns other (List.mem_append_left _ ((bound other).mp member))
  have standsAgain : ∀ token ∈ assignment.tokens.map rename,
      Stands other (Derives other (.matching engine (grammar.leafVariables wildcard)) direction)
        token (assignment.valueOf (back token)) (read (back token)) (written (back token)) := by
    intro token member
    obtain ⟨original, occurs, rfl⟩ := List.mem_map.mp member
    simpa only [own original occurs] using stands original occurs
  have plainAgain : ∀ token ∈ assignment.tokens.map rename,
      (read (back token)).Plain ∧ (written (back token)).Plain := by
    intro token member
    obtain ⟨original, occurs, rfl⟩ := List.mem_map.mp member
    simpa only [own original occurs] using plain original occurs
  have boundAgain (other : Text) : other ∈ assignment.tokens.map rename ↔
      other ∈ Token.tokens grammar.variableNames
        (production.renamed grammar.variableNames rename).source := by
    rw [reindexes.tokens_source bracketed sides, List.mem_map, List.mem_map]
    simp only [bound]
  have member : assignment.renamed rename ∈ answers.map (Assignment.renamed rename) :=
    List.mem_map_of_mem entails
  rw [Assignment.renamed_eq_ofValues distinct own] at member
  rw [← reindexes.fill_side bracketed sides.source (fun _ => List.mem_append_left _) returns read,
    ← reindexes.fill_side bracketed sides.target (fun _ => List.mem_append_right _) returns written]
  exact (reindexes.balanced_renamed bracketed sides).derives bracketed rule
    (reindexes.answers balanced sides answer) member boundAgain plainAgain standsAgain

structure DerivationKey.Carried (engine : RegexEngine Compiled) (grammar other : Grammar)
    (wildcard : Text) (direction : Direction) (key : DerivationKey) : Prop where
  source : key.source.Plain
  target : key.target.Plain
  derives : ∀ token, grammar.nonterminalName? token = grammar.nonterminalName? key.token →
    Derives other (.matching engine (grammar.leafVariables wildcard)) direction
      ⟨key.subtext, token, key.source, key.target⟩

theorem Grammar.Alike.carried {key : DerivationKey}
    (derives : Derives grammar (.matching engine (grammar.leafVariables wildcard)) direction key) :
    key.subtext.Plain → key.Carried engine grammar other wildcard direction := by
  refine derives.induct
    (fun key => key.subtext.Plain → key.Carried engine grammar other wildcard direction) ?_
  intro subtext token production answers assignment result rule answer entails resolves plain
  have bracketed := balanced.bracketed
  have sides := balanced.of_rule rule
  have whole : result.subtext = subtext := resolves.subtext_eq
  rw [whole] at plain
  obtain ⟨distinct, bound, values⟩ :=
    Entailment.bindsTokens_matching _ _ _ plain answer assignment entails
  -- the texts that stand for the tokens of the rule
  rw [assignment.eq_ofValues distinct] at resolves
  obtain ⟨read, written, stands, rfl⟩ := exists_of_resolves distinct resolves
  have plainValue (other : Text) (member : other ∈ assignment.tokens) :
      (assignment.valueOf other).Plain := by
    obtain ⟨binding, inside, rfl⟩ := List.mem_map.mp member
    rw [Assignment.valueOf, Assignment.get?_of_mem distinct inside]
    exact values binding inside
  have plainSides (other : Text) (member : other ∈ assignment.tokens) :
      (read other).Plain ∧ (written other).Plain := by
    have value := plainValue other member
    cases kind : grammar.hasNonterminal other with
    | true =>
      have below := (stands other member).nonterminal kind value
      exact ⟨below.source, below.target⟩
    | false =>
      obtain ⟨same, alsoSame⟩ := (stands other member).terminal kind
      rw [same, alsoSame]
      exact ⟨value, value⟩
  rw [sides.resolvedBy_eq bracketed bound (fun other member => (plainSides other member).1)
    (fun other member => (plainSides other member).2)]
  have inSource (other : Text)
      (occurs : other ∈ Token.tokens grammar.variableNames production.source) :
      other ∈ assignment.tokens := (bound other).mpr occurs
  have inTarget (other : Text)
      (occurs : other ∈ Token.tokens grammar.variableNames production.target) :
      other ∈ assignment.tokens := inSource other (sides.read other occurs)
  refine ⟨?_, ?_, fun otherToken named => ?_⟩
  · exact Token.plain_fill sides.source fun other occurs =>
      ⟨_, rfl, (plainSides other (inSource other occurs)).1⟩
  · exact Token.plain_fill sides.target fun other occurs =>
      ⟨_, rfl, (plainSides other (inTarget other occurs)).2⟩
  · obtain ⟨same, alsoRule, rename, reindexes, rfl⟩ := alike.exists_rule rule named
    apply reindexes.derives balanced sides alsoRule answer entails distinct bound plainSides
    intro other member
    have here := stands other member
    have occurs := List.mem_append_left
      (Token.tokens grammar.variableNames production.target) ((bound other).mp member)
    have sameNonterminal :=
      Grammar.nonterminalName?_of_sameName balanced (reindexes.keeps other occurs)
    have sameKind : grammar.hasNonterminal (rename other) = grammar.hasNonterminal other := by
      rw [Grammar.hasNonterminal, Grammar.hasNonterminal, sameNonterminal]
    constructor
    · rw [alike.hasNonterminal_eq, sameKind]
      intro isNonterminal
      have below := here.nonterminal isNonterminal (plainValue other member)
      exact below.derives (rename other) sameNonterminal
    · rw [alike.hasNonterminal_eq, sameKind]
      exact here.terminal

end Carrying

namespace Translator

section Alike

variable {Compiled : Type} {engine : RegexEngine Compiled} {translator other : Translator}
  {direction : Direction} {wildcard text : Text}
  (alike : translator.grammar.Alike other.grammar) (balanced : translator.grammar.Balanced)
  (matching : translator.entailment = .matching engine (translator.grammar.leafVariables wildcard))
  (alsoMatching : other.entailment = .matching engine (other.grammar.leafVariables wildcard))

include alike balanced matching alsoMatching

theorem answered_of_alike (answered : translator.Answered text direction) :
    other.Answered text direction := by
  intro key demanded
  rw [alsoMatching] at demanded ⊢
  obtain ⟨subtext, token, production, otherToken, same, rfl, rule, turned, also⟩ :=
    (alike.symm balanced).exists_demanded (alike.balanced_other balanced) demanded
  rw [alike.leafVariables_eq] at also ⊢
  rw [← matching] at also
  obtain ⟨answers, answer⟩ := answered _ also
  rw [matching] at answer
  have bracketed := balanced.bracketed
  have sides := (alike.balanced_other balanced).of_rule rule
  rw [alike.variableNames_eq] at sides turned
  obtain ⟨rename, reindexes, rfl⟩ := turned.symm bracketed sides
  exact ⟨_, reindexes.answers balanced (turned.balanced_other bracketed sides) answer⟩

theorem derivesTarget_of_alike (plain : text.Plain) {target : Text}
    (derives : translator.DerivesTarget text direction target) :
    other.DerivesTarget text direction target := by
  obtain ⟨source, derives⟩ := derives
  rw [matching] at derives
  have carried := alike.carried balanced derives plain
  refine ⟨source, ?_⟩
  rw [alsoMatching, alike.leafVariables_eq]
  exact carried.derives other.grammar.root (by rw [alike.root])

end Alike

theorem exists_targets_of_matching {Compiled : Type} {engine : RegexEngine Compiled}
    {translator : Translator} {direction : Direction} {wildcard text : Text}
    (balanced : translator.grammar.Balanced)
    (matching :
      translator.entailment = .matching engine (translator.grammar.leafVariables wildcard))
    (plain : text.Plain) (acyclic : translator.grammar.unitCycles = [])
    (confined : translator.entailment.Confined translator.grammar)
    (allowed : translator.config.directions.allows direction = true)
    (answered : translator.Answered text direction) :
    ∃ targets, translator.Yields text direction (.ok targets) ∧ targets.Pairwise (· < ·) ∧
      ∀ target, target ∈ targets ↔ translator.DerivesTarget text direction target := by
  have binds : translator.entailment.BindsTokens translator.grammar.variableNames :=
    matching ▸ Entailment.bindsTokens_matching
  obtain ⟨down, ends⟩ := exists_downEnds confined text direction
  obtain ⟨up, ended⟩ := exists_wayUp_endsIn confined ends.reached _
  exact exists_targets_of_balanced balanced binds plain acyclic allowed ends
    (answered.succeeded ends) ended

theorem answered_of_yields {translator : Translator} {direction : Direction} {text : Text}
    {targets : List Text} (yields : translator.Yields text direction (.ok targets)) :
    translator.config.directions.allows direction = true ∧ translator.Answered text direction := by
  cases allowed : translator.config.directions.allows direction with
  | false => cases eq_unsupported_of_yields allowed yields
  | true =>
    rcases (outcome_of_yields allowed yields).failed_or_collected with
      ⟨down, failure, ends, failed, same⟩ | ⟨down, up, ends, succeeded, -, -⟩
    · cases same
    · refine ⟨rfl, fun key demanded => ?_⟩
      obtain ⟨answers, answer, -⟩ := Downward.answered_of_demanded ends succeeded demanded
      exact ⟨answers, answer⟩

theorem yields_of_alike {Compiled : Type} {engine : RegexEngine Compiled} {inside : Text → Prop}
    {translator other : Translator} {direction : Direction} {wildcard text : Text}
    {targets : List Text} (faithful : engine.Faithful inside)
    (alike : translator.grammar.Alike other.grammar) (balanced : translator.grammar.Balanced)
    (matching :
      translator.entailment = .matching engine (translator.grammar.leafVariables wildcard))
    (alsoMatching : other.entailment = .matching engine (other.grammar.leafVariables wildcard))
    (configured : other.config = translator.config)
    (contained : translator.grammar.Contained inside wildcard)
    (acyclic : translator.grammar.unitCycles = []) (plain : text.Plain)
    (yields : translator.Yields text direction (.ok targets)) :
    other.Yields text direction (.ok targets) := by
  have bracketed := balanced.bracketed
  have alsoBalanced := alike.balanced_other balanced
  have back := alike.symm balanced
  have confined : translator.entailment.Confined translator.grammar := by
    rw [matching]
    exact (contained.sound faithful bracketed).confined bracketed
  have alsoContained : other.grammar.Contained inside wildcard := by
    rw [Grammar.Contained, alike.variables]
    exact contained
  have alsoConfined : other.entailment.Confined other.grammar := by
    rw [alsoMatching]
    exact (alsoContained.sound faithful alsoBalanced.bracketed).confined alsoBalanced.bracketed
  obtain ⟨allowed, answered⟩ := answered_of_yields yields
  obtain ⟨found, yieldsFound, ascending, derived⟩ :=
    exists_targets_of_matching balanced matching plain acyclic confined allowed answered
  obtain ⟨others, yieldsOthers, alsoAscending, alsoDerived⟩ :=
    exists_targets_of_matching alsoBalanced alsoMatching plain
      (alike.unitCycles_eq balanced ▸ acyclic) alsoConfined (configured ▸ allowed)
      (answered_of_alike alike balanced matching alsoMatching answered)
  cases yields.unique yieldsFound
  have same : others = targets := by
    refine Text.eq_of_mem_iff alsoAscending ascending fun target => ?_
    rw [derived, alsoDerived]
    constructor
    · exact derivesTarget_of_alike back alsoBalanced alsoMatching matching plain
    · exact derivesTarget_of_alike alike balanced matching alsoMatching plain
  exact same ▸ yieldsOthers

theorem isOk_ofConfig_of_alike {Compiled : Type} {engine : RegexEngine Compiled}
    {grammar other : Grammar} {config : TranslatorConfig}
    (alike : grammar.Alike other) (balanced : grammar.Balanced)
    (builds : (ofConfig engine grammar config).isOk = true) :
    (ofConfig engine other config).isOk = true := by
  rw [isOk_ofConfig_iff] at builds ⊢
  intro hypothesis member
  obtain ⟨⟨name, otherTable⟩, listed, member⟩ := List.mem_flatMap.mp member
  obtain ⟨same, inside, side⟩ := List.mem_flatMap.mp member
  obtain ⟨table, own, -, back⟩ :=
    alike.exists_table ((NameTable.get?_eq_some_iff _ _ _).mpr listed)
  obtain ⟨production, stands, rename, reindexes, rfl⟩ := back same inside
  have entry := (NameTable.get?_eq_some_iff _ _ _).mp own
  have sides := balanced.rules _ entry production stands
  have compiles {text : Text} (legible : Token.Legible grammar.variableNames text)
      (occurs : ∀ token ∈ Token.tokens grammar.variableNames text,
        token ∈ production.tokens grammar.variableNames)
      (isSide : text ∈ [production.source, production.target]) :
      (Pattern.compile engine (other.leafVariables config.wildcard)
        (Token.renamed grammar.variableNames rename text)).isOk = true := by
    have compiled := builds text
      (List.mem_flatMap.mpr ⟨_, entry, List.mem_flatMap.mpr ⟨production, stands, isSide⟩⟩)
    cases made : Pattern.compile engine (grammar.leafVariables config.wildcard) text with
    | error error =>
      rw [made] at compiled
      cases compiled
    | ok pattern =>
      have renamed := @Pattern.compile_renamed _ engine (grammar.leafVariables config.wildcard)
        rename pattern text
      rw [grammar.names_leafVariables] at renamed
      rw [alike.leafVariables_eq, renamed balanced.bracketed legible.wellCut
        (fun token member => reindexes.keeps token (occurs token member))
        (fun token member other alsoMember => reindexes.injective token (occurs token member)
          other (occurs other alsoMember)) made]
      rfl
  simp only [List.mem_cons, List.not_mem_nil, or_false] at side
  rcases side with rfl | rfl
  · exact compiles sides.source (fun _ => List.mem_append_left _) List.mem_cons_self
  · exact compiles sides.target (fun _ => List.mem_append_right _)
      (List.mem_cons_of_mem _ List.mem_cons_self)

/-- Without unit cycles and with matching as entailment, a grammar can be given other indices, rule
by rule, and no plain text is translated in another way. -/
theorem indices_are_only_names {Compiled : Type} {engine : RegexEngine Compiled}
    {inside : Text → Prop} {grammar : Grammar} {config : TranslatorConfig}
    {rename : Text → Production → Text → Text} (faithful : engine.Faithful inside)
    (acyclic : grammar.unitCycles = []) (balanced : grammar.Balanced)
    (contained : grammar.Contained inside config.wildcard)
    (reindexes : ∀ entry ∈ grammar.rules.entries, ∀ production ∈ entry.2.productions,
      production.Reindexes grammar.variableNames (rename entry.1 production)) :
    ((ofConfig engine grammar config).isOk = true ↔
      (ofConfig engine (grammar.reindexed rename) config).isOk = true) ∧
    ∀ translator other, ofConfig engine grammar config = .ok translator →
      ofConfig engine (grammar.reindexed rename) config = .ok other →
      ∀ text direction targets, text.Plain →
        (translator.Yields text direction (.ok targets) ↔
          other.Yields text direction (.ok targets)) := by
  have alike := Grammar.alike_reindexed reindexes
  have back := alike.symm balanced
  have alsoBalanced := alike.balanced_other balanced
  refine ⟨⟨isOk_ofConfig_of_alike alike balanced, isOk_ofConfig_of_alike back alsoBalanced⟩, ?_⟩
  intro translator other built alsoBuilt text direction targets plain
  obtain ⟨rfl, configured, matching⟩ := of_ofConfig built
  obtain ⟨same, alsoConfigured, alsoMatching⟩ := of_ofConfig alsoBuilt
  rw [← same] at alike back alsoBalanced alsoMatching
  constructor
  · exact yields_of_alike faithful alike balanced matching alsoMatching
      (alsoConfigured.trans configured.symm) contained acyclic plain
  · refine yields_of_alike faithful back alsoBalanced alsoMatching matching
      (configured.trans alsoConfigured.symm) ?_ (alike.unitCycles_eq balanced ▸ acyclic) plain
    rw [Grammar.Contained, alike.variables]
    exact contained

def otherIndices : Text → Production → Text → Text := fun _ _ token =>
  if token = "<n>1".toList then "<n>".toList
  else if token = "<n>2".toList then "<n>10".toList
  else token

theorem indices_are_only_names_swapping :
    Regex.engine.Faithful Regex.StaysInside ∧ swapping.unitCycles = [] ∧ swapping.Balanced ∧
      swapping.Contained Regex.StaysInside TranslatorConfig.standard.wildcard ∧
      (∀ entry ∈ swapping.rules.entries, ∀ production ∈ entry.2.productions,
        production.Reindexes swapping.variableNames (otherIndices entry.1 production)) ∧
      Text.Plain "a+b".toList ∧
      ∃ translator other, ofConfig Regex.engine swapping .standard = .ok translator ∧
        ofConfig Regex.engine (swapping.reindexed otherIndices) .standard = .ok other ∧
        translator.Yields "a+b".toList .forward (.ok ["B,A".toList]) ∧
        other.Yields "a+b".toList .forward (.ok ["B,A".toList]) := by
  have acyclic : swapping.unitCycles = [] := by decide +kernel
  have balanced : swapping.Balanced := by decide +kernel
  have contained : swapping.Contained Regex.StaysInside TranslatorConfig.standard.wildcard :=
    ⟨Regex.staysInside_anything, fun _ member => by cases member⟩
  have reindexes : ∀ entry ∈ swapping.rules.entries, ∀ production ∈ entry.2.productions,
      production.Reindexes swapping.variableNames (otherIndices entry.1 production) := by
    decide +kernel
  have plain : Text.Plain "a+b".toList := by decide
  have built := @ofConfig_eq_ok _ Regex.engine swapping .standard (by decide +kernel)
  have alsoBuilt := @ofConfig_eq_ok _ Regex.engine (swapping.reindexed otherIndices) .standard
    (by decide +kernel)
  have onlyNames :=
    indices_are_only_names Regex.faithful_engine acyclic balanced contained reindexes
  have same := onlyNames.2 _ _ built alsoBuilt "a+b".toList .forward ["B,A".toList] plain
  have run := same.mp ⟨200, by decide +kernel⟩
  exact ⟨Regex.faithful_engine, acyclic, balanced, contained, reindexes, plain, _, _, built,
    alsoBuilt, same.mpr run, run⟩

end Translator

end SyncGrammar
