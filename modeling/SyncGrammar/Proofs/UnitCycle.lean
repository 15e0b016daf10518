import Mathlib.Data.Finset.Card
import Mathlib.Data.Finset.SDiff
import Mathlib.Data.Finset.Filter
import SyncGrammar.Grammar.UnitCycle
import SyncGrammar.Proofs.CycleSearch

/-!
Unit cycles as cycles of a relation. A step to a nonterminal off every cycle enlarges the set of
nonterminals that lead to where one is, which is why following such steps comes to an end.
-/
namespace SyncGrammar

namespace Token

theorem length_flatten_tokens_le (cut : List Segment) :
    (cut.filterMap Segment.token?).flatten.length ≤ (cut.flatMap Segment.text).length := by
  induction cut with
  | nil => exact Nat.le_refl _
  | cons segment rest ih =>
    cases segment with
    | literal c =>
      simp only [List.filterMap_cons, Segment.token?, Segment.text, List.flatMap_cons,
        List.length_append]
      omega
    | token name index =>
      simp only [List.filterMap_cons, Segment.token?, Segment.text, List.flatMap_cons,
        List.flatten_cons, List.length_append]
      omega

theorem onlyTokens_iff_flatten {names : List Text} {text : Text} :
    onlyTokens names text = true ↔ (tokens names text).flatten = text := by
  have whole := flatMap_text_segments names text
  rw [onlyTokens, tokens]
  nth_rewrite 3 [← whole]
  generalize segments names text = cut
  induction cut with
  | nil => simp
  | cons segment rest ih =>
    cases segment with
    | literal c =>
      have short := length_flatten_tokens_le rest
      simp only [List.all_cons, Segment.token?, Option.isSome_none, Bool.false_and,
        Bool.false_eq_true, List.filterMap_cons, List.flatMap_cons, Segment.text, false_iff]
      intro same
      have level := congrArg List.length same
      simp only [List.length_append, List.length_singleton] at level
      omega
    | token name index =>
      simp only [List.all_cons, Segment.token?, Option.isSome_some, Bool.true_and,
        List.filterMap_cons, List.flatten_cons, List.flatMap_cons, Segment.text,
        List.append_cancel_left_eq]
      exact ih

end Token

namespace Grammar

variable {grammar : Grammar}

/-- Some side of a rule of `name` consists of tokens alone, one of which stands for `next`. -/
def Leads (grammar : Grammar) (name next : Text) : Prop :=
  next ∈ grammar.unitSuccessors name

theorem mem_unitNonterminals {side next : Text} :
    next ∈ grammar.unitNonterminals side ↔
      Token.onlyTokens grammar.variableNames side = true ∧
        ∃ token ∈ Token.tokens grammar.variableNames side,
          grammar.nonterminalName? token = some next := by
  unfold unitNonterminals
  split
  · rename_i only
    simp [only, List.mem_filterMap]
  · rename_i mixed
    simp [mixed]

theorem leads_iff {name next : Text} :
    grammar.Leads name next ↔ ∃ table, grammar.rules.get? name = some table ∧
      ∃ production ∈ table.productions, next ∈ grammar.unitNonterminals production.source ∨
        next ∈ grammar.unitNonterminals production.target := by
  unfold Leads unitSuccessors
  cases grammar.rules.get? name with
  | none => simp
  | some table => simp [List.mem_eraseDups, List.mem_flatMap]

theorem nonterminal_of_leads {name next : Text} (leads : grammar.Leads name next) :
    next ∈ grammar.nonterminals := by
  obtain ⟨_, _, _, _, either⟩ := leads_iff.mp leads
  have named : ∃ token, grammar.nonterminalName? token = some next := by
    rcases either with side | side
    all_goals
      obtain ⟨_, token, _, named⟩ := mem_unitNonterminals.mp side
      exact ⟨token, named⟩
  obtain ⟨token, named⟩ := named
  exact (NameTable.mem_names_iff _ _).mpr (contains_of_nonterminalName? named)

theorem leads_of_onlyTokens {direction : Direction} {token other next : Text}
    {production : Production} (rule : production ∈ grammar.orientedRules direction token)
    (only : Token.onlyTokens grammar.variableNames production.source = true)
    (occurs : other ∈ Token.tokens grammar.variableNames production.source)
    (named : grammar.nonterminalName? other = some next) :
    ∃ name, grammar.nonterminalName? token = some name ∧ grammar.Leads name next := by
  obtain ⟨table, found, member⟩ := mem_orientedRules.mp rule
  obtain ⟨name, own, stored⟩ := table?_eq_some_iff.mp found
  have side : next ∈ grammar.unitNonterminals production.source :=
    mem_unitNonterminals.mpr ⟨only, other, occurs, named⟩
  refine ⟨name, own, leads_iff.mpr ⟨table, stored, _, member, ?_⟩⟩
  cases direction with
  | forward => exact Or.inl side
  | backward => exact Or.inr side

theorem endsIn_searchUnitCycle (name : Text) :
    EndsIn (CycleSearch.step grammar.unitSuccessors name) (.start grammar.unitSuccessors name)
      (grammar.searchUnitCycle name) := by
  rw [searchUnitCycle]
  exact endsIn_runToEnd _ _

theorem isOnUnitCycle_iff {name : Text} :
    grammar.isOnUnitCycle name = true ↔ Relation.TransGen grammar.Leads name name :=
  CycleSearch.found_iff_of_endsIn (endsIn_searchUnitCycle name)

theorem mem_unitCycles_iff {name : Text} :
    name ∈ grammar.unitCycles ↔
      name ∈ grammar.nonterminals ∧ Relation.TransGen grammar.Leads name name := by
  rw [unitCycles, List.mem_filter, isOnUnitCycle_iff]

theorem unitCycles_eq_nil_of_terminals
    (source : ∀ entry ∈ grammar.rules.entries, ∀ production ∈ entry.2.productions,
      ∀ token ∈ Token.tokens grammar.variableNames production.source,
        grammar.nonterminalName? token = none)
    (target : ∀ entry ∈ grammar.rules.entries, ∀ production ∈ entry.2.productions,
      ∀ token ∈ Token.tokens grammar.variableNames production.target,
        grammar.nonterminalName? token = none) : grammar.unitCycles = [] := by
  apply List.eq_nil_iff_forall_not_mem.mpr
  intro name onCycle
  obtain ⟨next, leads, -⟩ := Relation.TransGen.head'_iff.mp (mem_unitCycles_iff.mp onCycle).2
  obtain ⟨table, found, production, member, either⟩ := leads_iff.mp leads
  have entry := (NameTable.get?_eq_some_iff _ _ _).mp found
  rcases either with inSource | inTarget
  · obtain ⟨-, token, occurs, named⟩ := mem_unitNonterminals.mp inSource
    rw [source _ entry production member token occurs] at named
    cases named
  · obtain ⟨-, token, occurs, named⟩ := mem_unitNonterminals.mp inTarget
    rw [target _ entry production member token occurs] at named
    cases named

open Classical in
noncomputable def unitAncestors (grammar : Grammar) (token : Text) : Finset Text :=
  grammar.nonterminals.toFinset.filter fun name =>
    ∃ own, grammar.nonterminalName? token = some own ∧
      Relation.ReflTransGen grammar.Leads name own

theorem mem_unitAncestors {token name own : Text}
    (named : grammar.nonterminalName? token = some own) :
    name ∈ grammar.unitAncestors token ↔
      name ∈ grammar.nonterminals ∧ Relation.ReflTransGen grammar.Leads name own := by
  simp [unitAncestors, named]

theorem unitAncestors_ssubset {parent child name next : Text}
    (own : grammar.nonterminalName? parent = some name)
    (other : grammar.nonterminalName? child = some next) (leads : grammar.Leads name next)
    (acyclic : next ∉ grammar.unitCycles) :
    grammar.unitAncestors parent ⊂ grammar.unitAncestors child := by
  have declared := nonterminal_of_leads leads
  refine Finset.ssubset_iff_of_subset ?_ |>.mpr ⟨next, ?_, ?_⟩
  · intro first above
    rw [mem_unitAncestors own] at above
    exact (mem_unitAncestors other).mpr ⟨above.1, above.2.tail leads⟩
  · exact (mem_unitAncestors other).mpr ⟨declared, .refl⟩
  · intro above
    have back := ((mem_unitAncestors own).mp above).2
    exact acyclic (mem_unitCycles_iff.mpr ⟨declared, .tail' back leads⟩)

/-- Some rule of `name` has a side that is nothing but tokens of declared names one after the other,
and `next` owns one of them. -/
def UnitRule (grammar : Grammar) (name next : Text) : Prop :=
  ∃ table, grammar.rules.get? name = some table ∧
    ∃ production ∈ table.productions, ∃ side ∈ [production.source, production.target],
      (Token.tokens grammar.variableNames side).flatten = side ∧
        ∃ token ∈ Token.tokens grammar.variableNames side,
          grammar.nonterminalName? token = some next

theorem leads_eq_unitRule : grammar.Leads = grammar.UnitRule := by
  ext name next
  simp only [leads_iff, mem_unitNonterminals, UnitRule, Token.onlyTokens_iff_flatten,
    List.mem_cons, List.not_mem_nil, or_false, exists_eq_or_imp, exists_eq_left]

theorem nonterminal_of_unitRule {name next : Text} (leads : grammar.UnitRule name next) :
    name ∈ grammar.nonterminals := by
  obtain ⟨table, stored, -⟩ := leads
  rw [nonterminals, NameTable.mem_names_iff, ← NameTable.isSome_get?, stored]
  rfl

/-- The nonterminals on a unit cycle are those that a chain of unit rules leads back to themselves.
In whatever order the successors are visited, each search ends and comes to the same result. -/
theorem finds_unit_cycles (grammar : Grammar) :
    (∃ tables, grammar.nonterminals.mapM grammar.rulesFor = .ok tables) ∧
      (∀ name, name ∈ grammar.unitCycles ↔ Relation.TransGen grammar.UnitRule name name) ∧
      ∀ successors : Text → List Text,
        (∀ name next, next ∈ successors name ↔ grammar.UnitRule name next) → ∀ name,
          ∃ last, EndsIn (CycleSearch.step successors name) (.start successors name) last ∧
            (last.found = true ↔ Relation.TransGen grammar.UnitRule name name) := by
  refine ⟨⟨_, grammar.mapM_rulesFor⟩, fun name => ?_, fun successors lists name => ?_⟩
  · rw [mem_unitCycles_iff, leads_eq_unitRule, and_iff_right_iff_imp]
    intro cycle
    obtain ⟨next, leads, -⟩ := Relation.TransGen.head'_iff.mp cycle
    exact nonterminal_of_unitRule leads
  · have leaves : ∀ place, place ∉ grammar.nonterminals → successors place = [] := by
      intro place unknown
      refine List.eq_nil_iff_forall_not_mem.mpr fun next listed => unknown ?_
      exact nonterminal_of_unitRule ((lists place next).mp listed)
    have lowered (search next : CycleSearch)
        (move : CycleSearch.step successors name search = some next) :=
      CycleSearch.workLeft_lt_of_step leaves move
    have ends := endsIn_runToEnd lowered (.start successors name)
    have same : CycleSearch.LeadsTo successors = grammar.UnitRule := by
      ext place next
      exact lists place next
    exact ⟨_, ends, same ▸ CycleSearch.found_iff_of_endsIn ends⟩

def mixedSides : Grammar :=
  ⟨"<s>".toList, .ofList [
    ("<s>".toList, .ofList [⟨"<a>".toList, "<a>".toList⟩]),
    ("<a>".toList, .ofList [⟨"<b>2<n>".toList, "2 <b>2".toList⟩, ⟨"a".toList, "A".toList⟩]),
    ("<b>".toList, .ofList [⟨"b <c>".toList, "<c><n>".toList⟩]),
    ("<c>".toList, .ofList [⟨"<a>".toList, "C".toList⟩])],
    .ofList [("<n>".toList, "[0-9]+".toList)]⟩

theorem finds_unit_cycles_mixedSides :
    (∀ name next, next ∈ (mixedSides.unitSuccessors name).reverse ↔
      mixedSides.UnitRule name next) ∧
    mixedSides.unitCycles = ["<a>".toList, "<b>".toList, "<c>".toList] ∧
    ∃ last,
      EndsIn (CycleSearch.step (fun name => (mixedSides.unitSuccessors name).reverse) "<c>".toList)
        (.start (fun name => (mixedSides.unitSuccessors name).reverse) "<c>".toList) last ∧
      last.found = true := by
  have lists : ∀ name next, next ∈ (mixedSides.unitSuccessors name).reverse ↔
      mixedSides.UnitRule name next := by
    intro name next
    rw [List.mem_reverse, ← leads_eq_unitRule]
    rfl
  have cycles : mixedSides.unitCycles = ["<a>".toList, "<b>".toList, "<c>".toList] := by
    decide +kernel
  obtain ⟨-, cyclic, ending⟩ := finds_unit_cycles mixedSides
  obtain ⟨last, ends, found⟩ := ending _ lists "<c>".toList
  exact ⟨lists, cycles, last, ends, found.mpr ((cyclic _).mp (cycles ▸ by decide))⟩

end Grammar

end SyncGrammar
