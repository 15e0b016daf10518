import SyncGrammar.Proofs.Building

/-!
What is built, told from the steps that were made. The root, the rules of each nonterminal and the
expression of each variable are read off the history as a whole, in whatever order its steps come;
so is the fault, if the history has one.
-/
namespace SyncGrammar

namespace BuildStep

def rootName? : BuildStep → Option Text
  | root name => some name
  | _ => none

def owner? : BuildStep → Option Text
  | rule nonterminal _ _ => some nonterminal
  | _ => none

def productionFor? (name : Text) : BuildStep → Option Production
  | rule nonterminal source target =>
    if nonterminal = name then some ⟨source, target⟩ else none
  | _ => none

def regexFor? (name : Text) : BuildStep → Option Text
  | «variable» other regex => if other = name then some regex else none
  | _ => none

end BuildStep

abbrev BuildHistory := List BuildStep

namespace BuildHistory

/-- The root that was set last, or else the first nonterminal that got a rule. -/
def root? (history : BuildHistory) : Option Text :=
  (history.reverse.findSome? BuildStep.rootName?).or (history.findSome? BuildStep.owner?)

def productions (history : BuildHistory) (name : Text) : List Production :=
  (history.filterMap (BuildStep.productionFor? name)).eraseDups

def table? (history : BuildHistory) (name : Text) : Option RuleTable :=
  if history.productions name = [] then none else some ⟨history.productions name⟩

def regex? (history : BuildHistory) (name : Text) : Option Text :=
  history.reverse.findSome? (BuildStep.regexFor? name)

def GotRule (history : BuildHistory) (name : Text) : Prop :=
  ∃ source target, .rule name source target ∈ history

def GotEmptySide (history : BuildHistory) (name : Text) : Prop :=
  ∃ source target, .rule name source target ∈ history ∧ (source = [] ∨ target = [])

/-- What becomes of a history: a fault, the first of the kinds in this order, or a grammar. -/
inductive Builds (history : BuildHistory) : Except ConfigurationError Grammar → Prop
  | missingRoot (unrooted : history.root? = none) : Builds history (.error .missingRoot)
  | missingRootRules {root : Text} (rooted : history.root? = some root)
    (bare : ¬ history.GotRule root) : Builds history (.error (.missingRootRules root))
  | emptyRuleSide {root name : Text} (rooted : history.root? = some root)
    (ruled : history.GotRule root) (empty : history.GotEmptySide name)
    (least : ∀ other, history.GotEmptySide other → other = name ∨ name.utf8 < other.utf8) :
    Builds history (.error (.emptyRuleSide name))
  | succeeds {grammar : Grammar} (rooted : history.root? = some grammar.root)
    (ruled : history.GotRule grammar.root) (filled : ∀ name, ¬ history.GotEmptySide name)
    (rules : ∀ name, grammar.rules.get? name = history.table? name)
    (expressions : ∀ name, grammar.variables.get? name = history.regex? name) :
    Builds history (.ok grammar)

end BuildHistory

theorem RuleTable.mem_ofList_iff_hasEmptySide {productions : List Production} :
    (ofList productions).hasEmptySide = true ↔
      ∃ production ∈ productions, production.source = [] ∨ production.target = [] := by
  simp [hasEmptySide, mem_ofList]

theorem NameTable.least_of_find? {α : Type} {table : NameTable α} {p : Text × α → Bool}
    {entry other : Text × α} (found : table.entries.find? p = some entry)
    (listed : other ∈ table.entries) (holds : p other = true) :
    other.1 = entry.1 ∨ entry.1 < other.1 := by
  obtain ⟨-, before, after, split, none⟩ := List.find?_eq_some_iff_append.mp found
  have ascending := (List.pairwise_append.mp (split ▸ table.ascending)).2.1
  rw [split] at listed
  rcases List.mem_append.mp listed with front | rest
  · have fails := none other front
    rw [holds] at fails
    cases fails
  · rcases List.mem_cons.mp rest with rfl | behind
    · exact Or.inl rfl
    · exact Or.inr (List.rel_of_pairwise_cons ascending behind)

namespace GrammarBuilder

open BuildHistory

theorem ofSteps_concat (history : BuildHistory) (step : BuildStep) :
    ofSteps (history ++ [step]) = (ofSteps history).step step := by
  rw [ofSteps, List.foldl_append]
  rfl

theorem root_ofSteps (history : BuildHistory) : (ofSteps history).root = history.root? := by
  induction history using List.reverseRecOn with
  | nil => rfl
  | append_singleton history step ih =>
    rw [ofSteps_concat, root?, List.reverse_concat, List.findSome?_cons, List.findSome?_append]
    cases step with
    | root name => rfl
    | «variable» name regex =>
      show (ofSteps history).root = _
      rw [ih, root?]
      simp [BuildStep.rootName?, BuildStep.owner?]
    | rule nonterminal source target =>
      show some ((ofSteps history).root.getD nonterminal) = _
      rw [ih, root?]
      cases history.reverse.findSome? BuildStep.rootName? with
      | some last => rfl
      | none => cases history.findSome? BuildStep.owner? <;> rfl

theorem get?_rules_ofSteps (history : BuildHistory) (name : Text) :
    (ofSteps history).rules.get? name =
      if history.filterMap (BuildStep.productionFor? name) = [] then none
      else some (.ofList (history.filterMap (BuildStep.productionFor? name))) := by
  induction history using List.reverseRecOn with
  | nil => rfl
  | append_singleton history step ih =>
    rw [ofSteps_concat, List.filterMap_append]
    cases step with
    | root other =>
      have nothing : [BuildStep.root other].filterMap (BuildStep.productionFor? name) = [] := rfl
      rw [nothing, List.append_nil]
      exact ih
    | «variable» other regex =>
      have nothing : [BuildStep.variable other regex].filterMap (BuildStep.productionFor? name) =
        [] := rfl
      rw [nothing, List.append_nil]
      exact ih
    | rule nonterminal source target =>
      show ((ofSteps history).rules.alter nonterminal _).get? name = _
      rw [NameTable.get?_alter]
      by_cases named : nonterminal = name
      · subst named
        rw [ih]
        simp only [if_pos, List.filterMap_cons, BuildStep.productionFor?, List.filterMap_nil,
          RuleTable.ofList_concat, List.append_eq_nil_iff, reduceCtorEq, and_false, if_false]
        split
        · rename_i nothing
          rw [nothing]
          rfl
        · rfl
      · rw [if_neg named, ih]
        simp [BuildStep.productionFor?, named]

theorem table?_ofSteps (history : BuildHistory) (name : Text) :
    (ofSteps history).rules.get? name = history.table? name := by
  rw [get?_rules_ofSteps, table?, productions]
  generalize history.filterMap (BuildStep.productionFor? name) = added
  by_cases nothing : added = []
  · rw [nothing]
    rfl
  · have something : added.eraseDups ≠ [] := by
      obtain ⟨first, rest, rfl⟩ := List.exists_cons_of_ne_nil nothing
      simp [List.eraseDups_cons]
    rw [if_neg nothing, if_neg something, ← RuleTable.productions_ofList]

theorem regex?_ofSteps (history : BuildHistory) (name : Text) :
    (ofSteps history).variables.get? name = history.regex? name := by
  induction history using List.reverseRecOn with
  | nil => rfl
  | append_singleton history step ih =>
    rw [ofSteps_concat, regex?, List.reverse_concat, List.findSome?_cons]
    cases step with
    | root other => exact ih
    | rule nonterminal source target => exact ih
    | «variable» other regex =>
      show ((ofSteps history).variables.insert other regex).get? name = _
      rw [NameTable.get?_insert, ih]
      by_cases named : other = name
      · simp [BuildStep.regexFor?, named]
      · simp [BuildStep.regexFor?, named, regex?]

theorem mem_productionsFor {history : BuildHistory} {name : Text} {production : Production} :
    production ∈ history.filterMap (BuildStep.productionFor? name) ↔
      .rule name production.source production.target ∈ history := by
  rw [List.mem_filterMap]
  constructor
  · rintro ⟨step, member, added⟩
    cases step with
    | root other => cases added
    | «variable» other regex => cases added
    | rule nonterminal source target =>
      by_cases named : nonterminal = name
      · rw [BuildStep.productionFor?, if_pos named] at added
        cases added
        exact named ▸ member
      · rw [BuildStep.productionFor?, if_neg named] at added
        cases added
  · intro member
    exact ⟨_, member, if_pos rfl⟩

theorem contains_ofSteps_iff {history : BuildHistory} {name : Text} :
    (ofSteps history).rules.contains name = true ↔ history.GotRule name := by
  rw [← NameTable.isSome_get?, get?_rules_ofSteps]
  constructor
  · intro known
    split at known
    · cases known
    · rename_i something
      obtain ⟨production, added⟩ := List.exists_mem_of_ne_nil _ something
      exact ⟨_, _, mem_productionsFor.mp added⟩
  · rintro ⟨source, target, member⟩
    have added : ⟨source, target⟩ ∈ history.filterMap (BuildStep.productionFor? name) :=
      mem_productionsFor.mpr member
    rw [if_neg (List.ne_nil_of_mem added)]
    rfl

theorem gotEmptySide_iff {history : BuildHistory} {name : Text} :
    history.GotEmptySide name ↔ ∃ entry ∈ (ofSteps history).rules.entries,
      entry.1 = name ∧ entry.2.hasEmptySide = true := by
  constructor
  · rintro ⟨source, target, member, empty⟩
    have added : ⟨source, target⟩ ∈ history.filterMap (BuildStep.productionFor? name) :=
      mem_productionsFor.mpr member
    have stored := get?_rules_ofSteps history name
    rw [if_neg (List.ne_nil_of_mem added)] at stored
    exact ⟨_, (NameTable.get?_eq_some_iff _ _ _).mp stored, rfl,
      RuleTable.mem_ofList_iff_hasEmptySide.mpr ⟨_, added, empty⟩⟩
  · rintro ⟨⟨_, table⟩, listed, rfl, empty⟩
    have stored := (NameTable.get?_eq_some_iff _ _ _).mpr listed
    rw [get?_rules_ofSteps] at stored
    split at stored
    · cases stored
    · cases stored
      obtain ⟨production, added, side⟩ := RuleTable.mem_ofList_iff_hasEmptySide.mp empty
      exact ⟨_, _, mem_productionsFor.mp added, side⟩

theorem builds_build (history : BuildHistory) : history.Builds (ofSteps history).build := by
  have rooted := root_ofSteps history
  unfold build
  split
  · rename_i unrooted
    exact .missingRoot (rooted ▸ unrooted)
  · rename_i root isRoot
    rw [rooted] at isRoot
    split
    · rename_i known
      have ruled := contains_ofSteps_iff.mp known
      split
      · rename_i entry found
        have listed := List.mem_of_find?_eq_some found
        have holds := List.find?_some found
        have empty : history.GotEmptySide entry.1 :=
          gotEmptySide_iff.mpr ⟨entry, listed, rfl, holds⟩
        refine .emptyRuleSide isRoot ruled empty fun other alsoEmpty => ?_
        obtain ⟨another, alsoListed, rfl, holds⟩ := gotEmptySide_iff.mp alsoEmpty
        exact (NameTable.least_of_find? found alsoListed holds).imp_right Text.utf8_lt_iff.mpr
      · rename_i none
        refine .succeeds isRoot ruled (fun name empty => ?_) (table?_ofSteps history)
          (regex?_ofSteps history)
        obtain ⟨entry, listed, -, holds⟩ := gotEmptySide_iff.mp empty
        exact List.find?_eq_none.mp none entry listed holds
    · rename_i unknown
      exact .missingRootRules isRoot (mt contains_ofSteps_iff.mpr unknown)

theorem build_eq_of_builds {history : BuildHistory} {outcome : Except ConfigurationError Grammar}
    (builds : history.Builds outcome) : (ofSteps history).build = outcome := by
  cases builds with
  | missingRoot unrooted => rw [build, root_ofSteps, unrooted]
  | missingRootRules rooted bare =>
    have unknown := mt contains_ofSteps_iff.mp bare
    simp only [build, root_ofSteps, rooted, unknown, Bool.false_eq_true, if_false]
  | @emptyRuleSide root name rooted ruled empty least =>
    have known := contains_ofSteps_iff.mpr ruled
    obtain ⟨other, alsoListed, named, alsoHolds⟩ := gotEmptySide_iff.mp empty
    simp only [build, root_ofSteps, rooted, known, if_true]
    split
    · rename_i entry found
      have holds := List.find?_some found
      have first := least entry.1
        (gotEmptySide_iff.mpr ⟨entry, List.mem_of_find?_eq_some found, rfl, holds⟩)
      rcases NameTable.least_of_find? found alsoListed alsoHolds with same | below
      · rw [← same, named]
      · rw [named] at below
        rcases first with same | above
        · rw [same]
        · exact absurd (Text.utf8_lt_iff.mp above) (List.lt_asymm below)
    · rename_i none
      exact absurd alsoHolds (List.find?_eq_none.mp none other alsoListed)
  | @succeeds grammar rooted ruled filled rules expressions =>
    have full : ∀ entry ∈ (ofSteps history).rules.entries, entry.2.hasEmptySide = false := by
      intro entry listed
      rw [← Bool.not_eq_true]
      exact fun holds => filled entry.1 (gotEmptySide_iff.mpr ⟨entry, listed, rfl, holds⟩)
    rw [build_eq_ok (contains_ofSteps_iff.mpr ruled) full ((root_ofSteps history).trans rooted)]
    have sameRules : (ofSteps history).rules = grammar.rules :=
      NameTable.eq_of_get?_eq fun name => (table?_ofSteps history name).trans (rules name).symm
    have sameVariables : (ofSteps history).variables = grammar.variables :=
      NameTable.eq_of_get?_eq fun name =>
        (regex?_ofSteps history name).trans (expressions name).symm
    rw [sameRules, sameVariables]

/-- A builder makes of its steps what the history of them says. What is built has a root with rules,
no table without rules, no empty side, and no production twice. -/
theorem builds_what_history_says (history : BuildHistory) :
    (∀ outcome, (ofSteps history).build = outcome ↔ history.Builds outcome) ∧
      ∀ grammar, (ofSteps history).build = .ok grammar →
        (∃ table, grammar.rules.get? grammar.root = some table) ∧
          ∀ entry ∈ grammar.rules.entries,
            entry.2.productions ≠ [] ∧ entry.2.productions.Nodup ∧
              ∀ production ∈ entry.2.productions,
                production.source ≠ [] ∧ production.target ≠ [] := by
  refine ⟨fun outcome => ⟨fun same => same ▸ builds_build history, build_eq_of_builds⟩,
    fun grammar built => ?_⟩
  have wellFormed := wellFormed_of_build built
  refine ⟨?_, fun entry listed => ?_⟩
  · rw [← Option.isSome_iff_exists, NameTable.isSome_get?]
    exact wellFormed.rooted
  · have tidy := wellFormed.tidy entry listed
    exact ⟨tidy.nonempty, tidy.distinct, fun production rule => wellFormed.sides_ne_nil listed rule⟩

def interleaved : BuildHistory := [
  .rule "b".toList "x".toList "y".toList, .variable "v".toList "1".toList, .root "r".toList,
  .rule "r".toList "p v".toList "q".toList, .rule "b".toList "z".toList "w".toList,
  .rule "b".toList "x".toList "y".toList, .variable "v".toList "2".toList]

theorem builds_what_history_says_interleaved :
    let grammar : Grammar := ⟨"r".toList, .ofList [
      ("b".toList, .ofList [⟨"x".toList, "y".toList⟩, ⟨"z".toList, "w".toList⟩]),
      ("r".toList, .ofList [⟨"p v".toList, "q".toList⟩])], .ofList [("v".toList, "2".toList)]⟩
    (ofSteps interleaved).build = .ok grammar ∧ interleaved.Builds (.ok grammar) ∧
      ∃ table, grammar.rules.get? "r".toList = some table := by
  intro grammar
  have built : (ofSteps interleaved).build = .ok grammar := by decide +kernel
  obtain ⟨told, sound⟩ := builds_what_history_says interleaved
  exact ⟨built, (told _).mp built, (sound _ built).1⟩

end GrammarBuilder

end SyncGrammar
