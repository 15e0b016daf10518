import Mathlib.Data.List.Sort
import SyncGrammar.Grammar.Builder
import SyncGrammar.Proofs.RuleTable

namespace SyncGrammar

namespace NameTable

variable {α : Type}

theorem eq_of_mem_entries_iff {first second : NameTable α}
    (same : ∀ entry, entry ∈ first.entries ↔ entry ∈ second.entries) : first = second := by
  obtain ⟨entries, ascending⟩ := first
  obtain ⟨others, alsoAscending⟩ := second
  have irreflexive : Std.Irrefl fun a b : Text × α => a.1 < b.1 :=
    ⟨fun entry => List.lt_irrefl entry.1⟩
  have asymmetric : Std.Antisymm fun a b : Text × α => a.1 < b.1 :=
    ⟨fun a b below above => absurd above (List.lt_asymm below)⟩
  have equal : entries = others := ascending.eq_of_mem_iff alsoAscending same
  subst equal
  rfl

theorem eq_of_get?_eq {first second : NameTable α}
    (same : ∀ name, first.get? name = second.get? name) : first = second := by
  apply eq_of_mem_entries_iff
  intro entry
  have known := same entry.1
  rw [← get?_eq_some_iff first entry.1 entry.2, ← get?_eq_some_iff second entry.1 entry.2, known]

theorem mem_entries_alter {table : NameTable α} {name : Text} {change : Option α → α}
    {entry : Text × α} :
    entry ∈ (table.alter name change).entries ↔
      if name = entry.1 then change (table.get? name) = entry.2 else entry ∈ table.entries := by
  rw [← get?_eq_some_iff (table.alter name change) entry.1 entry.2, get?_alter]
  split
  · exact Option.some_inj
  · exact get?_eq_some_iff table entry.1 entry.2

theorem mem_entries_insert {table : NameTable α} {name : Text} {value : α} {entry : Text × α} :
    entry ∈ (table.insert name value).entries ↔
      if name = entry.1 then value = entry.2 else entry ∈ table.entries :=
  mem_entries_alter

theorem alter_congr {table : NameTable α} {name : Text} {change other : Option α → α}
    (same : change (table.get? name) = other (table.get? name)) :
    table.alter name change = table.alter name other := by
  apply eq_of_mem_entries_iff
  intro entry
  rw [mem_entries_alter, mem_entries_alter, same]

theorem alter_alter (table : NameTable α) (name : Text) (first second : Option α → α) :
    (table.alter name first).alter name second =
      table.alter name fun old => second (some (first old)) := by
  apply eq_of_mem_entries_iff
  intro entry
  rw [mem_entries_alter, mem_entries_alter, mem_entries_alter, get?_alter, if_pos rfl]
  split <;> rfl

theorem mem_entries_foldl_insert {pairs : List (Text × α)} {table : NameTable α}
    (distinct : (pairs.map (·.1)).Nodup) (fresh : ∀ pair ∈ pairs, table.get? pair.1 = none)
    {entry : Text × α} :
    entry ∈ (pairs.foldl (fun table pair => table.insert pair.1 pair.2) table).entries ↔
      entry ∈ pairs ∨ entry ∈ table.entries := by
  induction pairs generalizing table with
  | nil => simp
  | cons pair rest ih =>
    rw [List.map_cons, List.nodup_cons] at distinct
    rw [List.forall_mem_cons] at fresh
    have others : ∀ other ∈ rest, (table.insert pair.1 pair.2).get? other.1 = none := by
      intro other member
      have different : pair.1 ≠ other.1 := fun same =>
        distinct.1 (same ▸ List.mem_map_of_mem member)
      rw [get?_insert, if_neg different]
      exact fresh.2 other member
    rw [List.foldl_cons, ih distinct.2 others, mem_entries_insert, List.mem_cons]
    by_cases named : pair.1 = entry.1
    · have absent : entry ∉ table.entries := by
        intro member
        have known := get?_of_mem table member
        rw [← named, fresh.1] at known
        cases known
      simp only [named, if_true, absent, or_false, Prod.ext_iff, true_and]
      rw [or_comm, eq_comm (a := entry.2)]
    · have different : entry ≠ pair := fun same => named (same ▸ rfl)
      simp [named, different]

theorem nodup_names (table : NameTable α) : (table.entries.map (·.1)).Nodup := by
  rw [List.nodup_iff_pairwise_ne, List.pairwise_map]
  refine table.ascending.imp fun {first second} below same => ?_
  exact List.lt_irrefl first.1 (same ▸ below)

end NameTable

namespace RuleTable

/-- A table that steps can have put together. -/
structure Tidy (table : RuleTable) : Prop where
  nonempty : table.productions ≠ []
  distinct : table.productions.Nodup

theorem tidy_insert {old : Option RuleTable} (tidy : ∀ table, old = some table → table.Tidy)
    (production : Production) : ((old.getD ∅).insert production).Tidy := by
  have member : production ∈ ((old.getD ∅).insert production).productions :=
    mem_insert.mpr (Or.inl rfl)
  refine ⟨List.ne_nil_of_mem member, nodup_insert production ?_⟩
  cases old with
  | none => exact List.nodup_nil
  | some table => exact (tidy table rfl).distinct

end RuleTable

namespace GrammarBuilder

def Tidy (builder : GrammarBuilder) : Prop :=
  ∀ entry ∈ builder.rules.entries, entry.2.Tidy

variable {builder : GrammarBuilder}

theorem Tidy.step (tidy : builder.Tidy) (step : BuildStep) : (builder.step step).Tidy := by
  cases step with
  | root name => exact tidy
  | «variable» name regex => exact tidy
  | rule nonterminal source target =>
    intro entry member
    rcases Decidable.em (nonterminal = entry.1) with here | elsewhere
    · have changed := NameTable.mem_entries_alter.mp member
      rw [if_pos here] at changed
      rw [← changed]
      refine RuleTable.tidy_insert (fun table known => ?_) _
      exact tidy (nonterminal, table) ((NameTable.get?_eq_some_iff _ _ _).mp known)
    · have kept := NameTable.mem_entries_alter.mp member
      rw [if_neg elsewhere] at kept
      exact tidy entry kept

theorem Tidy.steps (tidy : builder.Tidy) (steps : List BuildStep) :
    (steps.foldl GrammarBuilder.step builder).Tidy := by
  induction steps generalizing builder with
  | nil => exact tidy
  | cons first rest ih => exact ih (tidy.step first)

theorem tidy_ofSteps (steps : List BuildStep) : (ofSteps steps).Tidy := by
  have start : empty.Tidy := fun entry member => by cases member
  exact start.steps steps

theorem find?_hasEmptySide_eq_none_iff :
    builder.rules.entries.find? (·.2.hasEmptySide) = none ↔
      ∀ entry ∈ builder.rules.entries, entry.2.hasEmptySide = false := by
  simp only [List.find?_eq_none, Bool.not_eq_true]

theorem build_eq_ok {root : Text} (known : builder.rules.contains root = true)
    (filled : ∀ entry ∈ builder.rules.entries, entry.2.hasEmptySide = false)
    (rooted : builder.root = some root) :
    builder.build = .ok ⟨root, builder.rules, builder.variables⟩ := by
  simp only [build, rooted, known, find?_hasEmptySide_eq_none_iff.mpr filled, if_true]

theorem of_build_eq_ok {grammar : Grammar} (built : builder.build = .ok grammar) :
    builder.root = some grammar.root ∧ builder.rules = grammar.rules ∧
      builder.variables = grammar.variables ∧ grammar.rules.contains grammar.root = true ∧
        ∀ entry ∈ grammar.rules.entries, entry.2.hasEmptySide = false := by
  unfold build at built
  split at built
  · cases built
  · rename_i root rooted
    split at built
    · rename_i known
      split at built
      · cases built
      · rename_i checked
        cases built
        exact ⟨rooted, rfl, rfl, known, find?_hasEmptySide_eq_none_iff.mp checked⟩
    · cases built

end GrammarBuilder

/-- What holds of every grammar that has been built. -/
structure Grammar.WellFormed (grammar : Grammar) : Prop where
  rooted : grammar.rules.contains grammar.root = true
  tidy : ∀ entry ∈ grammar.rules.entries, entry.2.Tidy
  filled : ∀ entry ∈ grammar.rules.entries, entry.2.hasEmptySide = false

theorem GrammarBuilder.wellFormed_of_build {steps : List BuildStep} {grammar : Grammar}
    (built : (ofSteps steps).build = .ok grammar) : grammar.WellFormed := by
  obtain ⟨-, rules, -, known, filled⟩ := of_build_eq_ok built
  exact ⟨known, rules ▸ tidy_ofSteps steps, filled⟩

theorem Grammar.WellFormed.sides_ne_nil {grammar : Grammar} (wellFormed : grammar.WellFormed)
    {entry : Text × RuleTable} (listed : entry ∈ grammar.rules.entries) {production : Production}
    (rule : production ∈ entry.2.productions) :
    production.source ≠ [] ∧ production.target ≠ [] := by
  have filled := wellFormed.filled entry listed
  simp only [RuleTable.hasEmptySide, List.any_eq_false, Bool.or_eq_true, List.isEmpty_iff,
    not_or] at filled
  exact filled production rule

theorem Grammar.WellFormed.build_eq {grammar : Grammar} (wellFormed : grammar.WellFormed) :
    GrammarBuilder.build ⟨some grammar.root, grammar.rules, grammar.variables⟩ = .ok grammar :=
  GrammarBuilder.build_eq_ok wellFormed.rooted wellFormed.filled rfl

namespace GrammarBuilder

variable {builder : GrammarBuilder}

def addRules (builder : GrammarBuilder) (nonterminal : Text) (productions : List Production) :
    GrammarBuilder :=
  productions.foldl
    (fun builder production => builder.addRule nonterminal production.source production.target)
    builder

theorem addRules_cons (builder : GrammarBuilder) (nonterminal : Text) (production : Production)
    (rest : List Production) :
    builder.addRules nonterminal (production :: rest) =
      { builder with
        root := some (builder.root.getD nonterminal)
        rules := builder.rules.alter nonterminal fun old =>
          (production :: rest).foldl RuleTable.insert (old.getD ∅) } := by
  induction rest generalizing builder production with
  | nil => rfl
  | cons second rest ih =>
    have onward := ih (builder.addRule nonterminal production.source production.target) second
    refine onward.trans ?_
    simp only [addRule, NameTable.alter_alter]
    rfl

theorem addRules_productions {table : RuleTable} {nonterminal : Text} (tidy : table.Tidy)
    (fresh : builder.rules.get? nonterminal = none) :
    builder.addRules nonterminal table.productions =
      { builder with
        root := some (builder.root.getD nonterminal)
        rules := builder.rules.insert nonterminal table } := by
  have whole := RuleTable.ofList_productions tidy.distinct
  obtain ⟨productions⟩ := table
  cases productions with
  | nil => exact absurd rfl tidy.nonempty
  | cons production rest =>
    rw [addRules_cons]
    congr 1
    apply NameTable.alter_congr
    rw [fresh]
    exact whole

end GrammarBuilder

end SyncGrammar
