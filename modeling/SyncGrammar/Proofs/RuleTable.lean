import Mathlib.Data.List.Induction
import Mathlib.Data.List.Nodup
import SyncGrammar.Production
import SyncGrammar.Proofs.ByteOrder
import SyncGrammar.Worklist.DedupQueue

namespace SyncGrammar

namespace Production

theorem inverted_injective : Function.Injective Production.inverted := by
  intro first second same
  exact congrArg Production.inverted same

variable {first second third production : Production} {productions : List Production}

theorem longerFirst_iff : first.longerFirst second = true ↔
    second.source.byteLength < first.source.byteLength ∨
      first.source.byteLength = second.source.byteLength ∧
        (first.source = second.source ∨ first.source < second.source) := by
  unfold longerFirst
  split
  · rename_i level
    rw [decide_eq_true_iff]
    constructor
    · intro notAbove
      rcases Std.lt_trichotomy first.source second.source with below | same | above
      · exact Or.inr ⟨level, Or.inr below⟩
      · exact Or.inr ⟨level, Or.inl same⟩
      · exact absurd above notAbove
    · rintro (longer | ⟨-, same | below⟩) above
      · exact absurd level.symm (Nat.ne_of_lt longer)
      · exact List.lt_irrefl _ (same ▸ above)
      · exact List.lt_asymm below above
  · rename_i uneven
    simp [uneven]

theorem longerFirst_trans (one : first.longerFirst second = true)
    (two : second.longerFirst third = true) : first.longerFirst third = true := by
  rw [longerFirst_iff] at *
  rcases one with longer | ⟨level, same | below⟩
  · rcases two with alsoLonger | ⟨alsoLevel, -⟩
    · exact Or.inl (Nat.lt_trans alsoLonger longer)
    · exact Or.inl (alsoLevel ▸ longer)
  · rw [same]
    exact two
  · rcases two with longer | ⟨alsoLevel, alsoSame | alsoBelow⟩
    · exact Or.inl (level ▸ longer)
    · exact Or.inr ⟨level.trans alsoLevel, Or.inr (alsoSame ▸ below)⟩
    · exact Or.inr ⟨level.trans alsoLevel, Or.inr (List.lt_trans below alsoBelow)⟩

theorem longerFirst_of_behind (behind : ¬ first.longerFirst second = true) :
    second.longerFirst first = true := by
  rw [longerFirst_iff] at *
  rcases Nat.lt_trichotomy first.source.byteLength second.source.byteLength with
    shorter | level | longer
  · exact Or.inl shorter
  · refine Or.inr ⟨level.symm, ?_⟩
    rcases Std.lt_trichotomy first.source second.source with below | same | above
    · exact absurd (Or.inr ⟨level, Or.inr below⟩) behind
    · exact Or.inl same.symm
    · exact Or.inr above
  · exact absurd (Or.inl longer) behind

theorem longerFirst_of_source_eq (same : first.source = second.source) :
    first.longerFirst second = true :=
  longerFirst_iff.mpr (Or.inr ⟨congrArg Text.byteLength same, Or.inl same⟩)

theorem pairwise_insertSorted (production : Production)
    (sorted : productions.Pairwise fun first second => first.longerFirst second = true) :
    (insertSorted production productions).Pairwise fun first second =>
      first.longerFirst second = true := by
  fun_induction insertSorted production productions with
  | case1 => exact List.pairwise_singleton _ _
  | case2 first rest before =>
    refine List.pairwise_cons.mpr ⟨fun other member => ?_, sorted⟩
    rcases List.mem_cons.mp member with rfl | later
    · exact before
    · exact longerFirst_trans before (List.rel_of_pairwise_cons sorted later)
  | case3 first rest behind ih =>
    refine List.pairwise_cons.mpr ⟨fun other member => ?_, ih sorted.of_cons⟩
    rcases List.mem_cons.mp ((perm_insertSorted production rest).mem_iff.mp member) with
      rfl | later
    · exact longerFirst_of_behind behind
    · exact List.rel_of_pairwise_cons sorted later

theorem filter_insertSorted (source : Text) (production : Production)
    (productions : List Production) :
    (insertSorted production productions).filter (·.source = source) =
      (production :: productions).filter (·.source = source) := by
  fun_induction insertSorted production productions with
  | case1 => rfl
  | case2 => rfl
  | case3 first rest behind ih =>
    have apart : production.source ≠ first.source := fun same =>
      behind (longerFirst_of_source_eq same)
    rw [List.filter_cons, ih]
    by_cases here : first.source = source
    · have other : production.source ≠ source := fun same => apart (same.trans here.symm)
      simp [here, other]
    · simp [here, List.filter_cons]

end Production

namespace RuleTable

def swapped (table : RuleTable) : RuleTable :=
  ⟨table.productions.map Production.inverted⟩

variable {table : RuleTable}

theorem productions_foldl_insert {productions : List Production}
    (distinct : (table.productions ++ productions).Nodup) :
    (productions.foldl insert table).productions = table.productions ++ productions := by
  induction productions generalizing table with
  | nil => simp
  | cons production rest ih =>
    have absent : production ∉ table.productions := by
      intro member
      exact (List.nodup_append.mp distinct).2.2 production member production List.mem_cons_self rfl
    have added : (table.insert production).productions = table.productions ++ [production] := by
      simp [insert, contains, absent]
    rw [List.foldl_cons, ih (by simpa [added] using distinct), added, List.append_assoc,
      List.singleton_append]

theorem ofList_productions (distinct : table.productions.Nodup) :
    ofList table.productions = table := by
  have same : (table.productions.foldl insert empty).productions = table.productions :=
    productions_foldl_insert distinct
  exact congrArg RuleTable.mk same

theorem ofList_concat (productions : List Production) (production : Production) :
    ofList (productions ++ [production]) = (ofList productions).insert production := by
  rw [ofList, List.foldl_append]
  rfl

theorem nodup_ofList (productions : List Production) : (ofList productions).productions.Nodup := by
  induction productions using List.reverseRecOn with
  | nil => exact List.nodup_nil
  | append_singleton productions production ih =>
    rw [ofList_concat]
    exact nodup_insert production ih

theorem productions_ofList (productions : List Production) :
    (ofList productions).productions = productions.eraseDups := by
  induction productions using List.reverseRecOn with
  | nil => rfl
  | append_singleton productions production ih =>
    rw [ofList_concat, eraseDups_concat, insert, contains, ih]
    by_cases known : production ∈ productions <;> simp [known, ih]

theorem swapped_swapped : table.swapped.swapped = table := by
  rw [swapped, swapped, List.map_map]
  exact congrArg RuleTable.mk (List.map_id _)

theorem nodup_swapped (distinct : table.productions.Nodup) : table.swapped.productions.Nodup :=
  distinct.map Production.inverted_injective

theorem inverted_eq_swapped (distinct : table.productions.Nodup) :
    table.inverted = table.swapped :=
  ofList_productions (nodup_swapped distinct)

theorem inverted_inverted (distinct : table.productions.Nodup) :
    table.inverted.inverted = table := by
  rw [inverted_eq_swapped distinct, inverted_eq_swapped (nodup_swapped distinct), swapped_swapped]

theorem insert_swapped (production : Production) :
    (table.insert production).swapped = table.swapped.insert production.inverted := by
  have known : table.swapped.contains production.inverted = table.contains production := by
    rw [Bool.eq_iff_iff]
    simp [contains, swapped, Production.inverted_injective.eq_iff]
  unfold insert
  rw [known]
  split
  · rfl
  · simp [swapped]

theorem swapped_ofList (productions : List Production) :
    (ofList productions).swapped = ofList (productions.map Production.inverted) := by
  induction productions using List.reverseRecOn with
  | nil => rfl
  | append_singleton productions production ih =>
    rw [ofList_concat, insert_swapped, ih, ← ofList_concat, List.map_append, List.map_singleton]

theorem pairwise_sortedLongToShort (table : RuleTable) :
    table.sortedLongToShort.Pairwise fun first second => first.longerFirst second = true := by
  unfold sortedLongToShort
  induction table.productions with
  | nil => exact List.Pairwise.nil
  | cons production rest ih => exact Production.pairwise_insertSorted production ih

theorem filter_sortedLongToShort (table : RuleTable) (source : Text) :
    table.sortedLongToShort.filter (·.source = source) =
      table.productions.filter (·.source = source) := by
  unfold sortedLongToShort
  induction table.productions with
  | nil => rfl
  | cons production rest ih =>
    rw [List.foldr_cons, Production.filter_insertSorted, List.filter_cons, ih, List.filter_cons]

end RuleTable

inductive TableStep
  | insert (production : Production)
  | invert
  deriving DecidableEq, Repr

namespace RuleTable

def step (table : RuleTable) : TableStep → RuleTable
  | .insert production => table.insert production
  | .invert => table.inverted

def ofSteps (steps : List TableStep) : RuleTable :=
  steps.foldl step empty

/-- The productions that have been inserted, each as the inversions behind it have turned it. -/
def insertedBy (steps : List TableStep) : List Production :=
  steps.foldl (fun productions step =>
    match step with
    | .insert production => productions ++ [production]
    | .invert => productions.map Production.inverted) []

theorem ofSteps_eq_ofList (steps : List TableStep) : ofSteps steps = ofList (insertedBy steps) := by
  induction steps using List.reverseRecOn with
  | nil => rfl
  | append_singleton steps last ih =>
    rw [ofSteps, insertedBy, List.foldl_append, List.foldl_append, ← ofSteps, ← insertedBy, ih]
    cases last with
    | insert production => exact (ofList_concat _ _).symm
    | invert => exact (inverted_eq_swapped (nodup_ofList _)).trans (swapped_ofList _)

/-- After any insertions and inversions a table holds what has been inserted, each production once
and at its first place. Inverting it keeps the number and the order of its productions and can be
undone. Sorting keeps all of them and puts those with more bytes in their sources first and those
with as many in the order of the bytes; productions of one source keep their order. -/
theorem keeps_productions_in_order (steps : List TableStep) :
    (ofSteps steps).productions = (insertedBy steps).eraseDups ∧
    (ofSteps steps).productions.Nodup ∧
    (ofSteps steps).inverted.size = (ofSteps steps).size ∧
    (ofSteps steps).inverted.productions = (ofSteps steps).productions.map Production.inverted ∧
    (ofSteps steps).inverted.inverted = ofSteps steps ∧
    (ofSteps steps).sortedLongToShort.Perm (ofSteps steps).productions ∧
    ((ofSteps steps).sortedLongToShort.Pairwise fun first second =>
      second.source.utf8.length < first.source.utf8.length ∨
        first.source.utf8.length = second.source.utf8.length ∧
          (first.source = second.source ∨ first.source.utf8 < second.source.utf8)) ∧
    ∀ source, (ofSteps steps).sortedLongToShort.filter (·.source = source) =
      (ofSteps steps).productions.filter (·.source = source) := by
  have whole := ofSteps_eq_ofList steps
  have distinct : (ofSteps steps).productions.Nodup := whole ▸ nodup_ofList (insertedBy steps)
  have turned := inverted_eq_swapped distinct
  refine ⟨?_, distinct, ?_, congrArg RuleTable.productions turned, inverted_inverted distinct,
    perm_sortedLongToShort _, ?_, filter_sortedLongToShort _⟩
  · rw [whole, productions_ofList]
  · rw [turned]
    exact List.length_map _
  · refine (pairwise_sortedLongToShort (ofSteps steps)).imp fun {first second} before => ?_
    rw [Text.length_utf8, Text.length_utf8, Text.utf8_lt_iff]
    exact Production.longerFirst_iff.mp before

end RuleTable

end SyncGrammar
