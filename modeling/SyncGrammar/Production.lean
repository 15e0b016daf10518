import SyncGrammar.Direction
import SyncGrammar.Text

namespace SyncGrammar

structure Production where
  source : Text
  target : Text
  deriving DecidableEq, Repr

namespace Production

def inverted (production : Production) : Production :=
  ⟨production.target, production.source⟩

def turned (production : Production) : Direction → Production
  | .forward => production
  | .backward => production.inverted

def render (production : Production) : Text :=
  production.source ++ [' ', '/', ' '] ++ production.target

/-- Whether one production comes before another or is level with it: the one with more bytes in its
source first, and equally long sources in the order of texts. -/
def longerFirst (a b : Production) : Bool :=
  if a.source.byteLength = b.source.byteLength then ¬ b.source < a.source
  else b.source.byteLength < a.source.byteLength

def insertSorted (production : Production) : List Production → List Production
  | [] => [production]
  | first :: rest =>
    if production.longerFirst first then production :: first :: rest
    else first :: insertSorted production rest

theorem perm_insertSorted (production : Production) (productions : List Production) :
    (insertSorted production productions).Perm (production :: productions) := by
  fun_induction insertSorted production productions with
  | case1 => exact .refl _
  | case2 => exact .refl _
  | case3 first rest _ ih => exact (ih.cons first).trans (.swap production first rest)

end Production

structure RuleTable where
  productions : List Production
  deriving DecidableEq, Repr

namespace RuleTable

def empty : RuleTable := ⟨[]⟩

instance : EmptyCollection RuleTable := ⟨empty⟩

instance : Inhabited RuleTable := ⟨empty⟩

def contains (table : RuleTable) (production : Production) : Bool :=
  table.productions.contains production

/-- Puts a production at the end of the table unless it is there already. -/
def insert (table : RuleTable) (production : Production) : RuleTable :=
  if table.contains production then table else ⟨table.productions ++ [production]⟩

def ofList (productions : List Production) : RuleTable :=
  productions.foldl insert empty

def size (table : RuleTable) : Nat :=
  table.productions.length

def isEmpty (table : RuleTable) : Bool :=
  table.productions.isEmpty

def inverted (table : RuleTable) : RuleTable :=
  ofList (table.productions.map Production.inverted)

def oriented (table : RuleTable) : Direction → RuleTable
  | .forward => table
  | .backward => table.inverted

/-- The productions with the longest sources first. Equally long sources stand in the order of
texts, and productions of the same source in the order of insertion. -/
def sortedLongToShort (table : RuleTable) : List Production :=
  table.productions.foldr Production.insertSorted []

def hasEmptySide (table : RuleTable) : Bool :=
  table.productions.any fun production => production.source.isEmpty || production.target.isEmpty

def render (table : RuleTable) : Text :=
  table.productions.flatMap fun production => ['*', ' '] ++ production.render ++ ['\n']

theorem mem_insert {table : RuleTable} {production other : Production} :
    other ∈ (table.insert production).productions ↔
      other = production ∨ other ∈ table.productions := by
  unfold insert
  split
  · rename_i present
    have member : production ∈ table.productions := by simpa [contains] using present
    exact ⟨Or.inr, fun either => either.elim (· ▸ member) id⟩
  · simp [or_comm]

theorem nodup_insert {table : RuleTable} (production : Production)
    (distinct : table.productions.Nodup) : (table.insert production).productions.Nodup := by
  unfold insert
  split
  · exact distinct
  · rename_i absent
    have fresh : production ∉ table.productions := by simpa [contains] using absent
    refine List.nodup_append.mpr ⟨distinct, by simp, fun other member last isLast same => ?_⟩
    exact fresh (List.mem_singleton.mp isLast ▸ same ▸ member)

theorem perm_sortedLongToShort (table : RuleTable) :
    table.sortedLongToShort.Perm table.productions := by
  unfold sortedLongToShort
  induction table.productions with
  | nil => exact .refl _
  | cons production rest ih =>
    exact (Production.perm_insertSorted production _).trans (ih.cons production)

theorem mem_ofList {productions : List Production} {production : Production} :
    production ∈ (ofList productions).productions ↔ production ∈ productions := by
  have added (table : RuleTable) :
      production ∈ (productions.foldl insert table).productions ↔
        production ∈ table.productions ∨ production ∈ productions := by
    induction productions generalizing table with
    | nil => simp
    | cons first rest ih =>
      rw [List.foldl_cons, ih, mem_insert, List.mem_cons, or_comm (a := production = first),
        or_assoc]
  simpa [ofList, empty] using added empty

theorem mem_oriented {table : RuleTable} {direction : Direction} {production : Production} :
    production ∈ (table.oriented direction).sortedLongToShort ↔
      production.turned direction ∈ table.productions := by
  rw [(perm_sortedLongToShort _).mem_iff]
  cases direction with
  | forward => rfl
  | backward =>
    show production ∈ (ofList (table.productions.map Production.inverted)).productions ↔ _
    rw [mem_ofList, List.mem_map]
    constructor
    · rintro ⟨other, member, rfl⟩
      exact member
    · intro member
      exact ⟨production.inverted, member, rfl⟩

end RuleTable

end SyncGrammar
