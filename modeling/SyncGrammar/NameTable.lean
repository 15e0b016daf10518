import SyncGrammar.Text

namespace SyncGrammar

namespace NameTable

variable {α β : Type}

/-- Replaces the value under `name` by `change` of what stands there, in a list that is ascending
by name. -/
def alterEntry (name : Text) (change : Option α → α) : List (Text × α) → List (Text × α)
  | [] => [(name, change none)]
  | entry :: rest =>
    if name < entry.1 then (name, change none) :: entry :: rest
    else if name = entry.1 then (name, change (some entry.2)) :: rest
    else entry :: alterEntry name change rest

theorem name_of_mem_alterEntry {name : Text} {change : Option α → α} {entries : List (Text × α)}
    {entry : Text × α} (member : entry ∈ alterEntry name change entries) :
    entry.1 = name ∨ entry ∈ entries := by
  fun_induction alterEntry name change entries with
  | case1 => simp_all
  | case2 first rest _ =>
    rcases List.mem_cons.mp member with rfl | later
    · exact Or.inl rfl
    · exact Or.inr later
  | case3 first rest _ same =>
    rcases List.mem_cons.mp member with rfl | later
    · exact Or.inl rfl
    · exact Or.inr (List.mem_cons_of_mem _ later)
  | case4 first rest _ _ ih =>
    rcases List.mem_cons.mp member with rfl | later
    · exact Or.inr List.mem_cons_self
    · rcases ih later with named | old
      · exact Or.inl named
      · exact Or.inr (List.mem_cons_of_mem _ old)

theorem pairwise_alterEntry (name : Text) (change : Option α → α) {entries : List (Text × α)}
    (ascending : entries.Pairwise (·.1 < ·.1)) :
    (alterEntry name change entries).Pairwise (·.1 < ·.1) := by
  fun_induction alterEntry name change entries with
  | case1 => simp
  | case2 first rest below =>
    refine List.pairwise_cons.mpr ⟨fun other member => ?_, ascending⟩
    rcases List.mem_cons.mp member with rfl | later
    · exact below
    · exact List.lt_trans below ((List.pairwise_cons.mp ascending).1 other later)
  | case3 first rest _ same =>
    have parts := List.pairwise_cons.mp ascending
    exact List.pairwise_cons.mpr ⟨fun other member => same ▸ parts.1 other member, parts.2⟩
  | case4 first rest notBelow notSame ih =>
    have parts := List.pairwise_cons.mp ascending
    refine List.pairwise_cons.mpr ⟨fun other member => ?_, ih parts.2⟩
    rcases name_of_mem_alterEntry member with named | old
    · rcases Std.lt_trichotomy name first.1 with below | same | above
      · exact absurd below notBelow
      · exact absurd same notSame
      · exact named ▸ above
    · exact parts.1 other old

theorem find?_alterEntry (name other : Text) (change : Option α → α) {entries : List (Text × α)}
    (ascending : entries.Pairwise (·.1 < ·.1)) :
    (alterEntry name change entries).find? (·.1 = other) =
      if name = other then
        some (name, change ((entries.find? (·.1 = name)).map (·.2)))
      else entries.find? (·.1 = other) := by
  fun_induction alterEntry name change entries with
  | case1 => simp [List.find?_cons]; split <;> simp_all
  | case2 first rest below =>
    have absent : (first :: rest).find? (·.1 = name) = none := by
      refine List.find?_eq_none.mpr fun entry member same => ?_
      have equal : entry.1 = name := by simpa using same
      rcases List.mem_cons.mp member with rfl | later
      · exact List.lt_irrefl name (equal ▸ below)
      · have above := (List.pairwise_cons.mp ascending).1 entry later
        exact List.lt_irrefl name (List.lt_trans below (equal ▸ above))
    rw [absent]
    by_cases same : name = other
    · simp [same]
    · simp [same, List.find?_cons]
  | case3 first rest _ same =>
    by_cases equal : name = other
    · simp [equal, ← same]
    · have different : ¬ first.1 = other := same ▸ equal
      simp [equal, different]
  | case4 first rest _ notSame ih =>
    have later := ih (List.pairwise_cons.mp ascending).2
    have different : ¬ first.1 = name := Ne.symm notSame
    by_cases here : first.1 = other
    · have equal : ¬ name = other := fun same => notSame (same.trans here.symm)
      simp [here, equal]
    · simp [here, different, later]

end NameTable

/-- A finite table from names to values, listed in ascending order of names. -/
structure NameTable (α : Type) where
  entries : List (Text × α)
  ascending : entries.Pairwise (·.1 < ·.1)
  deriving DecidableEq

namespace NameTable

variable {α : Type}

def empty : NameTable α := ⟨[], List.Pairwise.nil⟩

instance : EmptyCollection (NameTable α) := ⟨empty⟩

instance : Inhabited (NameTable α) := ⟨empty⟩

def alter (table : NameTable α) (name : Text) (change : Option α → α) : NameTable α :=
  ⟨alterEntry name change table.entries, pairwise_alterEntry name change table.ascending⟩

def insert (table : NameTable α) (name : Text) (value : α) : NameTable α :=
  table.alter name fun _ => value

def insertIfNew (table : NameTable α) (name : Text) (value : α) : NameTable α :=
  table.alter name fun old => old.getD value

def ofList (pairs : List (Text × α)) : NameTable α :=
  pairs.foldl (fun table pair => table.insert pair.1 pair.2) empty

def get? (table : NameTable α) (name : Text) : Option α :=
  (table.entries.find? (·.1 = name)).map (·.2)

def contains (table : NameTable α) (name : Text) : Bool :=
  table.entries.any (·.1 = name)

def names (table : NameTable α) : List Text :=
  table.entries.map (·.1)

def isEmpty (table : NameTable α) : Bool :=
  table.entries.isEmpty

theorem get?_alter (table : NameTable α) (name other : Text) (change : Option α → α) :
    (table.alter name change).get? other =
      if name = other then some (change (table.get? name)) else table.get? other := by
  unfold get? alter
  rw [find?_alterEntry name other change table.ascending]
  split <;> rfl

theorem get?_insert (table : NameTable α) (name other : Text) (value : α) :
    (table.insert name value).get? other = if name = other then some value else table.get? other :=
  get?_alter table name other fun _ => value

theorem get?_insertIfNew (table : NameTable α) (name other : Text) (value : α) :
    (table.insertIfNew name value).get? other =
      if name = other then some ((table.get? name).getD value) else table.get? other :=
  get?_alter table name other fun old => old.getD value

theorem isSome_get? (table : NameTable α) (name : Text) :
    (table.get? name).isSome = table.contains name := by
  rw [Bool.eq_iff_iff]
  simp [get?, contains, List.find?_isSome]

theorem mem_names_iff (table : NameTable α) (name : Text) :
    name ∈ table.names ↔ table.contains name = true := by
  simp [names, contains]

theorem get?_of_mem (table : NameTable α) {entry : Text × α} (member : entry ∈ table.entries) :
    table.get? entry.1 = some entry.2 := by
  have unique := table.ascending
  unfold get?
  generalize table.entries = entries at member unique
  induction entries with
  | nil => simp at member
  | cons first rest ih =>
    have parts := List.pairwise_cons.mp unique
    rcases List.mem_cons.mp member with rfl | later
    · simp
    · have different : ¬ first.1 = entry.1 := fun same =>
        List.lt_irrefl entry.1 (same ▸ parts.1 entry later)
      simp [different, ih later parts.2]

theorem get?_eq_some_iff (table : NameTable α) (name : Text) (value : α) :
    table.get? name = some value ↔ (name, value) ∈ table.entries := by
  constructor
  · intro found
    obtain ⟨entry, located, same⟩ := Option.map_eq_some_iff.mp found
    have named : entry.1 = name := by simpa using List.find?_some located
    have member := List.mem_of_find?_eq_some located
    rwa [← named, ← same]
  · exact get?_of_mem table

end NameTable

end SyncGrammar
