import SyncGrammar.Derivation.Basic
import SyncGrammar.NameTable

namespace SyncGrammar

abbrev DerivationIndex := NameTable (NameTable (List DerivationKey))

namespace DerivationIndex

def find? (index : DerivationIndex) (subtext token : Text) : Option (List DerivationKey) :=
  (index.get? subtext).bind (·.get? token)

def listed (index : DerivationIndex) (subtext token : Text) : List DerivationKey :=
  (index.find? subtext token).getD []

def append (index : DerivationIndex) (key : DerivationKey) : DerivationIndex :=
  index.alter key.subtext fun byToken =>
    (byToken.getD ∅).alter key.token fun keys => keys.getD [] ++ [key]

theorem get?_getD_empty (byToken : Option (NameTable (List DerivationKey))) (token : Text) :
    (byToken.getD ∅).get? token = byToken.bind (·.get? token) := by
  cases byToken <;> rfl

theorem find?_append (index : DerivationIndex) (key : DerivationKey) (subtext token : Text) :
    (index.append key).find? subtext token =
      if key.subtext = subtext ∧ key.token = token then
        some (index.listed subtext token ++ [key])
      else index.find? subtext token := by
  unfold listed find? append
  rw [NameTable.get?_alter]
  by_cases covers : key.subtext = subtext
  · subst covers
    rw [if_pos rfl, Option.bind_some, NameTable.get?_alter, get?_getD_empty, get?_getD_empty]
    by_cases reads : key.token = token <;> simp [reads]
  · simp [covers]

theorem listed_append (index : DerivationIndex) (key : DerivationKey) (subtext token : Text) :
    (index.append key).listed subtext token = index.listed subtext token ++
      if key.subtext = subtext ∧ key.token = token then [key] else [] := by
  rw [listed, find?_append]
  split
  · rfl
  · exact (List.append_nil _).symm

end DerivationIndex

/-- Completed derivations, each once. -/
structure CompletedSet where
  index : DerivationIndex
  /-- The derivations in order of completion. -/
  keys : List DerivationKey
  /-- What stands in the index under a text and a token are the derivations of that text as that
  token, in order of completion. -/
  listed_eq : ∀ subtext token, index.listed subtext token =
    keys.filter fun key => key.subtext = subtext ∧ key.token = token
  deriving DecidableEq

namespace CompletedSet

def empty : CompletedSet := ⟨∅, [], fun _ _ => rfl⟩

instance : EmptyCollection CompletedSet := ⟨empty⟩

instance : Inhabited CompletedSet := ⟨empty⟩

def contains (completed : CompletedSet) (key : DerivationKey) : Bool :=
  key ∈ completed.keys

theorem listed_append_eq (completed : CompletedSet) (key : DerivationKey) (subtext token : Text) :
    (completed.index.append key).listed subtext token =
      (completed.keys ++ [key]).filter fun key => key.subtext = subtext ∧ key.token = token := by
  rw [DerivationIndex.listed_append, completed.listed_eq, List.filter_append, List.filter_cons,
    List.filter_nil]
  simp only [decide_eq_true_eq]

/-- Adds a derivation, in both forms, unless it has completed before. -/
def insert (completed : CompletedSet) (key : DerivationKey) : CompletedSet :=
  if completed.contains key then completed
  else ⟨completed.index.append key, completed.keys ++ [key], completed.listed_append_eq key⟩

def record (completed : CompletedSet) (key : DerivationKey) : Bool × CompletedSet :=
  (!completed.contains key, completed.insert key)

def ofList (keys : List DerivationKey) : CompletedSet :=
  keys.foldl insert empty

/-- The completed derivations of a text read as a token, in order of completion. -/
def lookup (completed : CompletedSet) (subtext token : Text) : List DerivationKey :=
  completed.index.listed subtext token

def size (completed : CompletedSet) : Nat :=
  completed.keys.length

def isEmpty (completed : CompletedSet) : Bool :=
  completed.keys.isEmpty

theorem keys_insert (completed : CompletedSet) (key : DerivationKey) :
    (completed.insert key).keys =
      if key ∈ completed.keys then completed.keys else completed.keys ++ [key] := by
  unfold insert contains
  by_cases known : key ∈ completed.keys <;> simp [known]

theorem mem_insert {completed : CompletedSet} {key other : DerivationKey} :
    other ∈ (completed.insert key).keys ↔ other = key ∨ other ∈ completed.keys := by
  rw [keys_insert]
  split
  · rename_i member
    exact ⟨Or.inr, fun either => either.elim (· ▸ member) id⟩
  · simp [or_comm]

theorem nodup_insert {completed : CompletedSet} (key : DerivationKey)
    (distinct : completed.keys.Nodup) : (completed.insert key).keys.Nodup := by
  rw [keys_insert]
  split
  · exact distinct
  · rename_i fresh
    refine List.nodup_append.mpr ⟨distinct, by simp, fun other member last isLast same => ?_⟩
    exact fresh (List.mem_singleton.mp isLast ▸ same ▸ member)

theorem mem_lookup {completed : CompletedSet} {subtext token : Text} {key : DerivationKey} :
    key ∈ completed.lookup subtext token ↔
      key ∈ completed.keys ∧ key.subtext = subtext ∧ key.token = token := by
  simp [lookup, completed.listed_eq]

theorem nodup_lookup {completed : CompletedSet} (distinct : completed.keys.Nodup)
    (subtext token : Text) : (completed.lookup subtext token).Nodup := by
  rw [lookup, completed.listed_eq]
  exact distinct.filter _

theorem lookup_insert {completed : CompletedSet} {key : DerivationKey}
    (fresh : key ∉ completed.keys) (subtext token : Text) :
    (completed.insert key).lookup subtext token = completed.lookup subtext token ++
      if key.subtext = subtext ∧ key.token = token then [key] else [] := by
  simp only [insert, contains, fresh, decide_false, Bool.false_eq_true, if_false, lookup,
    DerivationIndex.listed_append]

end CompletedSet

end SyncGrammar
