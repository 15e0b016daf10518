import SyncGrammar.Machine
import SyncGrammar.Text

/-!
Searching a graph for a way back. The search starts with the successors of a place and goes on,
depth first, until it comes to that place again or until nothing is left to be visited. It goes on
from no place twice, so it ends in every graph in which only finitely many places have successors.
-/
namespace SyncGrammar

structure CycleSearch where
  /-- The places from which the search has gone on, the latest in front. -/
  seen : List Text
  /-- The places that are still to be visited, the next one in front. -/
  pending : List Text
  /-- Whether there is a way back. -/
  found : Bool
  deriving DecidableEq, Repr

namespace CycleSearch

variable {successors : Text → List Text} {origin : Text} {search next : CycleSearch}

/-- The start of a search. Of several successors the last one listed is visited first. -/
def start (successors : Text → List Text) (origin : Text) : CycleSearch :=
  ⟨[], (successors origin).reverse, false⟩

/-- Visits the next place. The search is over once it is back where it began. -/
def step (successors : Text → List Text) (origin : Text) (search : CycleSearch) :
    Option CycleSearch :=
  match search.found, search.pending with
  | true, _ => none
  | false, [] => none
  | false, place :: rest =>
    if place = origin then some { search with pending := rest, found := true }
    else if place ∈ search.seen then some { search with pending := rest }
    else some ⟨place :: search.seen, (successors place).reverse ++ rest, false⟩

def unseen (successors : Text → List Text) (seen : List Text) : List Text → Nat
  | [] => 0
  | place :: rest =>
    (if place ∈ seen then 0 else (successors place).length) + unseen successors seen rest

def workLeft (successors : Text → List Text) (places : List Text) (search : CycleSearch) : Nat :=
  unseen successors search.seen places + search.pending.length

theorem step_cases (move : step successors origin search = some next) :
    search.found = false ∧ ∃ place rest, search.pending = place :: rest ∧
      (place = origin ∧ next = ⟨search.seen, rest, true⟩ ∨
        place ≠ origin ∧ place ∈ search.seen ∧ next = ⟨search.seen, rest, false⟩ ∨
        place ≠ origin ∧ place ∉ search.seen ∧
          next = ⟨place :: search.seen, (successors place).reverse ++ rest, false⟩) := by
  obtain ⟨seen, pending, found⟩ := search
  unfold step at move
  split at move
  · cases move
  · cases move
  · rename_i place rest unfound waiting
    simp only at unfound waiting
    subst unfound waiting
    refine ⟨rfl, place, rest, rfl, ?_⟩
    split at move
    · rename_i back
      exact Or.inl ⟨back, (Option.some.inj move).symm⟩
    · rename_i onward
      split at move
      · rename_i again
        exact Or.inr (Or.inl ⟨onward, again, (Option.some.inj move).symm⟩)
      · rename_i fresh
        exact Or.inr (Or.inr ⟨onward, fresh, (Option.some.inj move).symm⟩)

theorem step_eq_none_iff :
    step successors origin search = none ↔ search.found = true ∨ search.pending = [] := by
  obtain ⟨seen, pending, found⟩ := search
  cases found with
  | true => simp [step]
  | false =>
    cases pending with
    | nil => simp [step]
    | cons place rest =>
      simp only [step, reduceCtorEq, Bool.false_eq_true, or_self, iff_false]
      split
      · simp
      · split <;> simp

theorem unseen_append (successors : Text → List Text) (seen places others : List Text) :
    unseen successors seen (places ++ others) =
      unseen successors seen places + unseen successors seen others := by
  induction places with
  | nil => simp [unseen]
  | cons place rest ih => simp [unseen, ih, Nat.add_assoc]

theorem unseen_cons_le (successors : Text → List Text) (place : Text) (seen places : List Text) :
    unseen successors (place :: seen) places ≤ unseen successors seen places := by
  induction places with
  | nil => exact Nat.le_refl _
  | cons other rest ih =>
    simp only [unseen]
    refine Nat.add_le_add ?_ ih
    split
    · exact Nat.zero_le _
    · rename_i absent
      have unknown : other ∉ seen := fun known => absent (List.mem_cons_of_mem place known)
      exact Nat.le_of_eq (if_neg unknown).symm

theorem unseen_cons_add (successors : Text → List Text) {place : Text}
    {seen places : List Text} (listed : place ∈ places) (fresh : place ∉ seen) :
    unseen successors (place :: seen) places + (successors place).length ≤
      unseen successors seen places := by
  obtain ⟨before, after, rfl⟩ := List.append_of_mem listed
  have front := unseen_cons_le successors place seen before
  have back := unseen_cons_le successors place seen after
  have gone : unseen successors (place :: seen) (place :: after) =
      unseen successors (place :: seen) after := by
    simp [unseen]
  have counted : unseen successors seen (place :: after) =
      (successors place).length + unseen successors seen after := by
    simp [unseen, fresh]
  rw [unseen_append, unseen_append, gone, counted]
  omega

theorem workLeft_lt_of_step {places : List Text}
    (leaves : ∀ place, place ∉ places → successors place = [])
    (move : step successors origin search = some next) :
    next.workLeft successors places < search.workLeft successors places := by
  obtain ⟨-, place, rest, pending, ⟨-, rfl⟩ | ⟨-, -, rfl⟩ | ⟨-, fresh, rfl⟩⟩ := step_cases move
  · simp [workLeft, pending]
  · simp [workLeft, pending]
  · simp only [workLeft, pending, List.length_append, List.length_reverse, List.length_cons]
    by_cases listed : place ∈ places
    · have fewer := unseen_cons_add successors listed fresh
      omega
    · have fewer := unseen_cons_le successors place search.seen places
      rw [leaves place listed, List.length_nil]
      omega

end CycleSearch

end SyncGrammar
