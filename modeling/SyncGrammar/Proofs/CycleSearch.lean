import SyncGrammar.Proofs.Run
import SyncGrammar.Worklist.CycleSearch

/-!
What a search for a way back finds. Every place that is seen or pending can be reached from where
the search began, and whatever a seen place leads to is seen or pending itself. So a search that has
nothing left to visit has seen all that can be reached, and the place where it began is not among
it.
-/
namespace SyncGrammar.CycleSearch

variable {successors : Text → List Text} {places : List Text} {origin : Text}
variable {search next last : CycleSearch}

abbrev LeadsTo (successors : Text → List Text) (place other : Text) : Prop :=
  other ∈ successors place

/-- What holds at each point of a search. -/
structure Explores (successors : Text → List Text) (origin : Text) (search : CycleSearch) :
    Prop where
  pending_reached : ∀ place ∈ search.pending,
    Relation.TransGen (LeadsTo successors) origin place
  seen_reached : ∀ place ∈ search.seen, Relation.TransGen (LeadsTo successors) origin place
  goes_on : search.found = false → ∀ place, place = origin ∨ place ∈ search.seen →
    ∀ other ∈ successors place, other ∈ search.seen ∨ other ∈ search.pending
  comes_back : search.found = true → Relation.TransGen (LeadsTo successors) origin origin
  not_back : search.found = false → origin ∉ search.seen

theorem explores_start : Explores successors origin (start successors origin) where
  pending_reached := fun place pending => .single (List.mem_reverse.mp pending)
  seen_reached := fun place seen => absurd seen List.not_mem_nil
  goes_on := by
    rintro - place (rfl | seen) other leads
    · exact Or.inr (List.mem_reverse.mpr leads)
    · exact absurd seen List.not_mem_nil
  comes_back := fun found => Bool.noConfusion found
  not_back := fun _ => List.not_mem_nil

theorem Explores.of_step (explores : Explores successors origin search)
    (move : step successors origin search = some next) : Explores successors origin next := by
  obtain ⟨unfound, place, rest, split, cases⟩ := step_cases move
  have reached : ∀ other ∈ place :: rest, Relation.TransGen (LeadsTo successors) origin other :=
    split ▸ explores.pending_reached
  have onward := explores.goes_on unfound
  rw [split] at onward
  rw [List.forall_mem_cons] at reached
  rcases cases with ⟨rfl, rfl⟩ | ⟨other, again, rfl⟩ | ⟨other, fresh, rfl⟩
  · exact ⟨reached.2, explores.seen_reached, fun found => Bool.noConfusion found,
      fun _ => reached.1, fun found => Bool.noConfusion found⟩
  · refine ⟨reached.2, explores.seen_reached, fun _ here known there leads => ?_,
      fun found => Bool.noConfusion found, fun _ => explores.not_back unfound⟩
    rcases onward here known there leads with seen | pending
    · exact Or.inl seen
    · rcases List.mem_cons.mp pending with rfl | later
      · exact Or.inl again
      · exact Or.inr later
  · refine ⟨fun there pending => ?_, List.forall_mem_cons.mpr ⟨reached.1, explores.seen_reached⟩,
      fun _ here known there leads => ?_, fun found => Bool.noConfusion found, fun _ back => ?_⟩
    · rcases List.mem_append.mp pending with led | later
      · exact reached.1.tail (List.mem_reverse.mp led)
      · exact reached.2 there later
    · by_cases same : here = place
      · subst same
        exact Or.inr (List.mem_append_left _ (List.mem_reverse.mpr leads))
      · have before : here = origin ∨ here ∈ search.seen :=
          known.imp_right fun member => (List.mem_cons.mp member).resolve_left same
        rcases onward here before there leads with seen | pending
        · exact Or.inl (List.mem_cons_of_mem _ seen)
        · rcases List.mem_cons.mp pending with rfl | later
          · exact Or.inl List.mem_cons_self
          · exact Or.inr (List.mem_append_right _ later)
    · rcases List.mem_cons.mp back with same | seen
      · exact other same.symm
      · exact explores.not_back unfound seen

theorem Explores.seen_of_reached (explores : Explores successors origin search)
    (unfound : search.found = false) (exhausted : search.pending = []) {place : Text}
    (path : Relation.TransGen (LeadsTo successors) origin place) : place ∈ search.seen := by
  have closed := explores.goes_on unfound
  rw [exhausted] at closed
  induction path with
  | single leads => exact (closed _ (Or.inl rfl) _ leads).resolve_right List.not_mem_nil
  | tail _ leads ih => exact (closed _ (Or.inr ih) _ leads).resolve_right List.not_mem_nil

theorem found_iff_of_endsIn
    (ends : EndsIn (step successors origin) (start successors origin) last) :
    last.found = true ↔ Relation.TransGen (LeadsTo successors) origin origin := by
  have explores : Explores successors origin last :=
    ends.reached.invariant (fun _ _ before move => before.of_step move) explores_start
  refine ⟨explores.comes_back, fun path => ?_⟩
  rcases step_eq_none_iff.mp ends.stopped with found | exhausted
  · exact found
  · cases unfound : last.found with
    | true => rfl
    | false =>
      exact absurd (explores.seen_of_reached unfound exhausted path) (explores.not_back unfound)

end SyncGrammar.CycleSearch
