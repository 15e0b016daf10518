import Mathlib.Logic.Relation
import SyncGrammar.Machine

namespace SyncGrammar

variable {σ : Type} {step : σ → Option σ} {start state last : σ}

abbrev Reaches (step : σ → Option σ) : σ → σ → Prop :=
  Relation.ReflTransGen fun state next => step state = some next

structure EndsIn (step : σ → Option σ) (start last : σ) : Prop where
  reached : Reaches step start last
  stopped : step last = none

theorem EndsIn.of_runWithin {fuel : Nat} (run : runWithin step fuel start = some last) :
    EndsIn step start last := by
  refine ⟨?_, runWithin_stopped run⟩
  have kept (state next : σ) (before : Reaches step start state) (move : step state = some next) :
      Reaches step start next := before.tail move
  exact runWithin_induction kept .refl run

theorem EndsIn.exists_fuel (ends : EndsIn step start last) :
    ∃ bound, ∀ fuel, bound ≤ fuel → runWithin step fuel start = some last := by
  obtain ⟨reached, stopped⟩ := ends
  suffices short : ∃ bound, runWithin step bound start = some last by
    obtain ⟨bound, run⟩ := short
    refine ⟨bound, fun fuel enough => ?_⟩
    obtain ⟨more, rfl⟩ := Nat.exists_eq_add_of_le enough
    exact runWithin_add run more
  induction reached using Relation.ReflTransGen.head_induction_on with
  | refl => exact ⟨1, by simp [runWithin, stopped]⟩
  | head move _ ih =>
    obtain ⟨bound, run⟩ := ih
    exact ⟨bound + 1, by simpa [runWithin, move] using run⟩

theorem step_rightUnique : Relator.RightUnique fun state next : σ => step state = some next := by
  intro state first second left right
  exact Option.some.inj (left.symm.trans right)

theorem EndsIn.from_reached (ends : EndsIn step start last) (reached : Reaches step start state) :
    EndsIn step state last := by
  refine ⟨?_, ends.stopped⟩
  rcases reached.total_of_right_unique step_rightUnique ends.reached with before | after
  · exact before
  · rcases Relation.ReflTransGen.cases_head after with same | ⟨next, move, _⟩
    · exact same ▸ .refl
    · rw [ends.stopped] at move
      cases move

theorem EndsIn.unique {other : σ} (ends : EndsIn step start last) (also : EndsIn step start other) :
    last = other := by
  have onward := ends.from_reached also.reached
  rcases Relation.ReflTransGen.cases_head onward.reached with same | ⟨next, move, _⟩
  · exact same.symm
  · rw [also.stopped] at move
    cases move

theorem EndsIn.of_step {next : σ} (move : step start = some next) (ends : EndsIn step next last) :
    EndsIn step start last :=
  ⟨.head move ends.reached, ends.stopped⟩

theorem Reaches.invariant {keeps : σ → Prop} (reached : Reaches step start state)
    (kept : ∀ state next, keeps state → step state = some next → keeps next)
    (holds : keeps start) : keeps state := by
  induction reached with
  | refl => exact holds
  | tail _ move ih => exact kept _ _ ih move

/-- A run ends if, as long as an invariant holds, every step lowers a well-founded measure. -/
theorem exists_endsIn_of_wellFounded {μ : Type} {below : μ → μ → Prop} (wf : WellFounded below)
    (measure : σ → μ) {keeps : σ → Prop}
    (kept : ∀ state next, keeps state → step state = some next → keeps next)
    (lowered : ∀ state next, keeps state → step state = some next →
      below (measure next) (measure state))
    (holds : keeps start) : ∃ last, EndsIn step start last := by
  induction same : measure start using wf.induction generalizing start with
  | _ level ih =>
    subst same
    cases move : step start with
    | none => exact ⟨start, .refl, move⟩
    | some next =>
      obtain ⟨last, ends⟩ := ih _ (lowered _ _ holds move) (kept _ _ holds move) rfl
      exact ⟨last, ends.of_step move⟩

theorem endsIn_runToEnd {workLeft : σ → Nat}
    (lowered : ∀ state next, step state = some next → workLeft next < workLeft state)
    (start : σ) : EndsIn step start (runToEnd step workLeft lowered start) :=
  .of_runWithin (Option.some_get _).symm

end SyncGrammar
