/-!
Machines: a state and a step that leads to the next one or stops. A run with a bound on the number
of steps is total; whether some bound is enough is a property of the machine. Where every step
lowers a number, no bound is needed.
-/
namespace SyncGrammar

/-- The state in which a machine stops, if it does within `fuel` steps. -/
def runWithin {σ : Type} (step : σ → Option σ) : Nat → σ → Option σ
  | 0, _ => none
  | fuel + 1, state =>
    match step state with
    | none => some state
    | some next => runWithin step fuel next

theorem runWithin_add {σ : Type} {step : σ → Option σ} {fuel : Nat} {state last : σ}
    (stopped : runWithin step fuel state = some last) (more : Nat) :
    runWithin step (fuel + more) state = some last := by
  induction fuel generalizing state with
  | zero => simp [runWithin] at stopped
  | succ fuel ih =>
    rw [Nat.succ_add]
    cases next : step state with
    | none => simpa [runWithin, next] using stopped
    | some after =>
      simp only [runWithin, next] at stopped ⊢
      exact ih stopped

theorem runWithin_stopped {σ : Type} {step : σ → Option σ} {fuel : Nat} {state last : σ}
    (stopped : runWithin step fuel state = some last) : step last = none := by
  induction fuel generalizing state with
  | zero => simp [runWithin] at stopped
  | succ fuel ih =>
    cases next : step state with
    | none =>
      have same : state = last := by simpa [runWithin, next] using stopped
      exact same ▸ next
    | some after => exact ih (by simpa [runWithin, next] using stopped)

theorem runWithin_induction {σ : Type} {step : σ → Option σ} {keeps : σ → Prop}
    (kept : ∀ state next, keeps state → step state = some next → keeps next)
    {fuel : Nat} {state last : σ} (start : keeps state)
    (stopped : runWithin step fuel state = some last) : keeps last := by
  induction fuel generalizing state with
  | zero => simp [runWithin] at stopped
  | succ fuel ih =>
    cases next : step state with
    | none =>
      have same : state = last := by simpa [runWithin, next] using stopped
      exact same ▸ start
    | some after =>
      exact ih (kept state after start next) (by simpa [runWithin, next] using stopped)

theorem isSome_runWithin {σ : Type} {step : σ → Option σ} {workLeft : σ → Nat}
    (lowered : ∀ state next, step state = some next → workLeft next < workLeft state)
    {fuel : Nat} {state : σ} (enough : workLeft state < fuel) :
    (runWithin step fuel state).isSome = true := by
  induction fuel generalizing state with
  | zero => exact absurd enough (Nat.not_lt_zero _)
  | succ fuel ih =>
    rw [runWithin]
    split
    · rfl
    · rename_i next move
      have less := lowered _ _ move
      exact ih (by omega)

def runToEnd {σ : Type} (step : σ → Option σ) (workLeft : σ → Nat)
    (lowered : ∀ state next, step state = some next → workLeft next < workLeft state)
    (state : σ) : σ :=
  (runWithin step (workLeft state + 1) state).get
    (isSome_runWithin lowered (Nat.lt_succ_self _))

end SyncGrammar
