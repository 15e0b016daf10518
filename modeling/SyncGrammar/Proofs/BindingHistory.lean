import Mathlib.Data.List.Induction
import Mathlib.Data.Nat.Find
import SyncGrammar.Assignment

/-!
What an assignment binds, told from what has been done with it. Bindings leave an assignment at its
front only, and a token that is bound again stays where it is. So the place of a token depends on
when it came in after it was last absent, and its value on the last time it was bound since.
-/
namespace SyncGrammar

/-- What can be done with an assignment: a token is bound, in the assignment or in a copy of it, or
the first binding is split off and the rest is gone on with. -/
inductive AssignmentStep
  | bind (token value : Text)
  | rest
  deriving DecidableEq, Repr

def AssignmentStep.valueFor? (token : Text) : AssignmentStep → Option Text
  | bind other value => if other = token then some value else none
  | rest => none

namespace Assignment

def step (assignment : Assignment) : AssignmentStep → Assignment
  | .bind token value => assignment.bind token value
  | .rest =>
    match assignment.splitFirst? with
    | none => assignment
    | some (_, rest) => rest

def after (assignment : Assignment) (steps : List AssignmentStep) : Assignment :=
  steps.foldl step assignment

theorem tokens_rest (assignment : Assignment) :
    (assignment.step .rest).tokens = assignment.tokens.tail := by
  obtain ⟨bindings⟩ := assignment
  cases bindings <;> rfl

theorem get?_rest {assignment : Assignment} {token : Text} (distinct : assignment.tokens.Nodup)
    (stays : token ∈ (assignment.step .rest).tokens) :
    (assignment.step .rest).get? token = assignment.get? token := by
  obtain ⟨bindings⟩ := assignment
  cases bindings with
  | nil => rfl
  | cons first others =>
    have apart : first.1 ≠ token := by
      rintro rfl
      exact (List.nodup_cons.mp distinct).1 stays
    rw [get?_cons, if_neg apart]
    rfl

theorem splitFirst?_spec {assignment : Assignment} (distinct : assignment.tokens.Nodup) :
    match assignment.splitFirst? with
    | none => assignment.tokens = []
    | some ((token, value), rest) =>
      assignment.tokens = token :: rest.tokens ∧ assignment.get? token = some value ∧
      ∀ other, rest.get? other = if other = token then none else assignment.get? other := by
  obtain ⟨bindings⟩ := assignment
  cases bindings with
  | nil => rfl
  | cons first others =>
    refine ⟨rfl, by rw [get?_cons, if_pos rfl], fun other => ?_⟩
    rw [get?_cons]
    by_cases same : other = first.1
    · rw [if_pos same, same, get?_eq_none_iff]
      exact (List.nodup_cons.mp distinct).1
    · rw [if_neg same, if_neg (Ne.symm same)]

theorem size_of_splitFirst? {assignment rest : Assignment} {binding : Text × Text}
    (split : assignment.splitFirst? = some (binding, rest)) : rest.size < assignment.size := by
  obtain ⟨bindings⟩ := assignment
  cases bindings with
  | nil => cases split
  | cons first others =>
    cases split
    exact Nat.lt_succ_self _

def popAll (assignment : Assignment) : List (Text × Text) :=
  match _ : assignment.splitFirst? with
  | none => []
  | some (binding, rest) => binding :: popAll rest
termination_by assignment.size
decreasing_by exact size_of_splitFirst? ‹_›

theorem popAll_eq (assignment : Assignment) : assignment.popAll = assignment.bindings := by
  obtain ⟨bindings⟩ := assignment
  induction bindings with
  | nil => rw [popAll]; rfl
  | cons binding rest ih =>
    rw [popAll]
    exact congrArg (binding :: ·) ih

end Assignment

abbrev AssignmentHistory := List AssignmentStep

namespace AssignmentHistory

open Assignment

variable {history : AssignmentHistory} {last : AssignmentStep} {token value : Text}

def collecting (pairs : List (Text × Text)) : AssignmentHistory :=
  pairs.map fun pair => .bind pair.1 pair.2

def assignment (history : AssignmentHistory) : Assignment :=
  empty.after history

/-- The number of steps after which a token was last absent. -/
def lastAbsent (history : AssignmentHistory) (token : Text) : Nat :=
  Nat.findGreatest (fun time => (assignment (history.take time)).get? token = none) history.length

/-- The value that was last given to a token since it was last absent. -/
def lastValue? (history : AssignmentHistory) (token : Text) : Option Text :=
  (history.drop (history.lastAbsent token)).reverse.findSome? (AssignmentStep.valueFor? token)

theorem assignment_append (pairs : List (Text × Text)) (steps : List AssignmentStep) :
    assignment (collecting pairs ++ steps) = (ofList pairs).after steps := by
  rw [assignment, after, collecting, List.foldl_append, List.foldl_map]
  rfl

theorem assignment_concat : assignment (history ++ [last]) = (assignment history).step last := by
  rw [assignment, after, List.foldl_append]
  rfl

theorem lastAbsent_le : lastAbsent history token ≤ history.length :=
  Nat.findGreatest_le _

theorem lastAbsent_of_absent (absent : token ∉ (assignment history).tokens) :
    lastAbsent history token = history.length := by
  refine Nat.le_antisymm lastAbsent_le (Nat.le_findGreatest (Nat.le_refl _) ?_)
  rwa [List.take_length, get?_eq_none_iff]

theorem lastAbsent_lt (present : token ∈ (assignment history).tokens) :
    lastAbsent history token < history.length := by
  refine Nat.lt_of_le_of_ne lastAbsent_le fun whole => ?_
  -- nothing is bound before the first step
  have absent := Nat.findGreatest_spec (P := fun time =>
    (assignment (history.take time)).get? token = none) (Nat.zero_le history.length) rfl
  rw [← lastAbsent, whole, List.take_length, get?_eq_none_iff] at absent
  exact absent present

theorem lastAbsent_concat : lastAbsent (history ++ [last]) token =
    if token ∈ (assignment (history ++ [last])).tokens then lastAbsent history token
    else history.length + 1 := by
  have earlier (bound : Nat) (within : bound ≤ history.length) :
      Nat.findGreatest
        (fun time => (assignment ((history ++ [last]).take time)).get? token = none) bound =
      Nat.findGreatest (fun time => (assignment (history.take time)).get? token = none) bound := by
    induction bound with
    | zero => rfl
    | succ bound ih =>
      rw [Nat.findGreatest_succ, Nat.findGreatest_succ, ih (Nat.le_of_succ_le within),
        List.take_append_of_le_length within]
  split
  · rename_i present
    rw [lastAbsent, List.length_append, List.length_singleton, Nat.findGreatest_succ,
      earlier _ (Nat.le_refl _), lastAbsent, if_neg]
    rw [List.take_of_length_le (by simp), get?_eq_none_iff]
    exact not_not_intro present
  · rename_i absent
    rw [lastAbsent_of_absent absent, List.length_append, List.length_singleton]

theorem tokens_concat_bind : (assignment (history ++ [.bind token value])).tokens =
    if token ∈ (assignment history).tokens then (assignment history).tokens
    else (assignment history).tokens ++ [token] := by
  rw [assignment_concat]
  exact tokens_bind _ token value

theorem lastAbsent_concat_bind (new : token ∉ (assignment history).tokens) :
    lastAbsent (history ++ [.bind token value]) token = history.length := by
  have present : token ∈ (assignment (history ++ [.bind token value])).tokens := by
    rw [tokens_concat_bind, if_neg new]
    exact List.mem_append_right _ (List.mem_singleton_self token)
  rw [lastAbsent_concat, if_pos present, lastAbsent_of_absent new]

theorem lastValue?_of_absent (absent : token ∉ (assignment history).tokens) :
    lastValue? history token = none := by
  rw [lastValue?, lastAbsent_of_absent absent, List.drop_length]
  rfl

theorem get?_eq_lastValue?_of_absent (absent : token ∉ (assignment history).tokens) :
    (assignment history).get? token = lastValue? history token := by
  rw [lastValue?_of_absent absent, get?_eq_none_iff]
  exact absent

theorem lastValue?_concat (present : token ∈ (assignment (history ++ [last])).tokens) :
    lastValue? (history ++ [last]) token =
      (last.valueFor? token).or (lastValue? history token) := by
  rw [lastValue?, lastAbsent_concat, if_pos present, List.drop_append_of_le_length lastAbsent_le,
    List.reverse_append, List.reverse_singleton, List.findSome?_append, ← lastValue?,
    List.findSome?_singleton]

structure Told (history : AssignmentHistory) : Prop where
  order : (assignment history).tokens.Pairwise fun first second =>
    lastAbsent history first < lastAbsent history second
  value : ∀ token, (assignment history).get? token = lastValue? history token

theorem Told.nodup (told : history.Told) : (assignment history).tokens.Nodup := by
  rw [List.nodup_iff_pairwise_ne]
  refine told.order.imp fun {first second} before same => ?_
  exact Nat.lt_irrefl (lastAbsent history first) (same ▸ before)

theorem Told.pairwise_of_sublist (told : history.Told) {kept : List Text}
    (inOrder : kept.Sublist (assignment history).tokens)
    (stays : ∀ token ∈ kept, token ∈ (assignment (history ++ [last])).tokens) :
    kept.Pairwise fun first second =>
      lastAbsent (history ++ [last]) first < lastAbsent (history ++ [last]) second := by
  refine (told.order.sublist inOrder).imp_of_mem fun {first second} here there before => ?_
  rwa [lastAbsent_concat, if_pos (stays first here), lastAbsent_concat, if_pos (stays second there)]

theorem Told.order_bind (told : history.Told) (token value : Text) :
    (assignment (history ++ [.bind token value])).tokens.Pairwise fun first second =>
      lastAbsent (history ++ [.bind token value]) first <
        lastAbsent (history ++ [.bind token value]) second := by
  have stays (other : Text) (present : other ∈ (assignment history).tokens) :
      other ∈ (assignment (history ++ [.bind token value])).tokens := by
    rw [tokens_concat_bind]
    split
    · exact present
    · exact List.mem_append_left _ present
  have kept := told.pairwise_of_sublist (List.Sublist.refl _) stays
  rw [tokens_concat_bind]
  split
  · exact kept
  · rename_i new
    refine List.pairwise_append.mpr ⟨kept, List.pairwise_singleton _ _, fun other present => ?_⟩
    simp only [List.mem_singleton, forall_eq]
    rw [lastAbsent_concat, if_pos (stays other present), lastAbsent_concat_bind new]
    exact lastAbsent_lt present

theorem Told.bind (told : history.Told) (token value : Text) :
    Told (history ++ [.bind token value]) := by
  refine ⟨told.order_bind token value, fun other => ?_⟩
  by_cases present : other ∈ (assignment (history ++ [.bind token value])).tokens
  · have bound : (assignment (history ++ [.bind token value])).get? other =
        if token = other then some value else (assignment history).get? other := by
      rw [assignment_concat]
      exact get?_bind _ token value other
    rw [lastValue?_concat present, bound, told.value other, AssignmentStep.valueFor?]
    split <;> rfl
  · exact get?_eq_lastValue?_of_absent present

theorem Told.rest (told : history.Told) : Told (history ++ [.rest]) := by
  have left : assignment (history ++ [.rest]) = (assignment history).step .rest :=
    assignment_concat
  have tokens := tokens_rest (assignment history)
  rw [← left] at tokens
  refine ⟨?_, fun token => ?_⟩
  · apply told.pairwise_of_sublist
    · rw [tokens]
      exact List.tail_sublist _
    · exact fun token present => present
  · by_cases present : token ∈ (assignment (history ++ [.rest])).tokens
    · rw [lastValue?_concat present, left, get?_rest told.nodup (left ▸ present), told.value]
      rfl
    · exact get?_eq_lastValue?_of_absent present

theorem told (history : AssignmentHistory) : history.Told := by
  induction history using List.reverseRecOn with
  | nil => exact ⟨List.Pairwise.nil, fun _ => rfl⟩
  | append_singleton history last ih =>
    cases last with
    | bind token value => exact ih.bind token value
    | rest => exact ih.rest

end AssignmentHistory

namespace Assignment

/-- Whatever an assignment has gone through, no token stands in it twice. A token has the value that
it was given last since it was last absent, and the tokens stand in the order in which they came in
after that; to bind a token again does not move it. What is split off is the binding that came in
first, all others stay as they are, and so one binding after the other comes out in this order. -/
theorem binds_in_order_of_arrival (pairs : List (Text × Text)) (steps : List AssignmentStep) :
    let assignment := (ofList pairs).after steps
    let history := AssignmentHistory.collecting pairs ++ steps
    assignment.tokens.Nodup ∧
    (∀ token, assignment.get? token = AssignmentHistory.lastValue? history token) ∧
    (assignment.tokens.Pairwise fun first second =>
      AssignmentHistory.lastAbsent history first < AssignmentHistory.lastAbsent history second) ∧
    (∀ token value, (assignment.bind token value).tokens =
      if token ∈ assignment.tokens then assignment.tokens else assignment.tokens ++ [token]) ∧
    (match assignment.splitFirst? with
      | none => assignment.tokens = []
      | some ((token, value), rest) =>
        assignment.tokens = token :: rest.tokens ∧ assignment.get? token = some value ∧
        ∀ other, rest.get? other = if other = token then none else assignment.get? other) ∧
    assignment.popAll.map (·.1) = assignment.tokens ∧
    ∀ token value, (token, value) ∈ assignment.popAll ↔ assignment.get? token = some value := by
  intro assignment history
  have told := AssignmentHistory.told history
  have whole : AssignmentHistory.assignment history = assignment :=
    AssignmentHistory.assignment_append pairs steps
  have distinct : assignment.tokens.Nodup := whole ▸ told.nodup
  refine ⟨distinct, whole ▸ told.value, whole ▸ told.order, tokens_bind assignment,
    splitFirst?_spec distinct, ?_, fun token value => ?_⟩
  · rw [popAll_eq]
    rfl
  · rw [popAll_eq]
    exact (get?_eq_some_iff_mem distinct).symm

/-- The token <x> is bound again in its place, leaves, and comes back behind <y>. -/
example : ((ofList [("<x>".toList, "1".toList), ("<y>".toList, "2".toList)]).after
    [.bind "<x>".toList "3".toList, .rest, .bind "<x>".toList "4".toList]).bindings =
      [("<y>".toList, "2".toList), ("<x>".toList, "4".toList)] := by
  decide

end Assignment

end SyncGrammar
