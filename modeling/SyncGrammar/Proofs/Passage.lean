import Mathlib.Logic.Relation
import SyncGrammar.Regex.Search

/-!
Ways through an expression, without preferences and bounds. Whatever either matcher finds is such a
way, so that what holds of all ways holds of every match: the place never moves backwards or off the
subject, groups only add to what has been recorded, and what an expression records is recorded under
the numbers of its own groups.
-/
namespace SyncGrammar

namespace Regex

/-- An expression may lead from one mark to another. The bounds of repetitions and the conditions of
anchors and looks are left aside. -/
inductive Passes (subject : Subject) : Regex → Mark → Mark → Prop
  | empty {mark : Mark} : Passes subject .empty mark mark
  | char {set : CharClass} {mark after : Mark}
      (stands : Subject.step? subject set mark = some after) : Passes subject (.char set) mark after
  | seq {left right : Regex} {mark between after : Mark} (first : Passes subject left mark between)
      (second : Passes subject right between after) : Passes subject (.seq left right) mark after
  | left {left right : Regex} {mark after : Mark} (chosen : Passes subject left mark after) :
      Passes subject (.alt left right) mark after
  | right {left right : Regex} {mark after : Mark} (chosen : Passes subject right mark after) :
      Passes subject (.alt left right) mark after
  | leave {body : Regex} {least : Nat} {most : Option Nat} {greedy : Bool} {mark : Mark} :
      Passes subject (.loop body least most greedy) mark mark
  | again {body : Regex} {least : Nat} {most : Option Nat} {greedy : Bool}
      {mark between after : Mark} (once : Passes subject body mark between)
      (more : Passes subject (.loop body least most greedy) between after) :
      Passes subject (.loop body least most greedy) mark after
  | group {index : Nat} {body : Regex} {mark inner : Mark}
      (inside : Passes subject body mark inner) :
      Passes subject (.group index body) mark (inner.capture index mark.position)
  | backreference {index : Nat} {mark after : Mark}
      (recalled : Subject.recalled? subject index mark = some after) :
      Passes subject (.backreference index) mark after
  | anchor {condition : Anchor} {mark : Mark} : Passes subject (.anchor condition) mark mark
  | ahead {positive : Bool} {body : Regex} {mark inner : Mark}
      (seen : Passes subject body mark inner) :
      Passes subject (.ahead positive body) mark { inner with position := mark.position }
  | unseenAhead {positive : Bool} {body : Regex} {mark : Mark} :
      Passes subject (.ahead positive body) mark mark
  | behind {positive : Bool} {widths : List Nat} {body : Regex} {mark inner : Mark} {start : Nat}
      (before : start ≤ mark.position)
      (seen : Passes subject body { mark with position := start } inner)
      (here : inner.position = mark.position) :
      Passes subject (.behind positive widths body) mark inner
  | unseenBehind {positive : Bool} {widths : List Nat} {body : Regex} {mark : Mark} :
      Passes subject (.behind positive widths body) mark mark
  | atomic {body : Regex} {mark after : Mark} (inside : Passes subject body mark after) :
      Passes subject (.atomic body) mark after
  | fulfilled {condition yes no : Regex} {mark inner after : Mark}
      (decided : Passes subject condition mark inner) (onward : Passes subject yes inner after) :
      Passes subject (.conditional condition yes no) mark after
  | unfulfilled {condition yes no : Regex} {mark after : Mark}
      (onward : Passes subject no mark after) :
      Passes subject (.conditional condition yes no) mark after

variable {subject : Subject} {body regex : Regex} {mark after : Mark}

/-! The ways that are listed for a plain expression. -/

theorem mem_of_mem_distinctFrom {seen : List Nat} {marks : List Mark}
    (member : mark ∈ Mark.distinctFrom seen marks) : mark ∈ marks := by
  fun_induction Mark.distinctFrom seen marks with
  | case1 => exact member
  | case2 _ _ _ _ ih => exact List.mem_cons_of_mem _ (ih member)
  | case3 _ _ _ _ ih =>
    rcases List.mem_cons.mp member with rfl | later
    · exact List.mem_cons_self
    · exact List.mem_cons_of_mem _ (ih later)

theorem mem_of_mem_distinct {marks : List Mark} (member : mark ∈ Mark.distinct marks) :
    mark ∈ marks :=
  mem_of_mem_distinctFrom member

theorem exists_of_mem_follow {ways : List Mark} {step : Mark → List Mark}
    (member : after ∈ follow ways step) : ∃ between ∈ ways, after ∈ step between :=
  List.mem_flatMap.mp (mem_of_mem_distinct member)

abbrev Along (step : Mark → List Mark) : Mark → Mark → Prop :=
  Relation.ReflTransGen fun mark next => next ∈ step mark

variable {step : Mark → List Mark}

theorem along_of_mem_times {count : Nat} (member : after ∈ times step count mark) :
    Along step mark after := by
  induction count generalizing after with
  | zero =>
    rw [List.mem_singleton.mp member]
  | succ count ih =>
    obtain ⟨between, earlier, last⟩ := exists_of_mem_follow member
    exact (ih earlier).tail last

theorem along_of_mem_upTo {greedy : Bool} {count : Nat}
    (member : after ∈ upTo step greedy count mark) : Along step mark after := by
  induction count generalizing mark with
  | zero =>
    rw [List.mem_singleton.mp member]
  | succ count ih =>
    have either : after = mark ∨ after ∈ (step mark).flatMap (upTo step greedy count) := by
      have listed := mem_of_mem_distinct member
      split at listed
      · simpa [or_comm] using listed
      · simpa using listed
    rcases either with rfl | further
    · exact .refl
    · obtain ⟨next, first, later⟩ := List.mem_flatMap.mp further
      exact .head first (ih later)

def LoopTask.stand : LoopTask → Mark
  | .enter mark | .arrive mark | .leave mark => mark

theorem along_of_mem_explore {greedy : Bool} {fuel : Nat} {entered arrived : List Nat}
    {tasks : List LoopTask} (member : after ∈ explore step greedy fuel entered arrived tasks) :
    ∃ task ∈ tasks, Along step task.stand after := by
  fun_induction explore step greedy fuel entered arrived tasks with
  | case1 => cases member
  | case2 => cases member
  | case3 fuel entered arrived mark rest _ ih =>
    obtain ⟨task, inside, along⟩ := ih member
    exact ⟨task, List.mem_cons_of_mem _ inside, along⟩
  | case4 fuel entered arrived mark rest _ ih =>
    obtain ⟨task, inside, along⟩ := ih member
    rcases List.mem_append.mp inside with new | old
    · obtain ⟨next, first, rfl⟩ := List.mem_map.mp new
      exact ⟨.enter mark, List.mem_cons_self, .head first along⟩
    · exact ⟨task, List.mem_cons_of_mem _ old, along⟩
  | case5 fuel entered arrived mark rest _ ih =>
    obtain ⟨task, inside, along⟩ := ih member
    exact ⟨task, List.mem_cons_of_mem _ inside, along⟩
  | case6 fuel entered arrived mark rest _ ih =>
    obtain ⟨task, inside, along⟩ := ih member
    have either : task.stand = mark ∨ task ∈ rest := by
      have listed : task = .enter mark ∨ task = .leave mark ∨ task ∈ rest := by
        split at inside
        · simpa using inside
        · simpa [or_left_comm] using inside
      rcases listed with rfl | rfl | old
      · exact Or.inl rfl
      · exact Or.inl rfl
      · exact Or.inr old
    rcases either with here | old
    · exact ⟨.arrive mark, List.mem_cons_self, here ▸ along⟩
    · exact ⟨task, List.mem_cons_of_mem _ old, along⟩
  | case7 fuel entered arrived mark rest ih =>
    rcases List.mem_cons.mp member with rfl | later
    · exact ⟨.leave after, List.mem_cons_self, .refl⟩
    · obtain ⟨task, inside, along⟩ := ih later
      exact ⟨task, List.mem_cons_of_mem _ inside, along⟩

theorem along_of_mem_atLeast {least : Nat} {greedy : Bool}
    (member : after ∈ atLeast subject step least greedy mark) : Along step mark after := by
  cases least with
  | zero =>
    have either : after = mark ∨ after ∈ explore step greedy
        (4 * (subject.size + 2) * (subject.size + 2)) [] [] [.enter mark] := by
      have listed := mem_of_mem_distinct member
      split at listed
      · simpa [or_comm] using listed
      · simpa using listed
    rcases either with rfl | explored
    · exact .refl
    · obtain ⟨task, inside, along⟩ := along_of_mem_explore explored
      rw [List.mem_singleton.mp inside] at along
      exact along
  | succ least =>
    obtain ⟨task, inside, along⟩ := along_of_mem_explore (mem_of_mem_distinct member)
    obtain ⟨between, earlier, rfl⟩ := List.mem_map.mp inside
    exact (along_of_mem_times earlier).trans along

theorem passes_loop_of_along {least : Nat} {most : Option Nat} {greedy : Bool}
    (passes : ∀ mark after, after ∈ step mark → Passes subject body mark after)
    (along : Along step mark after) : Passes subject (.loop body least most greedy) mark after := by
  induction along using Relation.ReflTransGen.head_induction_on with
  | refl => exact .leave
  | head first _ ih => exact .again (passes _ _ first) ih

theorem along_of_le_runLength {set : CharClass} {limit count : Nat}
    (within : count ≤ runLength subject set limit mark.position) :
    Along (fun mark => (Subject.step? subject set mark).toList) mark
      { mark with position := mark.position + count } := by
  induction limit generalizing mark count with
  | zero =>
    obtain rfl : count = 0 := Nat.le_zero.mp within
    exact .refl
  | succ limit ih =>
    cases count with
    | zero => exact .refl
    | succ count =>
      rw [runLength] at within
      split at within
      · rename_i stands
        have next : mark.advance ∈ (Subject.step? subject set mark).toList := by
          simp [Subject.step?, stands]
        have further : count ≤ runLength subject set limit mark.advance.position :=
          Nat.le_of_succ_le_succ within
        have onward := ih further
        have place : mark.position + 1 + count = mark.position + (count + 1) := by omega
        simp only [Mark.advance, place] at onward
        exact .head next onward
      · omega

theorem along_of_mem_runs {set : CharClass} {least : Nat} {most : Option Nat} {greedy : Bool}
    (member : after ∈ runs subject set least most greedy mark) :
    Along (fun mark => (Subject.step? subject set mark).toList) mark after := by
  have listed : ∃ count, count ≤ runLength subject set (most.getD subject.size) mark.position ∧
      { mark with position := mark.position + count } = after := by
    unfold runs at member
    dsimp only at member
    split at member
    · obtain ⟨count, inside, same⟩ := List.mem_map.mp (List.mem_reverse.mp member)
      have bounds := List.mem_range'_1.mp inside
      exact ⟨count, by omega, same⟩
    · obtain ⟨count, inside, same⟩ := List.mem_map.mp member
      have bounds := List.mem_range'_1.mp inside
      exact ⟨count, by omega, same⟩
  obtain ⟨count, within, rfl⟩ := listed
  exact along_of_le_runLength within

theorem passes_of_step? {set : CharClass} (mark after : Mark)
    (member : after ∈ (Subject.step? subject set mark).toList) :
    Passes subject (.char set) mark after :=
  .char (Option.mem_toList.mp member)

theorem passes_loop_of_mem_outcomes {least : Nat} {most : Option Nat} {greedy : Bool}
    (inside : ∀ mark after, after ∈ body.outcomes subject mark → Passes subject body mark after)
    (member : after ∈ (loop body least most greedy).outcomes subject mark) :
    Passes subject (.loop body least most greedy) mark after := by
  by_cases single : ∃ set, body = .char set
  · obtain ⟨set, rfl⟩ := single
    exact passes_loop_of_along passes_of_step? (along_of_mem_runs member)
  · have composed : ∀ set, body = .char set → False := fun set same => single ⟨set, same⟩
    apply passes_loop_of_along inside
    cases most with
    | none =>
      rw [outcomes.eq_6 subject mark body least greedy composed] at member
      exact along_of_mem_atLeast member
    | some most =>
      rw [outcomes.eq_7 subject mark body least greedy most composed] at member
      obtain ⟨between, earlier, later⟩ := exists_of_mem_follow member
      exact (along_of_mem_times earlier).trans (along_of_mem_upTo later)

/-- Every way that is listed leads through the expression. -/
theorem passes_of_mem_outcomes (member : after ∈ regex.outcomes subject mark) :
    Passes subject regex mark after := by
  induction regex generalizing mark after with
  | empty =>
    rw [outcomes, List.mem_singleton] at member
    exact member ▸ .empty
  | char set => exact passes_of_step? mark after member
  | seq left right first second =>
    obtain ⟨between, earlier, later⟩ := exists_of_mem_follow member
    exact .seq (first earlier) (second later)
  | alt left right first second =>
    rcases List.mem_append.mp (mem_of_mem_distinct member) with chosen | chosen
    · exact .left (first chosen)
    · exact .right (second chosen)
  | loop body least most greedy inside =>
    exact passes_loop_of_mem_outcomes (fun _ _ => inside) member
  | group index body inside =>
    obtain ⟨inner, listed, rfl⟩ := List.mem_map.mp member
    exact .group (inside listed)
  | backreference index => exact .backreference (Option.mem_toList.mp member)
  | anchor condition =>
    rw [outcomes] at member
    split at member
    · rw [List.mem_singleton.mp member]
      exact .anchor
    · cases member
  | ahead positive body inside =>
    rw [outcomes] at member
    split at member
    · rename_i inner first
      split at member
      · rw [List.mem_singleton.mp member]
        exact .ahead (inside (List.mem_of_mem_head? first))
      · cases member
    · split at member
      · cases member
      · rw [List.mem_singleton.mp member]
        exact .unseenAhead
  | behind positive widths body inside =>
    rw [outcomes] at member
    split at member
    · rename_i inner first
      split at member
      · rw [List.mem_singleton.mp member]
        obtain ⟨start, listed, seen⟩ := List.mem_flatMap.mp (List.mem_of_mem_head? first)
        obtain ⟨width, -, rfl⟩ := List.mem_map.mp listed
        obtain ⟨way, here⟩ := List.mem_filter.mp seen
        exact .behind (Nat.sub_le _ _) (inside way) (of_decide_eq_true here)
      · cases member
    · split at member
      · cases member
      · rw [List.mem_singleton.mp member]
        exact .unseenBehind
  | atomic body inside =>
    exact .atomic (inside (List.mem_of_mem_head? (Option.mem_toList.mp member)))
  | conditional condition yes no decides follows otherwise =>
    rw [outcomes] at member
    split at member
    · rename_i inner preferred
      exact .fulfilled (decides (List.mem_of_mem_head? preferred)) (follows member)
    · exact .unfulfilled (otherwise member)

/-! What a search with steps back finds, it finds behind some way through the expression. -/

/-- A search that goes through `step` before it goes on finds nothing but what it finds behind a way
that `passes` allows. -/
def Follows (passes : Mark → Mark → Prop) (step : Continuation → Continuation) : Prop :=
  ∀ onward mark left final rest, step onward mark left = .found final rest →
    ∃ after remaining, passes mark after ∧ onward after remaining = .found final rest

theorem found_of_orElse {first : Attempt} {second : Nat → Attempt} {final : Mark} {rest : Nat}
    (found : first.orElse second = .found final rest) :
    first = .found final rest ∨ ∃ left, second left = .found final rest := by
  unfold Attempt.orElse at found
  split at found
  · cases found
  · exact Or.inr ⟨_, found⟩
  · exact Or.inl found

variable {walk : Continuation → Continuation} {passes : Mark → Mark → Prop}

theorem follows_runTimes (follows : Follows passes walk) (count : Nat) :
    Follows (Relation.ReflTransGen passes) (runTimes walk count) := by
  induction count with
  | zero => exact fun onward mark left final rest found => ⟨mark, left, .refl, found⟩
  | succ count ih =>
    intro onward mark left final rest found
    obtain ⟨between, remaining, first, found⟩ := follows _ _ _ _ _ found
    obtain ⟨after, remaining, later, found⟩ := ih _ _ _ _ _ found
    exact ⟨after, remaining, .head first later, found⟩

theorem follows_runUpTo (follows : Follows passes walk) (greedy : Bool) (count : Nat) :
    Follows (Relation.ReflTransGen passes) fun onward => runUpTo walk greedy onward count := by
  induction count with
  | zero => exact fun onward mark left final rest found => ⟨mark, left, .refl, found⟩
  | succ count ih =>
    intro onward mark left final rest found
    have further (left : Nat)
        (found : walk (runUpTo walk greedy onward count) mark left = .found final rest) :
        ∃ after remaining, Relation.ReflTransGen passes mark after ∧
          onward after remaining = .found final rest := by
      obtain ⟨between, remaining, first, found⟩ := follows _ _ _ _ _ found
      obtain ⟨after, remaining, later, found⟩ := ih _ _ _ _ _ found
      exact ⟨after, remaining, .head first later, found⟩
    dsimp only [runUpTo] at found
    split at found
    · rcases found_of_orElse found with found | ⟨left, found⟩
      · exact further _ found
      · exact ⟨mark, left, .refl, found⟩
    · rcases found_of_orElse found with found | ⟨left, found⟩
      · exact ⟨mark, _, .refl, found⟩
      · exact further left found

theorem follows_runStar (follows : Follows passes walk) (greedy : Bool) (fuel : Nat) :
    Follows (Relation.ReflTransGen passes) fun onward => runStar walk greedy onward fuel := by
  induction fuel with
  | zero =>
    intro onward mark left final rest found
    cases found
  | succ fuel ih =>
    intro onward mark left final rest found
    have further (left : Nat)
        (found : walk (fun next left => if next.position = mark.position then .failed left
          else runStar walk greedy onward fuel next left) mark left = .found final rest) :
        ∃ after remaining, Relation.ReflTransGen passes mark after ∧
          onward after remaining = .found final rest := by
      obtain ⟨between, remaining, first, found⟩ := follows _ _ _ _ _ found
      split at found
      · cases found
      · obtain ⟨after, remaining, later, found⟩ := ih _ _ _ _ _ found
        exact ⟨after, remaining, .head first later, found⟩
    dsimp only [runStar] at found
    split at found
    · rcases found_of_orElse found with found | ⟨left, found⟩
      · exact further _ found
      · exact ⟨mark, left, .refl, found⟩
    · rcases found_of_orElse found with found | ⟨left, found⟩
      · exact ⟨mark, _, .refl, found⟩
      · exact further left found

theorem exists_of_runFirst {ways : List Mark} {onward : Continuation} {left : Nat} {final : Mark}
    {rest : Nat} (found : runFirst ways onward left = .found final rest) :
    ∃ way ∈ ways, onward way left = .found final rest := by
  unfold runFirst at found
  split at found
  · rename_i way first
    exact ⟨way, List.mem_of_mem_head? first, found⟩
  · cases found

theorem exists_of_runEach {ways : List (Nat → Attempt)} {left : Nat} {final : Mark} {rest : Nat}
    (found : runEach ways left = .found final rest) :
    ∃ way ∈ ways, ∃ remaining, way remaining = .found final rest := by
  fun_induction runEach ways generalizing left with
  | case1 => cases found
  | case2 last => exact ⟨last, List.mem_cons_self, left, found⟩
  | case3 first rest _ ih =>
    rcases found_of_orElse found with found | ⟨left, found⟩
    · exact ⟨first, List.mem_cons_self, _, found⟩
    · obtain ⟨way, inside, remaining, found⟩ := ih found
      exact ⟨way, List.mem_cons_of_mem _ inside, remaining, found⟩

theorem found_of_runUnless {look : Nat → Attempt} {onward : Continuation} {left : Nat}
    {final : Mark} {rest : Nat} (found : runUnless look mark onward left = .found final rest) :
    ∃ remaining, onward mark remaining = .found final rest := by
  unfold runUnless at found
  split at found
  · cases found
  · cases found
  · exact ⟨_, found⟩
  · cases found

theorem passes_loop_of_reflTransGen {least : Nat} {most : Option Nat} {greedy : Bool}
    (along : Relation.ReflTransGen (Passes subject body) mark after) :
    Passes subject (.loop body least most greedy) mark after := by
  induction along using Relation.ReflTransGen.head_induction_on with
  | refl => exact .leave
  | head first _ ih => exact .again first ih

theorem follows_loop (follows : Follows (Passes subject body) (body.run subject)) (least : Nat)
    (most : Option Nat) (greedy : Bool) :
    Follows (Passes subject (.loop body least most greedy))
      ((loop body least most greedy).run subject) := by
  intro onward mark left final rest found
  cases most with
  | none =>
    rw [run] at found
    obtain ⟨between, remaining, first, found⟩ := follows_runTimes follows _ _ _ _ _ _ found
    obtain ⟨after, remaining, later, found⟩ := follows_runStar follows _ _ _ _ _ _ _ found
    exact ⟨after, remaining, passes_loop_of_reflTransGen (first.trans later), found⟩
  | some most =>
    rw [run] at found
    obtain ⟨between, remaining, first, found⟩ := follows_runTimes follows _ _ _ _ _ _ found
    obtain ⟨after, remaining, later, found⟩ := follows_runUpTo follows _ _ _ _ _ _ _ found
    exact ⟨after, remaining, passes_loop_of_reflTransGen (first.trans later), found⟩

theorem follows_ahead (follows : Follows (Passes subject body) (body.run subject))
    (positive : Bool) :
    Follows (Passes subject (.ahead positive body)) ((ahead positive body).run subject) := by
  intro onward mark left final rest found
  rw [run] at found
  split at found
  · split at found
    · obtain ⟨inner, listed, found⟩ := exists_of_runFirst found
      exact ⟨_, left, .ahead (passes_of_mem_outcomes listed), found⟩
    · obtain ⟨inner, remaining, seen, found⟩ := follows _ _ _ _ _ found
      exact ⟨_, remaining, .ahead seen, found⟩
  · obtain ⟨remaining, found⟩ := found_of_runUnless found
    exact ⟨mark, remaining, .unseenAhead, found⟩

theorem follows_behind (follows : Follows (Passes subject body) (body.run subject))
    (positive : Bool) (widths : List Nat) :
    Follows (Passes subject (.behind positive widths body))
      ((behind positive widths body).run subject) := by
  intro onward mark left final rest found
  rw [run] at found
  split at found
  · obtain ⟨way, inside, remaining, found⟩ := exists_of_runEach found
    obtain ⟨width, -, rfl⟩ := List.mem_map.mp inside
    dsimp only at found
    split at found
    · obtain ⟨inner, listed, found⟩ := exists_of_runFirst found
      obtain ⟨way, here⟩ := List.mem_filter.mp listed
      have seen := passes_of_mem_outcomes way
      exact ⟨inner, remaining, .behind (Nat.sub_le _ _) seen (of_decide_eq_true here), found⟩
    · obtain ⟨inner, remaining, seen, found⟩ := follows _ _ _ _ _ found
      split at found
      · rename_i here
        exact ⟨inner, remaining, .behind (Nat.sub_le _ _) seen here, found⟩
      · cases found
  · obtain ⟨remaining, found⟩ := found_of_runUnless found
    exact ⟨mark, remaining, .unseenBehind, found⟩

theorem follows_atomic (follows : Follows (Passes subject body) (body.run subject)) :
    Follows (Passes subject (.atomic body)) ((atomic body).run subject) := by
  intro onward mark left final rest found
  rw [run] at found
  split at found
  · obtain ⟨way, listed, found⟩ := exists_of_runFirst found
    exact ⟨way, left, .atomic (passes_of_mem_outcomes listed), found⟩
  · split at found
    · rename_i inner remaining alone
      obtain ⟨after, other, inside, same⟩ := follows _ _ _ _ _ alone
      cases same
      exact ⟨inner, remaining, .atomic inside, found⟩
    · rename_i inner unmatched
      exact absurd found (unmatched final rest)

theorem follows_conditional {condition yes no : Regex}
    (decides : Follows (Passes subject condition) (condition.run subject))
    (follows : Follows (Passes subject yes) (yes.run subject))
    (otherwise : Follows (Passes subject no) (no.run subject)) :
    Follows (Passes subject (.conditional condition yes no))
      ((conditional condition yes no).run subject) := by
  intro onward mark left final rest found
  rw [run] at found
  split at found
  · rename_i inner remaining alone
    obtain ⟨between, other, decided, same⟩ := decides _ _ _ _ _ alone
    cases same
    obtain ⟨after, remaining, later, found⟩ := follows _ _ _ _ _ found
    exact ⟨after, remaining, .fulfilled decided later, found⟩
  · obtain ⟨after, remaining, later, found⟩ := otherwise _ _ _ _ _ found
    exact ⟨after, remaining, .unfulfilled later, found⟩
  · cases found
  · cases found

theorem follows_run (regex : Regex) : Follows (Passes subject regex) (regex.run subject) := by
  induction regex with
  | empty => exact fun onward mark left final rest found => ⟨mark, left, .empty, found⟩
  | char set =>
    intro onward mark left final rest found
    rw [run] at found
    split at found
    · rename_i next stands
      exact ⟨next, left, .char stands, found⟩
    · cases found
  | seq first second ihFirst ihSecond =>
    intro onward mark left final rest found
    obtain ⟨between, remaining, earlier, found⟩ := ihFirst _ _ _ _ _ found
    obtain ⟨after, remaining, later, found⟩ := ihSecond _ _ _ _ _ found
    exact ⟨after, remaining, .seq earlier later, found⟩
  | alt first second ihFirst ihSecond =>
    intro onward mark left final rest found
    rcases found_of_orElse found with found | ⟨left, found⟩
    · obtain ⟨after, remaining, chosen, found⟩ := ihFirst _ _ _ _ _ found
      exact ⟨after, remaining, .left chosen, found⟩
    · obtain ⟨after, remaining, chosen, found⟩ := ihSecond _ _ _ _ _ found
      exact ⟨after, remaining, .right chosen, found⟩
  | loop body least most greedy ih => exact follows_loop ih least most greedy
  | group index body ih =>
    intro onward mark left final rest found
    obtain ⟨inner, remaining, inside, found⟩ := ih _ _ _ _ _ found
    exact ⟨_, remaining, .group inside, found⟩
  | backreference index =>
    intro onward mark left final rest found
    rw [run] at found
    split at found
    · rename_i next recalled
      exact ⟨next, left, .backreference recalled, found⟩
    · cases found
  | anchor condition =>
    intro onward mark left final rest found
    rw [run] at found
    split at found
    · exact ⟨mark, left, .anchor, found⟩
    · cases found
  | ahead positive body ih => exact follows_ahead ih positive
  | behind positive widths body ih => exact follows_behind ih positive widths
  | atomic body ih => exact follows_atomic ih
  | conditional condition yes no decides follows otherwise =>
    exact follows_conditional decides follows otherwise

/-! What holds of every way. -/

def numbers : Regex → List Nat
  | empty | char _ | backreference _ | anchor _ => []
  | seq left right | alt left right => left.numbers ++ right.numbers
  | loop body _ _ _ | ahead _ body | behind _ _ body | atomic body => body.numbers
  | group index body => index :: body.numbers
  | conditional condition yes no => condition.numbers ++ yes.numbers ++ no.numbers

theorem advance_of_step? {set : CharClass} (stands : Subject.step? subject set mark = some after) :
    (∃ c, subject[mark.position]? = some c ∧ set.contains c = true) ∧ mark.advance = after := by
  unfold Subject.step? at stands
  split at stands
  · rename_i here
    exact ⟨by simpa [Option.any_eq_true] using here, Option.some.inj stands⟩
  · cases stands

theorem exists_of_recalled? {index : Nat}
    (recalled : Subject.recalled? subject index mark = some after) :
    ∃ start finish, mark.group? index = some (start, finish) ∧
      after = { mark with position := mark.position + (finish - start) } ∧
      Subject.slice subject mark.position after.position = Subject.slice subject start finish := by
  unfold Subject.recalled? at recalled
  obtain ⟨⟨start, finish⟩, recorded, rest⟩ := Option.bind_eq_some_iff.mp recalled
  dsimp only at rest
  split at rest
  · rename_i same
    obtain rfl := Option.some.inj rest
    exact ⟨start, finish, recorded, rfl, same⟩
  · cases rest

theorem Passes.position_le (passes : Passes subject regex mark after) :
    mark.position ≤ after.position := by
  induction passes with
  | empty | leave | anchor | unseenAhead | unseenBehind | ahead => exact Nat.le_refl _
  | char stands =>
    rw [← (advance_of_step? stands).2]
    exact Nat.le_succ _
  | seq _ _ first second | again _ _ first second | fulfilled _ _ first second =>
    exact Nat.le_trans first second
  | left _ ih | right _ ih | atomic _ ih | group _ ih | unfulfilled _ ih => exact ih
  | backreference recalled =>
    obtain ⟨_, _, -, rfl, -⟩ := exists_of_recalled? recalled
    exact Nat.le_add_right _ _
  | behind _ _ here => exact Nat.le_of_eq here.symm

/-- Nothing that has been recorded is taken back, and what is added belongs to some groups. -/
def Adds (own : List Nat) (mark after : Mark) : Prop :=
  ∃ new, after.groups = new ++ mark.groups ∧ ∀ entry ∈ new, entry.1 ∈ own

theorem adds_of_groups_eq {own : List Nat} (same : after.groups = mark.groups) :
    Adds own mark after :=
  ⟨[], same, fun _ inside => absurd inside List.not_mem_nil⟩

theorem Adds.mono {own more : List Nat} (adds : Adds own mark after)
    (within : ∀ index ∈ own, index ∈ more) : Adds more mark after := by
  obtain ⟨new, same, among⟩ := adds
  exact ⟨new, same, fun entry inside => within _ (among entry inside)⟩

theorem Adds.trans {own : List Nat} {between : Mark} (first : Adds own mark between)
    (second : Adds own between after) : Adds own mark after := by
  obtain ⟨early, earlyEq, earlyOwn⟩ := first
  obtain ⟨late, lateEq, lateOwn⟩ := second
  refine ⟨late ++ early, by rw [lateEq, earlyEq, List.append_assoc], fun entry inside => ?_⟩
  rcases List.mem_append.mp inside with there | there
  · exact lateOwn entry there
  · exact earlyOwn entry there

theorem Passes.adds (passes : Passes subject regex mark after) :
    Adds regex.numbers mark after := by
  induction passes with
  | empty | leave | anchor | unseenAhead | unseenBehind => exact adds_of_groups_eq rfl
  | char stands =>
    rw [← (advance_of_step? stands).2]
    exact adds_of_groups_eq rfl
  | backreference recalled =>
    obtain ⟨_, _, -, rfl, -⟩ := exists_of_recalled? recalled
    exact adds_of_groups_eq rfl
  | seq _ _ first second =>
    exact (first.mono fun _ => List.mem_append_left _).trans
      (second.mono fun _ => List.mem_append_right _)
  | again _ _ first second => exact first.trans second
  | fulfilled _ _ first second =>
    have decided := (first.mono fun _ => List.mem_append_left _).trans
      (second.mono fun _ => List.mem_append_right _)
    exact decided.mono fun _ => List.mem_append_left _
  | left _ ih => exact ih.mono fun _ => List.mem_append_left _
  | right _ ih | unfulfilled _ ih => exact ih.mono fun _ => List.mem_append_right _
  | @group index body mark inner _ ih =>
    have recorded : Adds (index :: body.numbers) inner (inner.capture index mark.position) :=
      ⟨[(index, mark.position, inner.position)], rfl, by simp⟩
    exact (ih.mono fun _ => List.mem_cons_of_mem _).trans recorded
  | ahead _ ih | behind _ _ _ ih | atomic _ ih => exact ih

theorem Passes.group?_eq {index : Nat} (passes : Passes subject regex mark after)
    (other : index ∉ regex.numbers) : after.group? index = mark.group? index := by
  obtain ⟨new, same, own⟩ := passes.adds
  have absent : new.lookup index = none := by
    rw [List.lookup_eq_none_iff]
    intro entry inside
    exact bne_iff_ne.mpr fun same => other (same ▸ own entry inside)
  rw [Mark.group?, same, List.lookup_append, absent, Option.none_or, Mark.group?]

structure Within (subject : Subject) (mark : Mark) : Prop where
  position_le : mark.position ≤ subject.size
  recorded : ∀ entry ∈ mark.groups, entry.2.1 ≤ entry.2.2 ∧ entry.2.2 ≤ subject.size

theorem Within.of_group? {index start finish : Nat} (within : Within subject mark)
    (recorded : mark.group? index = some (start, finish)) :
    start ≤ finish ∧ finish ≤ subject.size := by
  obtain ⟨before, after, same, -⟩ := List.lookup_eq_some_iff.mp recorded
  apply within.recorded (index, start, finish)
  rw [same]
  exact List.mem_append_right _ List.mem_cons_self

theorem length_slice {start finish : Nat} (inside : finish ≤ subject.size) :
    (Subject.slice subject start finish).length = finish - start := by
  rw [Subject.slice, Array.length_toList, Array.size_extract, Nat.min_eq_left inside]

theorem Passes.within (passes : Passes subject regex mark after) (within : Within subject mark) :
    Within subject after := by
  induction passes with
  | empty | leave | anchor | unseenAhead | unseenBehind => exact within
  | char stands =>
    obtain ⟨⟨c, here, -⟩, rfl⟩ := advance_of_step? stands
    exact ⟨(Array.getElem?_eq_some_iff.mp here).1, within.recorded⟩
  | seq _ _ first second | again _ _ first second | fulfilled _ _ first second =>
    exact second (first within)
  | left _ ih | right _ ih | atomic _ ih | unfulfilled _ ih => exact ih within
  | group inside ih =>
    have inner := ih within
    refine ⟨inner.position_le, fun entry there => ?_⟩
    rcases List.mem_cons.mp there with rfl | old
    · exact ⟨inside.position_le, inner.position_le⟩
    · exact inner.recorded entry old
  | @backreference index mark after recalled =>
    obtain ⟨start, finish, recorded, rfl, same⟩ := exists_of_recalled? recalled
    have bounds := within.of_group? recorded
    refine ⟨?_, within.recorded⟩
    have lengths := congrArg List.length same
    rw [length_slice bounds.2, Subject.slice, Array.length_toList, Array.size_extract] at lengths
    have here := within.position_le
    dsimp only at lengths ⊢
    omega
  | ahead _ ih => exact ⟨within.position_le, (ih within).recorded⟩
  | behind before _ here ih =>
    have inner := ih ⟨Nat.le_trans before within.position_le, within.recorded⟩
    exact inner

/-! Every match is a way through the expression from an empty record. -/

structure Sound (regex : Regex) (subject : Subject) (start : Nat) (found : Match) : Prop where
  passes : Passes subject regex ⟨found.start, []⟩ found.mark
  le_start : start ≤ found.start
  start_le : found.start ≤ subject.size

theorem Sound.within {start : Nat} {found : Match} (sound : Sound regex subject start found) :
    Within subject found.mark :=
  sound.passes.within ⟨sound.start_le, fun _ inside => absurd inside List.not_mem_nil⟩

theorem Sound.mono {start earlier : Nat} {found : Match} (sound : Sound regex subject start found)
    (le : earlier ≤ start) : Sound regex subject earlier found :=
  ⟨sound.passes, Nat.le_trans le sound.le_start, sound.start_le⟩

theorem passes_of_searchPlain {count start first : Nat}
    (matched : searchPlain regex subject count start = .matched first mark) :
    Passes subject regex ⟨first, []⟩ mark ∧ start ≤ first ∧ first < start + count := by
  induction count generalizing start with
  | zero => cases matched
  | succ count ih =>
    rw [searchPlain] at matched
    split at matched
    · rename_i way preferred
      cases matched
      exact ⟨passes_of_mem_outcomes (List.mem_of_mem_head? preferred), Nat.le_refl _, by omega⟩
    · obtain ⟨passes, lower, upper⟩ := ih matched
      exact ⟨passes, by omega, by omega⟩

theorem passes_of_searchBack {count start left first : Nat}
    (matched : searchBack regex subject count start left = .matched first mark) :
    Passes subject regex ⟨first, []⟩ mark ∧ start ≤ first ∧ first < start + count := by
  induction count generalizing start left with
  | zero => cases matched
  | succ count ih =>
    rw [searchBack] at matched
    split at matched
    · rename_i way remaining found
      cases matched
      obtain ⟨after, _, passes, same⟩ := follows_run regex _ _ _ _ _ found
      cases same
      exact ⟨passes, Nat.le_refl _, by omega⟩
    · cases matched
    · obtain ⟨passes, lower, upper⟩ := ih matched
      exact ⟨passes, by omega, by omega⟩
    · cases matched

theorem Passes.of_resumedAt {place : Nat}
    (passes : Passes subject (regex.resumedAt place) mark after) :
    Passes subject regex mark after := by
  induction regex generalizing mark after with
  | empty | char | backreference => exact passes
  | anchor condition =>
    cases passes
    exact .anchor
  | seq left right first second =>
    cases passes with
    | seq earlier later => exact .seq (first earlier) (second later)
  | alt left right first second =>
    cases passes with
    | left chosen => exact .left (first chosen)
    | right chosen => exact .right (second chosen)
  | loop body least most greedy ih =>
    generalize whole : (loop body least most greedy).resumedAt place = other at passes
    induction passes with
    | leave =>
      cases whole
      exact .leave
    | again once _ _ further =>
      cases whole
      exact .again (ih once) (further rfl)
    | _ => cases whole
  | group index body ih =>
    cases passes with
    | group inside => exact .group (ih inside)
  | ahead positive body ih =>
    cases passes with
    | ahead seen => exact .ahead (ih seen)
    | unseenAhead => exact .unseenAhead
  | behind positive widths body ih =>
    cases passes with
    | behind before seen here => exact .behind before (ih seen) here
    | unseenBehind => exact .unseenBehind
  | atomic body ih =>
    cases passes with
    | atomic inside => exact .atomic (ih inside)
  | conditional condition yes no decides follows otherwise =>
    cases passes with
    | fulfilled decided onward => exact .fulfilled (decides decided) (follows onward)
    | unfulfilled onward => exact .unfulfilled (otherwise onward)

theorem sound_of_search {start first : Nat}
    (matched : search regex subject start = .matched first mark) :
    Sound regex subject start ⟨first, mark⟩ := by
  have reached : Passes subject regex ⟨first, []⟩ mark ∧ start ≤ first ∧
      first < start + (subject.size + 1 - start) := by
    unfold search at matched
    dsimp only at matched
    split at matched
    · exact passes_of_searchPlain matched
    · obtain ⟨passes, bounds⟩ := passes_of_searchBack matched
      exact ⟨passes.of_resumedAt, bounds⟩
  obtain ⟨passes, lower, upper⟩ := reached
  exact ⟨passes, lower, by dsimp only; omega⟩

theorem sound_of_mem_matchesFrom {fuel start : Nat} {previous : Option Nat} {found : Match}
    (member : found ∈ (matchesFrom regex subject fuel start previous).found) :
    Sound regex subject start found := by
  induction fuel generalizing start previous with
  | zero => cases member
  | succ fuel ih =>
    rw [matchesFrom] at member
    split at member
    · cases member
    · cases member
    · rename_i first mark matched
      have sound := sound_of_search matched
      have onward : start ≤ mark.position :=
        Nat.le_trans sound.le_start sound.passes.position_le
      dsimp only at member
      split at member
      · split at member
        · exact (ih member).mono (Nat.le_succ_of_le onward)
        · rcases List.mem_cons.mp member with rfl | later
          · exact sound
          · exact (ih later).mono (Nat.le_succ_of_le onward)
      · rcases List.mem_cons.mp member with rfl | later
        · exact sound
        · exact (ih later).mono onward

theorem sound_of_mem_findAll {found : Match} (member : found ∈ (regex.findAll subject).found) :
    Sound regex subject 0 found :=
  sound_of_mem_matchesFrom member

end Regex

end SyncGrammar
