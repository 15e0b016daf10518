import Mathlib.Control.Monad.Basic
import SyncGrammar.Grammar.Expansion

namespace SyncGrammar

def ExpansionMemo.Faithful (grammar : Grammar) (memo : ExpansionMemo) : Prop :=
  ∀ entry ∈ memo, grammar.expand entry.1.2 entry.1.1 = .ok entry.2

namespace MemoM

variable {α β : Type} {grammar : Grammar}

/-- With any faithful memo a computation comes to the same result, and it leaves the memo
faithful. -/
def Computes (grammar : Grammar) (computation : MemoM α)
    (result : Except ConfigurationError α) : Prop :=
  ∀ memo : ExpansionMemo, memo.Faithful grammar →
    (computation.run memo).1 = result ∧ (computation.run memo).2.Faithful grammar

theorem computes_pure (value : α) : Computes grammar (pure value) (pure value) :=
  fun _ faithful => ⟨rfl, faithful⟩

theorem run_get_bind (next : ExpansionMemo → MemoM α) (memo : ExpansionMemo) :
    (get >>= next : MemoM α).run memo = (next memo).run memo :=
  rfl

theorem computes_rules (result : Except ConfigurationError α) :
    Computes grammar (ExceptT.mk (pure result)) result :=
  fun _ faithful => ⟨rfl, faithful⟩

theorem Computes.bind {first : MemoM α} {result : Except ConfigurationError α}
    {next : α → MemoM β} {onward : α → Except ConfigurationError β}
    (computes : Computes grammar first result)
    (continues : ∀ value, result = .ok value → Computes grammar (next value) (onward value)) :
    Computes grammar (first >>= next) (result >>= onward) := by
  intro memo faithful
  obtain ⟨answer, kept⟩ := computes memo faithful
  have split : (first >>= next).run memo =
      match (first.run memo).1 with
      | .ok value => (next value).run (first.run memo).2
      | .error error => (.error error, (first.run memo).2) := by
    show (ExceptT.bindCont next (first.run memo).1) (first.run memo).2 = _
    cases (first.run memo).1 <;> rfl
  rw [split, answer]
  cases result with
  | error error => exact ⟨rfl, kept⟩
  | ok value => exact continues value rfl _ kept

theorem computes_mapM {elements : List α} {compute : α → MemoM β}
    {result : α → Except ConfigurationError β}
    (computes : ∀ element ∈ elements, Computes grammar (compute element) (result element)) :
    Computes grammar (elements.mapM compute) (elements.mapM result) := by
  induction elements with
  | nil => exact computes_pure []
  | cons element rest ih =>
    rw [List.forall_mem_cons] at computes
    rw [List.mapM_cons, List.mapM_cons]
    refine computes.1.bind fun value _ => ?_
    refine (ih computes.2).bind fun values _ => ?_
    exact computes_pure (value :: values)

end MemoM

namespace Grammar

variable {grammar : Grammar} {token name : Text}

open MemoM

theorem computes_expandTable {inner : Text → MemoM RuleTable}
    {pureInner : Text → Except ConfigurationError RuleTable}
    (computes : ∀ token, Computes grammar (inner token) (pureInner token)) (table : RuleTable) :
    Computes grammar (grammar.expandTable inner table) (grammar.expandTable pureInner table) := by
  refine Computes.bind ?_ fun expanded _ => computes_pure _
  apply computes_mapM
  intro production _
  refine Computes.bind ?_ fun tables _ => computes_pure _
  apply computes_mapM
  intro token _
  exact (computes token).bind fun table _ => computes_pure _

theorem exists_name_of_rulesFor {table : RuleTable} (rules : grammar.rulesFor token = .ok table) :
    ∃ name, grammar.nonterminalName? token = some name := by
  obtain ⟨name, named, -⟩ := table?_eq_some_iff.mp (rulesFor_eq_ok_iff.mp rules)
  exact ⟨name, named⟩

theorem expand_of_rulesFor {table : RuleTable} (rules : grammar.rulesFor token = .ok table)
    (depth : Nat) : grammar.expand (depth + 1) token =
      grammar.expandTable (grammar.expand depth) table := by
  rw [expand, rules]
  rfl

theorem expand_of_nonterminalName? (named : grammar.nonterminalName? token = some name)
    (depth : Nat) : grammar.expand depth token = grammar.expand depth name := by
  have contained := contains_of_nonterminalName? named
  rw [← NameTable.isSome_get?] at contained
  obtain ⟨table, stored⟩ := Option.isSome_iff_exists.mp contained
  have rules : grammar.rulesFor token = .ok table :=
    rulesFor_eq_ok_iff.mpr (table?_eq_some_iff.mpr ⟨name, named, stored⟩)
  have alsoRules : grammar.rulesFor name = .ok table := rulesFor_of_get? stored
  cases depth with
  | zero => rw [expand, expand, rules, alsoRules]
  | succ depth => rw [expand_of_rulesFor rules, expand_of_rulesFor alsoRules]

theorem computes_noted {key : Text × Nat} {expanded : RuleTable}
    (right : grammar.expand key.2 key.1 = .ok expanded) :
    Computes grammar
      (do
        modify ((key, expanded) :: ·)
        return expanded)
      (pure expanded) :=
  fun _ faithful => ⟨rfl, List.forall_mem_cons.mpr ⟨right, faithful⟩⟩

theorem computes_remembered {key : Text × Nat} {computation : MemoM RuleTable}
    (computes : Computes grammar computation (grammar.expand key.2 key.1)) :
    Computes grammar
      (do
        match (← get).lookup key with
        | some known => return known
        | none =>
          let expanded ← computation
          modify ((key, expanded) :: ·)
          return expanded)
      (grammar.expand key.2 key.1) := by
  intro memo faithful
  rw [run_get_bind]
  cases looked : memo.lookup key with
  | some known =>
    obtain ⟨before, after, split, -⟩ := List.lookup_eq_some_iff.mp looked
    have entry : (key, known) ∈ memo := split ▸ List.mem_append_right _ List.mem_cons_self
    exact ⟨(faithful _ entry).symm, faithful⟩
  | none =>
    have noted := computes.bind fun _ right => computes_noted right
    rw [bind_pure] at noted
    exact noted memo faithful

theorem computes_expandMemo (depth : Nat) (token : Text) :
    Computes grammar (grammar.expandMemo depth token) (grammar.expand depth token) := by
  induction depth generalizing token with
  | zero =>
    rw [expandMemo, expand]
    exact (computes_rules _).bind fun table _ => computes_pure table
  | succ depth ih =>
    rw [expandMemo, expand]
    refine (computes_rules _).bind fun table rules => ?_
    obtain ⟨name, named⟩ := exists_name_of_rulesFor rules
    have same : grammar.expand (depth + 1) ((grammar.nonterminalName? token).getD token) =
        grammar.expandTable (grammar.expand depth) table := by
      rw [← expand_of_rulesFor rules, expand_of_nonterminalName? named, named]
      rfl
    have computes := computes_expandTable ih table
    rw [← same] at computes
    have remembered := @computes_remembered grammar
      ((grammar.nonterminalName? token).getD token, depth + 1) _ computes
    rwa [same] at remembered

def memoAfter (grammar : Grammar) (calls : List (Text × Nat)) : ExpansionMemo :=
  calls.foldl (fun memo call => (grammar.expandWith call.2 call.1 memo).2) []

def expandAfter (grammar : Grammar) (calls : List (Text × Nat)) (depth : Nat) (token : Text) :
    Except ConfigurationError RuleTable :=
  (grammar.expandWith depth token (grammar.memoAfter calls)).1

theorem faithful_memoAfter (calls : List (Text × Nat)) :
    (grammar.memoAfter calls).Faithful grammar := by
  have kept (memo : ExpansionMemo) (faithful : memo.Faithful grammar) :
      ExpansionMemo.Faithful grammar
        (calls.foldl (fun memo call => (grammar.expandWith call.2 call.1 memo).2) memo) := by
    induction calls generalizing memo with
    | nil => exact faithful
    | cons call rest ih => exact ih _ (computes_expandMemo call.2 call.1 memo faithful).2
  exact kept [] fun entry member => by cases member

theorem expandAfter_eq (calls : List (Text × Nat)) (depth : Nat) (token : Text) :
    grammar.expandAfter calls depth token = grammar.expand depth token :=
  (computes_expandMemo depth token _ (faithful_memoAfter calls)).1

end Grammar

namespace Expander

variable {grammar : Grammar} {expander : Expander}

/-- What a grammar can come to: calls that succeed or fail, in any order, and copies. -/
inductive Arises (grammar : Grammar) : Expander → Prop
  | built : Arises grammar (.ofGrammar grammar)
  | asked {expander : Expander} (before : Arises grammar expander) (depth : Nat) (token : Text) :
    Arises grammar (expander.expand depth token).2
  | copied {expander : Expander} (before : Arises grammar expander) : Arises grammar expander.copy

theorem Arises.grammar_eq (arises : Arises grammar expander) : expander.grammar = grammar := by
  induction arises with
  | built => rfl
  | asked before depth token ih => exact ih
  | copied before ih => exact ih

theorem faithful_empty (grammar : Grammar) : ExpansionMemo.Faithful grammar [] :=
  fun _ member => absurd member List.not_mem_nil

theorem Arises.faithful (arises : Arises grammar expander) : expander.memo.Faithful grammar := by
  induction arises with
  | built => exact faithful_empty grammar
  | @asked expander before depth token ih =>
    have kept := (Grammar.computes_expandMemo depth token expander.memo ih).2
    rwa [← before.grammar_eq] at kept ⊢
  | copied before ih => exact faithful_empty grammar

theorem Arises.expand_eq (arises : Arises grammar expander) (depth : Nat) (token : Text) :
    (expander.expand depth token).1 = grammar.expand depth token := by
  have answer := (Grammar.computes_expandMemo depth token expander.memo arises.faithful).1
  rwa [← arises.grammar_eq] at answer ⊢

theorem Arises.expandAll_eq (arises : Arises grammar expander) (calls : List (Text × Nat)) :
    (expander.expandAll calls).1 = calls.map fun call => grammar.expand call.2 call.1 := by
  induction calls generalizing expander with
  | nil => rfl
  | cons call rest ih =>
    have first := arises.expand_eq call.2 call.1
    have onward := ih (arises.asked call.2 call.1)
    show (expander.expand call.2 call.1).1 ::
        ((expander.expand call.2 call.1).2.expandAll rest).1 = _
    rw [first, onward, List.map_cons]

/-- Whatever calls and copies have come before, each answer is the one that is found without a
memo, and the memo holds nothing else. A copy answers in the same way. -/
theorem memo_is_invisible (arises : Arises grammar expander) :
    (∀ entry ∈ expander.memo, grammar.expand entry.1.2 entry.1.1 = .ok entry.2) ∧
      (∀ calls, (expander.expandAll calls).1 =
        calls.map fun call => grammar.expand call.2 call.1) ∧
      (∀ calls, (expander.copy.expandAll calls).1 = (expander.expandAll calls).1) ∧
      expander.copy.sameGrammar expander = true := by
  refine ⟨arises.faithful, arises.expandAll_eq, fun calls => ?_, decide_eq_true rfl⟩
  rw [arises.copied.expandAll_eq, arises.expandAll_eq]

def failing : Grammar :=
  ⟨"s".toList, .ofList [
    ("s".toList, .ofList [⟨"<y> x15".toList, "x15 <y>".toList⟩]),
    ("x1".toList, .ofList [⟨"a".toList, "b".toList⟩]),
    ("<y>".toList, .ofList [⟨"c".toList, "d".toList⟩, ⟨"<y> <y>2".toList, "<y>2".toList⟩])], ∅⟩

theorem memo_is_invisible_failing :
    let expander := ((Expander.ofGrammar failing).expand 2 "s".toList).2
    Arises failing expander ∧
      (expander.expand 2 "s".toList).1 = .error (.unknownNonterminal "x15".toList) ∧
      expander.memo.map (·.1) = [("<y>".toList, 1)] ∧
      (expander.expandAll [("<y>7".toList, 1), ("s".toList, 2), ("x1".toList, 3)]).1 =
        [failing.expand 1 "<y>7".toList, failing.expand 2 "s".toList,
          failing.expand 3 "x1".toList] := by
  have arises : Arises failing ((Expander.ofGrammar failing).expand 2 "s".toList).2 :=
    Arises.built.asked 2 "s".toList
  obtain ⟨-, answers, -⟩ := memo_is_invisible arises
  exact ⟨arises, by decide +kernel, by decide +kernel, answers _⟩

end Expander

end SyncGrammar
