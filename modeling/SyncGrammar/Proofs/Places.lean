import SyncGrammar.Proofs.AllBound
import SyncGrammar.Proofs.Containment
import SyncGrammar.Proofs.FaithfulEngine
import SyncGrammar.Proofs.Soundness

namespace SyncGrammar.Pattern

variable {Compiled : Type} {engine : RegexEngine Compiled} {inside : Text → Prop}
  {table : VariableTable} {pattern : Pattern Compiled} {text hypothesis : Text}

theorem solves_of_mem_found (faithful : engine.Faithful inside)
    (contained : ∀ entry ∈ table.entries, inside entry.2)
    (compiled : compile engine table hypothesis = .ok pattern) {found : Captures}
    (member : found ∈ (engine.matchesIn pattern.regex text).found) :
    Entailment.Solves table.names (found.whole.slice text) hypothesis
        (pattern.bindings text found) ∧
      Token.fill table.names (pattern.bindings text found).get? hypothesis =
        found.whole.slice text := by
  obtain ⟨value, bindings, written⟩ := exists_fill_eq_slice faithful contained compiled member
  rw [bindings, written]
  exact ⟨⟨Assignment.tokens_ofValues, Assignment.substituteAll_eraseDups _ value hypothesis⟩,
    Assignment.fill_ofValues fun _ => List.mem_eraseDups⟩

/-- Where all expressions stay inside their groups, the answers bind the tokens of the pattern in
order of first appearance. They stand in the text one behind the other: each turns the pattern into
the part of the text at its place, and all occurrences of a token there are the value bound to
it. -/
theorem answers_stand_in_order {answers : List Assignment} (faithful : engine.Faithful inside)
    (contained : ∀ entry ∈ table.entries, inside entry.2)
    (compiled : compile engine table hypothesis = .ok pattern)
    (all : pattern.all engine text = .ok answers) :
    ∃ places : List Extent,
      (∀ place ∈ places, place.start ≤ place.finish ∧ place.finish ≤ text.length) ∧
      (places.Pairwise fun place later =>
        place.start < later.start ∧ place.finish ≤ later.start) ∧
      List.Forall₂ (fun (answer : Assignment) place =>
        answer.tokens = (Token.tokens table.names hypothesis).eraseDups ∧
        substituteAll answer.bindings hypothesis = place.slice text ∧
        Token.fill table.names answer.get? hypothesis = place.slice text) answers places := by
  have located := faithful _ _ _ contained (of_compile_eq_ok compiled).2.2.1 text
  rw [eq_of_all_eq_ok all]
  refine ⟨(engine.matchesIn pattern.regex text).found.map Captures.whole, ?_, ?_, ?_⟩
  · intro place member
    obtain ⟨found, among, rfl⟩ := List.mem_map.mp member
    exact ⟨(located.covers found among).start_le, located.within found among⟩
  · exact List.pairwise_map.mpr located.ordered
  · rw [List.forall₂_map_left_iff, List.forall₂_map_right_iff, List.forall₂_same]
    intro found among
    obtain ⟨⟨tokens, substituted⟩, filled⟩ :=
      solves_of_mem_found faithful contained compiled among
    exact ⟨tokens, substituted, filled⟩

def nested : VariableTable :=
  .ofList [("a".toList, "[0-9]+".toList), ("a1".toList, "([x-z])+".toList),
    ("ab".toList, "[0-9]".toList)]

theorem staysInside_nested : ∀ entry ∈ nested.entries, Regex.StaysInside entry.2 := by
  have digit := @Regex.isClass_range '0' '9' rfl rfl (by decide)
  have letter := @Regex.isClass_range 'x' 'z' rfl rfl (by decide)
  have entries : nested.entries = [("a".toList, "[0-9]+".toList),
      ("a1".toList, "([x-z])+".toList), ("ab".toList, "[0-9]".toList)] := by
    decide +kernel
  rw [entries]
  rintro entry (_ | ⟨_, _ | ⟨_, _ | ⟨_, ⟨⟩⟩⟩⟩)
  · exact digit.staysInside_oneOrMore
  · exact letter.staysInside_grouped
  · exact digit.staysInside

theorem answers_stand_in_order_nested :
    Regex.engine.Faithful Regex.StaysInside ∧
      (∀ entry ∈ nested.entries, Regex.StaysInside entry.2) ∧
      ∃ pattern answers, compile Regex.engine nested "ab.a12-a1,ab".toList = .ok pattern ∧
        pattern.all Regex.engine "7.x-yz,7;8.z-x,9;8.z-x,8".toList = .ok answers ∧
        answers.length = 2 ∧
        ∃ places : List Extent,
          (places.Pairwise fun place later =>
            place.start < later.start ∧ place.finish ≤ later.start) ∧
          List.Forall₂ (fun (answer : Assignment) place =>
            answer.tokens = ["ab".toList, "a12".toList, "a1".toList] ∧
            substituteAll answer.bindings "ab.a12-a1,ab".toList =
              place.slice "7.x-yz,7;8.z-x,9;8.z-x,8".toList)
            answers places := by
  have tokens : (Token.tokens nested.names "ab.a12-a1,ab".toList).eraseDups =
      ["ab".toList, "a12".toList, "a1".toList] := by
    decide +kernel
  have answered : ((compile Regex.engine nested "ab.a12-a1,ab".toList).map fun pattern =>
      (pattern.all Regex.engine "7.x-yz,7;8.z-x,9;8.z-x,8".toList).map List.length) =
        .ok (.ok 2) := by
    decide +kernel
  cases compiled : compile Regex.engine nested "ab.a12-a1,ab".toList with
  | error failure =>
    rw [compiled] at answered
    cases answered
  | ok pattern =>
    rw [compiled, Except.map, Except.ok.injEq] at answered
    cases all : pattern.all Regex.engine "7.x-yz,7;8.z-x,9;8.z-x,8".toList with
    | error failure =>
      rw [all] at answered
      cases answered
    | ok answers =>
      rw [all, Except.map, Except.ok.injEq] at answered
      obtain ⟨places, -, behind, alike⟩ :=
        answers_stand_in_order Regex.faithful_engine staysInside_nested compiled all
      refine ⟨Regex.faithful_engine, staysInside_nested, pattern, answers, rfl, all, answered,
        places, behind, alike.imp ?_⟩
      rintro answer place ⟨bound, substituted, -⟩
      exact ⟨bound.trans tokens, substituted⟩

end SyncGrammar.Pattern
