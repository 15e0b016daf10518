import SyncGrammar.EngineLaws
import SyncGrammar.Proofs.Splicing

namespace SyncGrammar.Regex

inductive PassesAll (subject : Subject) : List Regex → Mark → Mark → Prop
  | nil {mark : Mark} : PassesAll subject [] mark mark
  | cons {piece : Regex} {pieces : List Regex} {mark between after : Mark}
      (first : Passes subject piece mark between)
      (onward : PassesAll subject pieces between after) :
      PassesAll subject (piece :: pieces) mark after

variable {subject : Subject} {regex : Regex} {more : List Regex} {mark after : Mark} {text : Text}

theorem PassesAll.append {last : Regex} {between : Mark}
    (before : PassesAll subject more mark between) (passes : Passes subject last between after) :
    PassesAll subject (more ++ [last]) mark after := by
  induction before with
  | nil => exact .cons passes .nil
  | cons first _ ih => exact .cons first (ih passes)

theorem passesAll_of_passes (passes : Passes subject (seqOfReversed more.reverse) mark after) :
    PassesAll subject more mark after := by
  induction more using List.reverseRecOn generalizing after with
  | nil =>
    cases passes
    exact .nil
  | append_singleton before last ih =>
    rw [List.reverse_append, List.reverse_singleton, List.singleton_append] at passes
    cases reversed : before.reverse with
    | nil =>
      rw [reversed] at passes
      rw [List.reverse_eq_nil_iff.mp reversed]
      exact .cons passes .nil
    | cons other rest =>
      rw [reversed, seqOfReversed] at passes
      · cases passes with
        | seq first second => exact (ih (reversed ▸ first)).append second
      · simp

theorem PassesAll.group?_eq {index : Nat} (passes : PassesAll subject more mark after)
    (other : index ∉ more.flatMap numbers) : after.group? index = mark.group? index := by
  induction passes with
  | nil => rfl
  | cons first _ ih =>
    rw [List.flatMap_cons, List.mem_append, not_or] at other
    rw [ih other.2, first.group?_eq other.1]

theorem slice_toArray (text : Text) (start finish : Nat) :
    Subject.slice text.toArray start finish = (text.drop start).take (finish - start) := by
  simp [Subject.slice, List.extract_eq_take_drop]

theorem exists_of_passesAll_spelledOut {written : Text}
    (passes : PassesAll text.toArray (spelledOut written ++ more) mark after) :
    written <+: text.drop mark.position ∧
      PassesAll text.toArray more { mark with position := mark.position + written.length }
        after := by
  induction written generalizing mark with
  | nil => exact ⟨List.nil_prefix, passes⟩
  | cons c written ih =>
    cases passes with
    | cons first onward =>
      cases first with
      | char stands =>
        obtain ⟨⟨d, here, member⟩, rfl⟩ := advance_of_step? stands
        obtain rfl : d = c := by
          simp only [CharClass.single, CharClass.contains, Bool.and_eq_true, decide_eq_true_eq]
            at member
          exact Char.le_antisymm member.2 member.1
        obtain ⟨⟨behind, same⟩, passes⟩ := ih onward
        have inside : mark.position < text.length := by
          simpa using (Array.getElem?_eq_some_iff.mp here).1
        have first : text[mark.position] = d := by
          rw [List.getElem?_toArray, List.getElem?_eq_getElem inside] at here
          exact Option.some.inj here
        refine ⟨⟨behind, ?_⟩, ?_⟩
        · rw [List.drop_eq_getElem_cons inside, first]
          exact congrArg (List.cons d) same
        · rw [List.length_cons, Nat.add_comm written.length, ← Nat.add_assoc]
          exact passes

theorem group?_captures {names : List (Text × Nat)} {found : Match} {name : Text} {index : Nat}
    {extent : Extent} (numbered : names.lookup name = some index)
    (recorded : extent? found.mark index = some extent) :
    (captures names found).group? name = some extent := by
  rw [Captures.group?, captures]
  induction names with
  | nil => cases numbered
  | cons entry names ih =>
    obtain ⟨other, number⟩ := entry
    rw [List.lookup_cons] at numbered
    split at numbered
    · rename_i same
      obtain rfl := Option.some.inj numbered
      simp [recorded, List.lookup_cons, same]
    · rename_i differs
      have later := ih numbered
      cases listed : extent? found.mark number with
      | none => simpa [listed] using later
      | some _ => simpa [listed, List.lookup_cons, differs] using later

theorem exists_stands_of_recalled? {index : Nat} (within : Within text.toArray mark)
    (recalled : Subject.recalled? text.toArray index mark = some after) :
    ∃ extent, extent? mark index = some extent ∧ extent.slice text <+: text.drop mark.position ∧
      after.position = mark.position + (extent.slice text).length := by
  obtain ⟨start, finish, recorded, rfl, same⟩ := exists_of_recalled? recalled
  let extent : Extent := ⟨start, finish⟩
  have here : extent.slice text = (text.drop mark.position).take (finish - start) := by
    rw [slice_toArray, slice_toArray, Nat.add_sub_cancel_left] at same
    exact same.symm
  have length : (extent.slice text).length = finish - start := by
    have inside := (within.of_group? recorded).2
    rw [List.size_toArray] at inside
    rw [Extent.slice, List.length_take, List.length_drop]
    exact Nat.min_eq_left (Nat.sub_le_sub_right inside start)
  refine ⟨extent, congrArg (Option.map _) recorded, here ▸ List.take_prefix _ _, ?_⟩
  rw [length]

theorem Spelled.covers {names : List (Text × Nat)} {fits : Text → Regex → Prop}
    {pieces : List Pattern.Piece} {found : Match}
    (spelled : Spelled (names.lookup ·) fits pieces more) (within : Within text.toArray mark)
    (passes : PassesAll text.toArray more mark found.mark) :
    Pattern.Covers text (captures names found) pieces mark.position found.mark.position := by
  induction spelled generalizing mark with
  | nil =>
    cases passes
    exact .nil
  | @literal written _ _ _ ih =>
    obtain ⟨stands, onward⟩ := exists_of_passesAll_spelledOut passes
    have reached : mark.position + written.length ≤ text.toArray.size := by
      have bound := within.position_le
      have lengths := stands.length_le
      rw [List.size_toArray] at bound ⊢
      rw [List.length_drop] at lengths
      omega
    have inside : Within text.toArray { mark with position := mark.position + written.length } :=
      ⟨reached, within.recorded⟩
    exact .literal stands (ih inside onward)
  | group numbered _ unique _ ih =>
    cases passes with
    | cons first onward =>
      have later := ih (first.within within) onward
      cases first with
      | @group _ _ _ inner inside =>
        refine .group inside.position_le (group?_captures numbered ?_) later
        rw [extent?, onward.group?_eq unique, Mark.group?_capture]
        rfl
  | @again _ index _ _ numbered unique _ ih =>
    cases passes with
    | cons first onward =>
      have later := ih (first.within within) onward
      cases first with
      | backreference recalled =>
        obtain ⟨extent, recorded, stands, place⟩ := exists_stands_of_recalled? within recalled
        refine .again (group?_captures numbered ?_) stands (place ▸ later)
        rwa [extent?, onward.group?_eq unique,
          (Passes.backreference recalled).group?_eq List.not_mem_nil]

theorem numbers_seqOfReversed (more : List Regex) :
    (seqOfReversed more.reverse).numbers = more.flatMap numbers := by
  induction more using List.reverseRecOn with
  | nil => rfl
  | append_singleton before last ih =>
    rw [List.reverse_append, List.reverse_singleton, List.singleton_append, List.flatMap_append,
      List.flatMap_singleton, ← ih]
    cases before.reverse with
    | nil => rfl
    | cons other rest => rw [seqOfReversed, numbers]; simp

theorem Sound.begin_eq {start : Nat} {found : Match} (sound : Sound regex subject start found)
    (unmoved : 0 ∉ regex.numbers) : found.begin = found.start := by
  rw [Match.begin, sound.passes.group?_eq unmoved]
  rfl

theorem pairwise_matchesFrom (unmoved : 0 ∉ regex.numbers) (fuel start : Nat)
    (previous : Option Nat) :
    (matchesFrom regex subject fuel start previous).found.Pairwise fun found later =>
      found.start < later.start ∧ found.mark.position ≤ later.start := by
  induction fuel generalizing start previous with
  | zero => exact .nil
  | succ fuel ih =>
    rw [matchesFrom]
    split
    · exact .nil
    · exact .nil
    · rename_i first mark matched
      have reached : first ≤ mark.position := (sound_of_search matched).passes.position_le
      rw [(sound_of_search matched).begin_eq unmoved]
      dsimp only
      split
      · rename_i empty
        split
        · exact ih _ _
        · refine List.pairwise_cons.mpr ⟨fun later member => ?_, ih _ _⟩
          have onward := (sound_of_mem_matchesFrom member).le_start
          dsimp only
          omega
      · rename_i nonempty
        refine List.pairwise_cons.mpr ⟨fun later member => ?_, ih _ _⟩
        have onward := (sound_of_mem_matchesFrom member).le_start
        dsimp only
        omega

theorem faithful_engine : engine.Faithful StaysInside := by
  intro table hypothesis regex contained compiled text
  have fill : ∀ name expression, .group name expression ∈ Pattern.pieces table hypothesis →
      StaysInside expression := by
    intro name expression member
    obtain ⟨declared, entry⟩ := Pattern.exists_entry_of_group member
    exact contained _ entry
  obtain ⟨more, same, spelled, unmoved⟩ :=
    exists_spelled_of_compile (Pattern.wellNamed_piecesFrom table [] _) fill compiled
  rw [← numbers_seqOfReversed, ← same] at unmoved
  constructor
  · intro found member
    obtain ⟨one, among, rfl⟩ := List.mem_map.mp member
    have sound := sound_of_mem_findAll among
    change Pattern.Covers text _ _ one.begin one.mark.position
    rw [sound.begin_eq unmoved]
    rw [same] at sound
    exact spelled.covers ⟨sound.start_le, fun _ none => absurd none List.not_mem_nil⟩
      (passesAll_of_passes sound.passes)
  · intro found member
    obtain ⟨one, among, rfl⟩ := List.mem_map.mp member
    simpa [captures] using (sound_of_mem_findAll among).within.position_le
  · refine List.pairwise_map.mpr ((pairwise_matchesFrom unmoved _ _ _).imp_of_mem ?_)
    intro found later member alsoMember apart
    simpa [captures, (sound_of_mem_findAll member).begin_eq unmoved,
      (sound_of_mem_findAll alsoMember).begin_eq unmoved] using apart

end SyncGrammar.Regex
