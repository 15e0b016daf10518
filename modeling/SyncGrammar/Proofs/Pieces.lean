import Mathlib.Data.List.Basic
import SyncGrammar.Proofs.Matching

namespace SyncGrammar.Pattern

theorem groupName_injective : Function.Injective groupName := by
  intro first second same
  have digits := (List.cons.inj same).2
  calc first = Nat.ofDigitChars 10 (Nat.toDigits 10 first) 0 := Nat.ofDigitChars_ten_toDigits.symm
    _ = Nat.ofDigitChars 10 (Nat.toDigits 10 second) 0 := by rw [digits]
    _ = second := Nat.ofDigitChars_ten_toDigits

/-- Pieces whose groups are numbered one after the other from `count` on, and which ask only for
the texts of groups before. -/
inductive WellNamed : Nat → List Piece → Prop
  | nil {count : Nat} : WellNamed count []
  | literal {count : Nat} {written : Text} {pieces : List Piece} (onward : WellNamed count pieces) :
      WellNamed count (.literal written :: pieces)
  | group {count : Nat} {expression : Text} {pieces : List Piece}
      (onward : WellNamed (count + 1) pieces) :
      WellNamed count (.group (groupName count) expression :: pieces)
  | again {count position : Nat} {pieces : List Piece} (known : position < count)
      (onward : WellNamed count pieces) : WellNamed count (.again (groupName position) :: pieces)

theorem WellNamed.prepend {count : Nat} {pieces : List Piece} (named : WellNamed count pieces)
    (c : Char) : WellNamed count (Piece.prepend c pieces) := by
  unfold Piece.prepend
  split
  · cases named with
    | literal onward => exact .literal onward
  · exact .literal named

theorem wellNamed_piecesFrom (table : VariableTable) (seen : List Text)
    (cut : List Token.Segment) : WellNamed seen.length (piecesFrom table seen cut) := by
  induction cut generalizing seen with
  | nil => exact .literal .nil
  | cons segment rest ih =>
    cases segment with
    | literal c => exact (ih seen).prepend c
    | token name index =>
      simp only [piecesFrom]
      split
      · rename_i position found
        obtain ⟨inside, -, -⟩ := List.findIdx?_eq_some_iff_getElem.mp found
        exact .literal (.again inside (ih seen))
      · have onward := ih (seen ++ [name ++ index])
        rw [List.length_append] at onward
        exact .literal (.group onward)

theorem mem_prepend {piece : Piece} (apart : ∀ written, piece ≠ .literal written) (c : Char)
    (pieces : List Piece) : piece ∈ Piece.prepend c pieces ↔ piece ∈ pieces := by
  unfold Piece.prepend
  split
  · simp [apart]
  · simp [apart]

theorem exists_token_of_group {table : VariableTable} {cut : List Token.Segment} {seen : List Text}
    {group expression : Text} (member : .group group expression ∈ piecesFrom table seen cut) :
    ∃ name index, .token name index ∈ cut ∧ expression = (table.get? name).getD [] := by
  induction cut generalizing seen with
  | nil => simp [piecesFrom] at member
  | cons segment rest ih =>
    have later {seen : List Text} (inside : .group group expression ∈ piecesFrom table seen rest) :
        ∃ name index, .token name index ∈ segment :: rest ∧
          expression = (table.get? name).getD [] := by
      obtain ⟨name, index, occurs, same⟩ := ih inside
      exact ⟨name, index, List.mem_cons_of_mem _ occurs, same⟩
    cases segment with
    | literal c => exact later ((mem_prepend (by simp) c _).mp member)
    | token name index =>
      simp only [piecesFrom] at member
      split at member
      · exact later (by simpa using member)
      · simp only [List.mem_cons, reduceCtorEq, false_or] at member
        rcases member with here | onward
        · cases here
          exact ⟨name, index, List.mem_cons_self, rfl⟩
        · exact later onward

theorem exists_entry_of_group {table : VariableTable} {text group expression : Text}
    (member : .group group expression ∈ pieces table text) :
    ∃ declared, (declared, expression) ∈ table.entries := by
  obtain ⟨name, index, inside, rfl⟩ := exists_token_of_group member
  have declared := (Token.declared_of_mem_segments inside).1
  rw [NameTable.mem_names_iff, ← NameTable.isSome_get?] at declared
  obtain ⟨expression, given⟩ := Option.isSome_iff_exists.mp declared
  rw [given]
  exact ⟨name, (table.get?_eq_some_iff name expression).mp given⟩

theorem piecesFrom_first {table : VariableTable} {seen : List Text} {name index : Text}
    (fresh : name ++ index ∉ seen) (rest : List Token.Segment) :
    piecesFrom table seen (.token name index :: rest) =
      .literal [] :: .group (groupName seen.length) ((table.get? name).getD []) ::
        piecesFrom table (seen ++ [name ++ index]) rest := by
  rw [piecesFrom, List.idxOf?_eq_none_iff.mpr fresh]

theorem notMem_and_nodup_of_first {seen : List Text} {name index : Text}
    {rest : List Token.Segment}
    (once : (seen ++
      (Token.Segment.token name index :: rest).filterMap Token.Segment.token?).Nodup) :
    name ++ index ∉ seen ∧
      (seen ++ [name ++ index] ++ rest.filterMap Token.Segment.token?).Nodup := by
  constructor
  · exact fun known => (List.nodup_append.mp once).2.2 _ known _ List.mem_cons_self rfl
  · rw [List.append_assoc]
    exact once

theorem again_notMem {table : VariableTable} {cut : List Token.Segment} {seen : List Text}
    (once : (seen ++ cut.filterMap Token.Segment.token?).Nodup) (group : Text) :
    .again group ∉ piecesFrom table seen cut := by
  induction cut generalizing seen with
  | nil => simp [piecesFrom]
  | cons segment rest ih =>
    cases segment with
    | literal c =>
      rw [piecesFrom, mem_prepend (by simp)]
      exact ih once
    | token name index =>
      obtain ⟨fresh, onward⟩ := notMem_and_nodup_of_first once
      rw [piecesFrom_first fresh]
      simpa using ih onward

def gathered (seen : List Text) (cut : List Token.Segment) : List Text :=
  seen ++ ((cut.filterMap Token.Segment.token?).filter fun token =>
    !seen.contains token).eraseDups

theorem gathered_first {seen : List Text} {name index : Text} (fresh : name ++ index ∉ seen)
    (rest : List Token.Segment) :
    gathered seen (.token name index :: rest) = gathered (seen ++ [name ++ index]) rest := by
  have apart :
      ((rest.filterMap Token.Segment.token?).filter fun token =>
          !(seen ++ [name ++ index]).contains token) =
        ((rest.filterMap Token.Segment.token?).filter fun token => !seen.contains token).filter
          fun token => !token == name ++ index := by
    rw [List.filter_filter]
    apply List.filter_congr
    intro token _
    by_cases same : token = name ++ index
    · simp [same]
    · simp [same]
  have listed : (Token.Segment.token name index :: rest).filterMap Token.Segment.token? =
      (name ++ index) :: rest.filterMap Token.Segment.token? := rfl
  rw [gathered, gathered, listed, List.filter_cons_of_pos (by simpa using fresh),
    List.eraseDups_cons, apart, List.append_assoc]
  rfl

theorem idxOf_gathered {seen : List Text} {name index : Text} (fresh : name ++ index ∉ seen)
    (rest : List Token.Segment) :
    (gathered (seen ++ [name ++ index]) rest).idxOf (name ++ index) = seen.length := by
  rw [gathered, List.idxOf_append_of_mem (by simp), List.idxOf_append_of_notMem fresh]
  simp

theorem gathered_again {seen : List Text} {name index : Text} (known : name ++ index ∈ seen)
    (rest : List Token.Segment) :
    gathered seen (.token name index :: rest) = gathered seen rest := by
  simp [gathered, Token.Segment.token?, known]

theorem gathered_segments (names : List Text) (text : Text) :
    gathered [] (Token.segments names text) = (Token.tokens names text).eraseDups := by
  simp [gathered, Token.tokens]

theorem idxOf?_of_mem {seen : List Text} {token : Text} (known : token ∈ seen) :
    seen.idxOf? token = some (seen.idxOf token) := by
  rw [List.idxOf_eq_getD_idxOf?]
  cases found : seen.idxOf? token with
  | none => exact absurd known (List.idxOf?_eq_none_iff.mp found)
  | some position => rfl

end SyncGrammar.Pattern
