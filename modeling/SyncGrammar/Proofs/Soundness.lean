import SyncGrammar.EngineLaws
import SyncGrammar.Proofs.Pieces

namespace SyncGrammar

namespace Pattern

variable {Compiled : Type} {engine : RegexEngine Compiled} {inside : Text → Prop}
  {table : VariableTable} {pattern : Pattern Compiled} {text hypothesis : Text} {found : Captures}
  {start finish : Nat}

theorem valueOf_eq {name : Text} {extent : Extent} (recorded : found.group? name = some extent) :
    found.valueOf text name = extent.slice text := by
  rw [Captures.valueOf, recorded]

theorem Covers.start_le {pieces : List Piece} (covers : Covers text found pieces start finish) :
    start ≤ finish := by
  induction covers with
  | nil => exact Nat.le_refl _
  | literal _ _ ih => exact Nat.le_trans (Nat.le_add_right _ _) ih
  | group reached _ _ ih => exact Nat.le_trans reached ih
  | again _ _ _ ih => exact Nat.le_trans (Nat.le_add_right _ _) ih

theorem Covers.of_prepend {c : Char} {pieces : List Piece}
    (covers : Covers text found (Piece.prepend c pieces) start finish) :
    text.drop start = c :: text.drop (start + 1) ∧ Covers text found pieces (start + 1) finish := by
  have first {written : Text} (stands : c :: written <+: text.drop start) :
      text.drop start = c :: text.drop (start + 1) ∧ written <+: text.drop (start + 1) := by
    obtain ⟨after, same⟩ := stands
    rw [← List.drop_drop, ← same]
    exact ⟨rfl, after, rfl⟩
  unfold Piece.prepend at covers
  split at covers
  · cases covers with
    | literal stands onward =>
      obtain ⟨here, rest⟩ := first stands
      rw [List.length_cons, Nat.add_comm _ 1, ← Nat.add_assoc] at onward
      exact ⟨here, .literal rest onward⟩
  · cases covers with
    | literal stands onward => exact ⟨(first stands).1, onward⟩

theorem drop_eq_append_of_prefix {written : Text} (stands : written <+: text.drop start) :
    text.drop start = written ++ text.drop (start + written.length) := by
  obtain ⟨after, same⟩ := stands
  rw [← List.drop_drop, ← same, List.drop_left]

theorem slice_append_drop {extent : Extent} (reached : extent.start ≤ extent.finish)
    (text : Text) : extent.slice text ++ text.drop extent.finish = text.drop extent.start := by
  have onward : text.drop extent.finish =
      (text.drop extent.start).drop (extent.finish - extent.start) := by
    rw [List.drop_drop, Nat.add_sub_cancel' reached]
  rw [Extent.slice, onward, List.take_append_drop]

theorem drop_eq_of_covers {cut : List Token.Segment} {seen : List Text}
    (covers : Covers text found (piecesFrom table seen cut) start finish) :
    text.drop start = cut.flatMap (Token.Segment.written fun token =>
        some (found.valueOf text (groupName ((gathered seen cut).idxOf token)))) ++
      text.drop finish := by
  induction cut generalizing seen start with
  | nil =>
    cases covers with
    | literal _ onward =>
      cases onward
      rfl
  | cons segment rest ih =>
    cases segment with
    | literal c =>
      obtain ⟨here, onward⟩ := Covers.of_prepend covers
      rw [here, ih onward]
      rfl
    | token name index =>
      -- the first occurrence of a token is a group, the others ask for its text again
      by_cases known : name ++ index ∈ seen
      · have place : (gathered seen rest).idxOf (name ++ index) = seen.idxOf (name ++ index) :=
          List.idxOf_append_of_mem known
        rw [piecesFrom, idxOf?_of_mem known] at covers
        cases covers with
        | literal _ covers =>
          cases covers with
          | again recorded stands onward =>
            rw [gathered_again known, List.flatMap_cons, List.append_assoc, ← ih onward]
            rw [Token.Segment.written, Option.getD_some, place, valueOf_eq recorded]
            exact drop_eq_append_of_prefix stands
      · rw [piecesFrom_first known] at covers
        cases covers with
        | literal _ covers =>
          cases covers with
          | @group _ _ _ _ between _ reached recorded onward =>
            rw [gathered_first known, List.flatMap_cons, List.append_assoc, ← ih onward]
            rw [Token.Segment.written, Option.getD_some, idxOf_gathered known,
              valueOf_eq recorded]
            exact (@slice_append_drop ⟨_, between⟩ reached text).symm

theorem numbered_tokens {tokens : List Text} (distinct : tokens.Nodup) (name : Nat → Text) :
    tokens.zipIdx.map (fun entry => (entry.1, name entry.2)) =
      tokens.map fun token => (token, name (tokens.idxOf token)) := by
  apply List.ext_getElem
  · simp
  · intro position _ inside
    rw [List.length_map] at inside
    simp [distinct.idxOf_getElem position inside]

theorem bindings_of_compile (compiled : compile engine table hypothesis = .ok pattern)
    (text : Text) (found : Captures) :
    pattern.bindings text found = .ofValues (Token.tokens table.names hypothesis).eraseDups
      fun token => found.valueOf text
        (groupName ((Token.tokens table.names hypothesis).eraseDups.idxOf token)) := by
  have groups := (of_compile_eq_ok compiled).2.2.2
  rw [numbered_tokens (nodup_eraseDups _)] at groups
  have bindings := bindings_bindings (nodup_tokens_of_compile compiled) text found
  rw [groups, List.map_map] at bindings
  exact congrArg Assignment.mk bindings

/-- Where all expressions stay inside their groups, each match is what the hypothesis becomes under
the bindings of that match. -/
theorem exists_fill_eq_slice (faithful : engine.Faithful inside)
    (contained : ∀ entry ∈ table.entries, inside entry.2)
    (compiled : compile engine table hypothesis = .ok pattern)
    (member : found ∈ (engine.matchesIn pattern.regex text).found) :
    ∃ value : Text → Text,
      pattern.bindings text found =
        .ofValues (Token.tokens table.names hypothesis).eraseDups value ∧
      found.whole.slice text =
        Token.fill table.names (fun token => some (value token)) hypothesis := by
  refine ⟨_, bindings_of_compile compiled text found, ?_⟩
  have located := faithful _ _ _ contained (of_compile_eq_ok compiled).2.2.1 text
  have covers := located.covers found member
  have drop := drop_eq_of_covers covers
  rw [gathered_segments, ← slice_append_drop covers.start_le] at drop
  exact List.append_cancel_right drop

end Pattern

namespace Entailment

/-- What the answers solve is a part of the text. -/
def Sound (entailment : Entailment) (names : List Text) : Prop :=
  ∀ text hypothesis answers, entailment text hypothesis = .ok answers →
    ∀ assignment ∈ answers, ∃ part, part <:+: text ∧ Solves names part hypothesis assignment

theorem sound_matching {Compiled : Type} {engine : RegexEngine Compiled} {inside : Text → Prop}
    {table : VariableTable} (faithful : engine.Faithful inside)
    (bracketed : ∀ name ∈ table.names, name.Bracketed)
    (contained : ∀ entry ∈ table.entries, inside entry.2) :
    (matching engine table).Sound table.names := by
  intro text hypothesis answers answer assignment entails
  obtain ⟨pattern, compiled, all⟩ := exists_pattern_of_matching answer
  rw [Pattern.eq_of_all_eq_ok all] at entails
  obtain ⟨found, member, rfl⟩ := List.mem_map.mp entails
  obtain ⟨value, bindings, written⟩ :=
    Pattern.exists_fill_eq_slice faithful contained compiled member
  refine ⟨_, Pattern.infix_slice found.whole text, ?_⟩
  rw [written, bindings]
  exact solves_ofValues bracketed value hypothesis

end Entailment

end SyncGrammar
