import Mathlib.Data.List.Basic
import SyncGrammar.Proofs.Brackets
import SyncGrammar.Substitution

/-!
Declared names that cannot be mistaken for one another, wherever they stand: none starts with a
digit, and no end of one, short of the whole, begins like another. Names in brackets are of this
kind. Where such a token stands, no other token starts at the same place or further inside.
-/
namespace SyncGrammar

namespace Token

structure Apart (names : List Text) : Prop where
  nonempty : ∀ name ∈ names, name ≠ []
  unindexed : ∀ name ∈ names, ∀ d ∈ name.head?, d.isDigit = false
  separate : ∀ name ∈ names, ∀ other ∈ names, ∀ rest : Text, rest <:+ name → rest ≠ [] →
    (rest <+: other ∨ other <+: rest) → rest = name ∧ name = other

variable {names : List Text}

theorem Apart.eq_of_starts (apart : Apart names) {name other text : Text} (declared : name ∈ names)
    (also : other ∈ names) (starts : name <+: text) (alsoStarts : other <+: text) :
    name = other := by
  have either := List.prefix_or_prefix_of_prefix starts alsoStarts
  exact (apart.separate name declared other also name List.suffix_rfl
    (apart.nonempty name declared) either).2

theorem Apart.not_starts_with_digits (apart : Apart names) {name digits rest : Text}
    (declared : name ∈ names) (indexed : ∀ d ∈ digits, d.isDigit = true) (some : digits ≠ []) :
    ¬ name <+: digits ++ rest := by
  intro starts
  have nonempty := apart.nonempty name declared
  cases name with
  | nil => exact nonempty rfl
  | cons c tail =>
    cases digits with
    | nil => exact some rfl
    | cons d others =>
      have same : c = d := by
        obtain ⟨after, split⟩ := starts
        exact (List.cons.inj split).1
      have isDigit := indexed d List.mem_cons_self
      have noDigit := apart.unindexed _ declared c rfl
      rw [same, isDigit] at noDigit
      cases noDigit

theorem apart_of_bracketed (bracketed : ∀ name ∈ names, name.Bracketed) : Apart names := by
  refine ⟨fun name declared => (bracketed name declared).nonempty, ?_, ?_⟩
  · intro name declared d first
    have opens := (bracketed name declared).head?_of_starts List.prefix_rfl
    rw [opens] at first
    cases first
    decide
  · intro name declared other also rest ends nonempty either
    have opens : rest.head? = some '<' := by
      rcases either with starts | starts
      · have first := (bracketed other also).head?_of_starts List.prefix_rfl
        cases rest with
        | nil => exact absurd rfl nonempty
        | cons c tail =>
          obtain ⟨after, rfl⟩ := starts
          exact first
      · exact (bracketed other also).head?_of_starts starts
    have whole : rest = name := by
      obtain ⟨word, plain, rfl⟩ := bracketed name declared
      rcases List.suffix_cons_iff.mp ends with same | inside
      · exact same
      · have member : '<' ∈ word ++ ['>'] := inside.subset (List.mem_of_mem_head? opens)
        simp [plain.1] at member
    subst whole
    refine ⟨rfl, ?_⟩
    rcases either with starts | starts
    · exact (bracketed rest declared).eq_of_starts (bracketed other also) starts List.prefix_rfl
    · exact (bracketed rest declared).eq_of_starts (bracketed other also) List.prefix_rfl starts

end Token

namespace Substitution

open Token

variable {names : List Text} {bindings : List (Text × Text)}

theorem startsWithToken_iff {token text : Text} :
    startsWithToken token text = true ↔
      ∃ rest, token ++ rest = text ∧ ∀ d ∈ rest.head?, d.isDigit = false := by
  unfold startsWithToken
  cases found : token.isPrefixOf? text with
  | none =>
    have apart (rest : Text) : token ++ rest ≠ text := fun split => by
      rw [List.isPrefixOf?_eq_some_iff_append_eq.mpr split] at found
      cases found
    simp [apart]
  | some rest =>
    obtain rfl := List.isPrefixOf?_eq_some_iff_append_eq.mp found
    cases rest with
    | nil => simp
    | cons next rest => simp

theorem exists_name_of_startsWithToken {token text : Text} (isToken : IsToken names token)
    (starts : startsWithToken token text = true) : ∃ name ∈ names, name <+: text := by
  obtain ⟨name, declared, index, -, rfl⟩ := isToken
  obtain ⟨after, split, -⟩ := startsWithToken_iff.mp starts
  exact ⟨name, declared, index ++ after, by rw [← split, List.append_assoc]⟩

section Apart

variable (apart : Apart names)

include apart

theorem startsWithToken_iff_eq {token name index rest : Text} (isToken : IsToken names token)
    (declared : name ∈ names) (indexes : Indexes index rest) :
    startsWithToken token (name ++ (index ++ rest)) = true ↔ token = name ++ index := by
  rw [startsWithToken_iff]
  constructor
  · rintro ⟨after, split, ends⟩
    obtain ⟨other, alsoDeclared, otherIndex, digits, rfl⟩ := isToken
    have also : Indexes otherIndex after := ⟨digits, ends⟩
    rw [List.append_assoc] at split
    obtain rfl := apart.eq_of_starts alsoDeclared declared ⟨_, split⟩ (List.prefix_append _ _)
    have same := congrArg (List.takeWhile Char.isDigit) (List.append_cancel_left split)
    rw [also.span_eq.1, indexes.span_eq.1] at same
    rw [same]
  · rintro rfl
    exact ⟨rest, List.append_assoc _ _ _, indexes.ends⟩

theorem not_startsWithToken_inside {token name index rest inner : Text}
    (isToken : IsToken names token) (declared : name ∈ names)
    (digits : ∀ d ∈ index, d.isDigit = true) (inside : inner <:+ name ++ index)
    (nonempty : inner ≠ []) (proper : inner ≠ name ++ index) :
    startsWithToken token (inner ++ rest) = false := by
  rw [Bool.eq_false_iff]
  intro starts
  obtain ⟨other, also, begins⟩ := exists_name_of_startsWithToken isToken starts
  have withinIndex (part : Text) (ends : part <:+ index) (some : part ≠ []) :
      ¬ other <+: part ++ rest :=
    apart.not_starts_with_digits also (fun d member => digits d (ends.subset member)) some
  rcases List.suffix_or_suffix_of_suffix inside (List.suffix_append name index) with
    late | ⟨part, rfl⟩
  · exact withinIndex inner late nonempty begins
  · cases part with
    | nil => exact withinIndex index List.suffix_rfl (by simpa using nonempty) begins
    | cons c tail =>
      have partOf : c :: tail <:+ name := by
        obtain ⟨before, split⟩ := inside
        exact ⟨before, List.append_cancel_right (by rw [List.append_assoc, split])⟩
      rw [List.append_assoc] at begins
      have either := List.prefix_or_prefix_of_prefix (List.prefix_append _ _) begins
      have whole := apart.separate name declared other also _ partOf (List.cons_ne_nil _ _) either
      exact proper (by rw [whole.1])

end Apart

end Substitution

end SyncGrammar
