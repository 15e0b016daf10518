import SyncGrammar.Proofs.Filling

/-!
Filling tokens with values that hold tokens themselves. Where names are in brackets, the segments of
the values take the place of the tokens, and no token comes into being or is lost where a value
touches what stands around it.
-/
namespace SyncGrammar

namespace Token

variable {names : List Text} {values : Text → Option Text} {text : Text}

def Segment.grafted (names : List Text) (values : Text → Option Text) : Segment → List Segment
  | .literal c => [.literal c]
  | .token name index =>
    match values (name ++ index) with
    | some value => segments names value
    | none => [.token name index]

theorem flatMap_text_grafted (segment : Segment) :
    (segment.grafted names values).flatMap Segment.text = segment.written values := by
  cases segment with
  | literal c => rfl
  | token name index =>
    simp only [Segment.grafted, Segment.written]
    cases values (name ++ index) with
    | none => simp [Segment.text]
    | some value => exact flatMap_text_segments names value

theorem WellCut.append_literal {first rest : List Segment} {c : Char}
    (wellCut : WellCut names first)
    (ends : c.isDigit = false) (onward : WellCut names (.literal c :: rest)) :
    WellCut names (first ++ .literal c :: rest) := by
  induction wellCut with
  | nil => exact onward
  | literal plain _ ih => exact .literal plain ih
  | last declared digits => exact .token declared digits ends onward
  | token declared digits own _ ih => exact .token declared digits own ih

theorem WellCut.flatMap_grafted {cut : List Segment} (wellCut : WellCut names cut)
    (valuesCut : ∀ token value, values token = some value → WellCut names (segments names value)) :
    WellCut names (cut.flatMap (Segment.grafted names values)) := by
  induction wellCut with
  | nil => exact .nil
  | literal apart _ ih => exact .literal apart ih
  | @last name index declared digits =>
    rw [List.flatMap_singleton, Segment.grafted]
    cases known : values (name ++ index) with
    | none => exact .last declared digits
    | some value => exact valuesCut _ value known
  | @token name index c rest declared digits ends _ ih =>
    rw [List.flatMap_cons, Segment.grafted]
    cases known : values (name ++ index) with
    | none => exact .token declared digits ends ih
    | some value => exact (valuesCut _ value known).append_literal ends ih

theorem mem_grafted {segment : Segment} {name index : Text} :
    .token name index ∈ segment.grafted names values ↔
      (segment = .token name index ∧ values (name ++ index) = none) ∨
        ∃ token value, segment.token? = some token ∧ values token = some value ∧
          .token name index ∈ segments names value := by
  cases segment with
  | literal c => simp [Segment.grafted, Segment.token?]
  | token other otherIndex =>
    rw [Segment.grafted]
    cases known : values (other ++ otherIndex) with
    | none =>
      have own (same : other = name ∧ otherIndex = index) : values (name ++ index) = none :=
        same.1 ▸ same.2 ▸ known
      simp only [List.mem_singleton, Segment.token.injEq, Segment.token?, Option.some.injEq]
      constructor
      · rintro ⟨rfl, rfl⟩
        exact Or.inl ⟨⟨rfl, rfl⟩, known⟩
      · rintro (⟨⟨rfl, rfl⟩, -⟩ | ⟨token, value, rfl, found, -⟩)
        · exact ⟨rfl, rfl⟩
        · rw [known] at found
          cases found
    | some value =>
      simp only [Segment.token.injEq, Segment.token?, Option.some.injEq]
      constructor
      · intro member
        exact Or.inr ⟨_, value, rfl, known, member⟩
      · rintro (⟨⟨rfl, rfl⟩, none⟩ | ⟨token, other, rfl, found, member⟩)
        · rw [known] at none
          cases none
        · rw [known] at found
          exact Option.some.inj found ▸ member

theorem wellCut_single (token : Text) {value : Text}
    (valueCut : WellCut names (segments names value)) :
    ∀ other found, Assignment.get? ⟨[(token, value)]⟩ other = some found →
      WellCut names (segments names found) := by
  intro other found bound
  rw [Assignment.get?_cons] at bound
  split at bound
  · exact Option.some.inj bound ▸ valueCut
  · cases bound

section Bracketed

variable (bracketed : ∀ name ∈ names, name.Bracketed)

include bracketed

theorem segments_fill_grafted (wellCut : WellCut names (segments names text))
    (valuesCut : ∀ token value, values token = some value → WellCut names (segments names value)) :
    segments names (fill names values text) =
      (segments names text).flatMap (Segment.grafted names values) := by
  have cut := (wellCut.flatMap_grafted valuesCut).segments_eq bracketed
  simp only [List.flatMap_assoc, flatMap_text_grafted] at cut
  exact cut

theorem mem_tokens_fill (wellCut : WellCut names (segments names text))
    (valuesCut : ∀ token value, values token = some value → WellCut names (segments names value))
    {token : Text} :
    token ∈ tokens names (fill names values text) ↔
      (token ∈ tokens names text ∧ values token = none) ∨
        ∃ other value, other ∈ tokens names text ∧ values other = some value ∧
          token ∈ tokens names value := by
  simp only [mem_tokens_iff, segments_fill_grafted bracketed wellCut valuesCut, List.mem_flatMap,
    mem_grafted]
  constructor
  · rintro ⟨name, index, ⟨segment, member, either⟩, rfl⟩
    rcases either with ⟨rfl, none⟩ | ⟨other, value, isToken, known, inside⟩
    · exact Or.inl ⟨⟨name, index, member, rfl⟩, none⟩
    · refine Or.inr ⟨other, value, ?_, known, name, index, inside, rfl⟩
      cases segment with
      | literal c => cases isToken
      | token outer outerIndex => exact ⟨outer, outerIndex, member, Option.some.inj isToken⟩
  · rintro (⟨⟨name, index, member, rfl⟩, none⟩ |
      ⟨other, value, ⟨outer, outerIndex, member, rfl⟩, known, name, index, inside, rfl⟩)
    · exact ⟨name, index, ⟨_, member, Or.inl ⟨rfl, none⟩⟩, rfl⟩
    · exact ⟨name, index, ⟨_, member, Or.inr ⟨_, value, rfl, known, inside⟩⟩, rfl⟩

theorem wellCut_of_plain {value : Text} (plain : value.Plain) :
    WellCut names (segments names value) := by
  have cut : WellCut names (value.map .literal) := by
    simpa using WellCut.append_plain plain .nil
  have written : (value.map Segment.literal).flatMap Segment.text = value := by
    simpa using flatMap_map_literal value [] Segment.text fun _ => rfl
  have read := cut.segments_eq bracketed
  rw [written] at read
  rw [read]
  exact cut

variable {token value : Text} (isToken : IsToken names token)
  (wellCut : WellCut names (segments names text)) (valueCut : WellCut names (segments names value))

include isToken

theorem substitute_eq_fill :
    substitute token value text = fill names (Assignment.get? ⟨[(token, value)]⟩) text := by
  have single : ∀ binding ∈ [(token, value)], IsToken names binding.1 := by
    simpa using isToken
  exact Substitution.substituteAll_eq_fill bracketed single text

include wellCut valueCut

theorem wellCut_substitute : WellCut names (segments names (substitute token value text)) := by
  have single := wellCut_single token valueCut
  rw [substitute_eq_fill bracketed isToken, segments_fill_grafted bracketed wellCut single]
  exact wellCut.flatMap_grafted single

theorem mem_tokens_substitute {other : Text} :
    other ∈ tokens names (substitute token value text) ↔
      (other ∈ tokens names text ∧ token ≠ other) ∨
        (token ∈ tokens names text ∧ other ∈ tokens names value) := by
  have known (other : Text) :
      Assignment.get? ⟨[(token, value)]⟩ other = if token = other then some value else none :=
    Assignment.get?_cons _ _ _
  have single := wellCut_single token valueCut
  rw [substitute_eq_fill bracketed isToken, mem_tokens_fill bracketed wellCut single]
  simp [known]

end Bracketed

end Token

end SyncGrammar
