import SyncGrammar.Assignment
import SyncGrammar.Proofs.Apart

/-!
Filling the tokens of a text with values. Replacing all tokens at once fills the text, and so does
replacing them one after the other if the values are plain and the tokens apart, because then none
of them is affected by what stands for the others.
-/
namespace SyncGrammar

namespace Token

variable {names : List Text}

def Segment.written (values : Text → Option Text) : Segment → Text
  | .literal c => [c]
  | .token name index => (values (name ++ index)).getD (name ++ index)

/-- A text with values in place of all the tokens that have one. -/
def fill (names : List Text) (values : Text → Option Text) (text : Text) : Text :=
  (segments names text).flatMap (Segment.written values)

def Segment.filled (values : Text → Option Text) : Segment → List Segment
  | .literal c => [.literal c]
  | .token name index =>
    match values (name ++ index) with
    | some value => value.map .literal
    | none => [.token name index]

variable {values : Text → Option Text} {text : Text}

theorem flatMap_map_literal (value : Text) (rest : List Segment) (write : Segment → Text)
    (same : ∀ c, write (.literal c) = [c]) :
    (value.map Segment.literal ++ rest).flatMap write = value ++ rest.flatMap write := by
  induction value with
  | nil => rfl
  | cons c value ih => simp [same, ih]

theorem flatMap_text_filled (segment : Segment) :
    (segment.filled values).flatMap Segment.text = segment.written values := by
  cases segment with
  | literal c => rfl
  | token name index =>
    simp only [Segment.filled, Segment.written]
    cases values (name ++ index) with
    | none => simp [Segment.text]
    | some value => simpa using flatMap_map_literal value [] Segment.text fun _ => rfl

theorem WellCut.append_plain {value : Text} {rest : List Segment} (plain : value.Plain)
    (wellCut : WellCut names rest) : WellCut names (value.map .literal ++ rest) := by
  induction value with
  | nil => exact wellCut
  | cons c value ih =>
    simp only [Text.Plain, List.mem_cons, not_or] at plain
    exact .literal ⟨Ne.symm plain.1.1, Ne.symm plain.2.1⟩ (ih ⟨plain.1.2, plain.2.2⟩)

theorem WellCut.flatMap_filled {cut : List Segment} (wellCut : WellCut names cut)
    (plain : ∀ token value, values token = some value → value.Plain) :
    WellCut names (cut.flatMap (Segment.filled values)) := by
  induction wellCut with
  | nil => exact .nil
  | literal apart _ ih => exact .literal apart ih
  | @last name index declared digits =>
    rw [List.flatMap_singleton, Segment.filled]
    cases known : values (name ++ index) with
    | none => exact .last declared digits
    | some value => simpa using WellCut.append_plain (plain _ _ known) .nil
  | @token name index c rest declared digits ends _ ih =>
    rw [List.flatMap_cons, Segment.filled]
    cases known : values (name ++ index) with
    | none => exact .token declared digits ends ih
    | some value => exact WellCut.append_plain (plain _ _ known) ih

theorem fill_unbound (text : Text) : fill names (fun _ => none) text = text := by
  have same : Segment.written (fun _ => none) = Segment.text := by
    funext segment
    cases segment <;> rfl
  rw [fill, same, flatMap_text_segments]

theorem fill_congr {first second : Text → Option Text}
    (agree : ∀ token ∈ tokens names text, first token = second token) :
    fill names first text = fill names second text := by
  apply List.flatMap_congr
  intro segment member
  cases segment with
  | literal c => rfl
  | token name index =>
    have same := agree _ (mem_tokens_iff.mpr ⟨name, index, member, rfl⟩)
    rw [Segment.written, Segment.written, same]

theorem plain_fill (legible : Legible names text)
    (given : ∀ token ∈ tokens names text, ∃ value, values token = some value ∧ value.Plain) :
    (fill names values text).Plain := by
  apply Text.plain_flatMap
  intro segment member
  cases segment with
  | literal c => exact legible.enclosed _ member rfl
  | token name index =>
    obtain ⟨value, known, plain⟩ := given _ (mem_tokens_iff.mpr ⟨name, index, member, rfl⟩)
    rw [Segment.written, known]
    exact plain

theorem infix_fill {token value : Text} (occurs : token ∈ tokens names text)
    (known : values token = some value) : value <:+: fill names values text := by
  obtain ⟨name, index, member, rfl⟩ := mem_tokens_iff.mp occurs
  obtain ⟨before, after, split⟩ := List.append_of_mem member
  refine ⟨before.flatMap (Segment.written values), after.flatMap (Segment.written values), ?_⟩
  rw [fill, split, List.flatMap_append, List.flatMap_cons, Segment.written, known,
    Option.getD_some, List.append_assoc]

theorem exists_literal_of_not_onlyTokens (mixed : onlyTokens names text = false) :
    ∃ c, .literal c ∈ segments names text := by
  obtain ⟨segment, member, isLiteral⟩ := List.all_eq_false.mp mixed
  cases segment with
  | literal c => exact ⟨c, member⟩
  | token name index => exact absurd rfl isLiteral

theorem byteLength_lt_fill {token value : Text} (occurs : token ∈ tokens names text)
    (known : values token = some value) (mixed : onlyTokens names text = false) :
    value.byteLength < (fill names values text).byteLength := by
  obtain ⟨name, index, member, rfl⟩ := mem_tokens_iff.mp occurs
  obtain ⟨c, isLiteral⟩ := exists_literal_of_not_onlyTokens mixed
  obtain ⟨before, after, split⟩ := List.append_of_mem member
  have positive := Char.utf8Size_pos c
  rw [split] at isLiteral
  have beside : .literal c ∈ before ++ after := by
    simpa using isLiteral
  have room :
      c.utf8Size ≤ Text.byteLength ((before ++ after).flatMap (Segment.written values)) := by
    simpa [Segment.written] using Text.byteLength_le_flatMap (Segment.written values) beside
  rw [fill, split, List.flatMap_append, List.flatMap_cons, Segment.written, known]
  rw [List.flatMap_append] at room
  simp only [Text.byteLength_append, Option.getD_some] at room ⊢
  omega

section Bracketed

variable (bracketed : ∀ name ∈ names, name.Bracketed)

include bracketed

theorem segments_fill (wellCut : WellCut names (segments names text))
    (plain : ∀ token value, values token = some value → value.Plain) :
    segments names (fill names values text) =
      (segments names text).flatMap (Segment.filled values) := by
  have cut := (wellCut.flatMap_filled plain).segments_eq bracketed
  simp only [List.flatMap_assoc, flatMap_text_filled] at cut
  exact cut

theorem wellCut_fill (wellCut : WellCut names (segments names text))
    (plain : ∀ token value, values token = some value → value.Plain) :
    WellCut names (segments names (fill names values text)) := by
  rw [segments_fill bracketed wellCut plain]
  exact wellCut.flatMap_filled plain

theorem fill_fill {first second : Text → Option Text}
    (wellCut : WellCut names (segments names text))
    (plain : ∀ token value, first token = some value → value.Plain) :
    fill names second (fill names first text) =
      fill names (fun token => (first token).or (second token)) text := by
  rw [fill, segments_fill bracketed wellCut plain, List.flatMap_assoc, fill]
  congr 1
  funext segment
  cases segment with
  | literal c => rfl
  | token name index =>
    simp only [Segment.filled, Segment.written]
    cases first (name ++ index) with
    | none => simp [Segment.written]
    | some value =>
      simpa using flatMap_map_literal value [] (Segment.written second) fun _ => rfl

end Bracketed

end Token

namespace Substitution

open Token

variable {names : List Text} {bindings : List (Text × Text)}

theorem substituteAll_append_of_unstarted {before : Text} (text : Text)
    (unstarted : ∀ inner : Text, inner <:+ before → inner ≠ [] → ∀ binding ∈ bindings,
      startsWithToken binding.1 (inner ++ text) = false) :
    substituteAll bindings (before ++ text) = before ++ substituteAll bindings text := by
  induction before with
  | nil => rfl
  | cons c before ih =>
    have none : applicable bindings (c :: (before ++ text)) = none := by
      rw [applicable, Text.longestBy_eq_none_iff, List.filter_eq_nil_iff]
      intro binding member holds
      have clear := unstarted _ List.suffix_rfl (List.cons_ne_nil c before) binding member
      exact absurd (Bool.and_eq_true_iff.mp holds).2 (Bool.eq_false_iff.mp clear)
    have onward := ih fun inner inside => unstarted inner (inside.trans (List.suffix_cons c before))
    rw [List.cons_append, substituteAll, none, onward]
    rfl

section Apart

variable (apart : Apart names) (tokens : ∀ binding ∈ bindings, IsToken names binding.1)

include apart tokens

theorem applicable_of_unnamed {text : Text} (unnamed : longestName names text = none) :
    applicable bindings text = none := by
  rw [applicable, Text.longestBy_eq_none_iff, List.filter_eq_nil_iff]
  intro binding member holds
  obtain ⟨-, starts⟩ := Bool.and_eq_true_iff.mp holds
  obtain ⟨name, declared, begins⟩ := exists_name_of_startsWithToken (tokens binding member) starts
  exact longestName_eq_none_iff.mp unnamed name declared (apart.nonempty name declared) begins

theorem applicable_token {name index rest : Text} (declared : name ∈ names)
    (indexes : Indexes index rest) :
    applicable bindings (name ++ (index ++ rest)) =
      bindings.find? fun binding => binding.1 = name ++ index := by
  have here (binding : Text × Text) (member : binding ∈ bindings) :
      (!binding.1.isEmpty && startsWithToken binding.1 (name ++ (index ++ rest))) =
        decide (binding.1 = name ++ index) := by
    have same := startsWithToken_iff_eq apart (tokens binding member) declared indexes
    have nonempty := apart.nonempty name declared
    rw [Bool.eq_iff_iff, Bool.and_eq_true, same, decide_eq_true_iff]
    constructor
    · exact And.right
    · intro named
      exact ⟨by simp [named, nonempty], named⟩
  rw [applicable, List.filter_congr here, ← List.head?_filter]
  apply Text.longestBy_of_level
  intro binding member other alsoMember
  have named := of_decide_eq_true (List.mem_filter.mp member).2
  have alsoNamed := of_decide_eq_true (List.mem_filter.mp alsoMember).2
  rw [named, alsoNamed]

theorem substituteAll_token {name index rest : Text} (declared : name ∈ names)
    (indexes : Indexes index rest) :
    substituteAll bindings (name ++ (index ++ rest)) =
      (Assignment.get? ⟨bindings⟩ (name ++ index)).getD (name ++ index) ++
        substituteAll bindings rest := by
  have applies := applicable_token apart tokens declared indexes
  rw [Assignment.get?]
  cases found : bindings.find? fun binding => binding.1 = name ++ index with
  | none =>
    have unbound (binding : Text × Text) (member : binding ∈ bindings) :
        binding.1 ≠ name ++ index := by
      simpa using List.find?_eq_none.mp found binding member
    rw [← List.append_assoc, substituteAll_append_of_unstarted rest]
    · rfl
    · intro inner inside nonempty binding member
      by_cases whole : inner = name ++ index
      · subst whole
        have same := startsWithToken_iff_eq apart (tokens binding member) declared indexes
        rw [List.append_assoc, Bool.eq_false_iff, Ne, same]
        exact unbound binding member
      · exact not_startsWithToken_inside apart (tokens binding member) declared indexes.digits
          inside nonempty whole
  | some binding =>
    have named : binding.1 = name ++ index := by
      simpa using List.find?_some found
    rw [found] at applies
    cases name with
    | nil => exact absurd rfl (apart.nonempty [] declared)
    | cons c tail =>
      obtain ⟨token, value⟩ := binding
      subst named
      rw [List.cons_append] at applies ⊢
      rw [substituteAll, applies]
      simp

theorem substituteAll_eq_fill_of_apart (text : Text) :
    substituteAll bindings text = fill names (Assignment.get? ⟨bindings⟩) text := by
  unfold fill
  fun_induction segments names text with
  | case1 => rw [substituteAll, List.flatMap_nil]
  | case2 c rest unnamed ih =>
    rw [substituteAll, applicable_of_unnamed apart tokens unnamed, ih]
    rfl
  | case3 c rest name found after ih =>
    obtain ⟨declared, nonempty, starts, -⟩ := longestName_eq_some found
    have split : c :: rest =
        name ++ (after.takeWhile Char.isDigit ++ after.dropWhile Char.isDigit) := by
      have whole := append_drop_of_prefix nonempty starts
      rw [List.takeWhile_append_dropWhile, whole]
    rw [split, substituteAll_token apart tokens declared (indexes_span after), ih]
    rfl

end Apart

theorem substituteAll_eq_fill (bracketed : ∀ name ∈ names, name.Bracketed)
    (tokens : ∀ binding ∈ bindings, IsToken names binding.1) (text : Text) :
    substituteAll bindings text = fill names (Assignment.get? ⟨bindings⟩) text :=
  substituteAll_eq_fill_of_apart (apart_of_bracketed bracketed) tokens text

/-- Writes the values of the bindings in place of their tokens, one after the other. -/
def inOrder (bindings : List (Text × Text)) (text : Text) : Text :=
  bindings.foldl (fun text binding => substitute binding.1 binding.2 text) text

theorem plain_of_get? (plain : ∀ binding ∈ bindings, binding.2.Plain) {token value : Text}
    (known : Assignment.get? ⟨bindings⟩ token = some value) : value.Plain := by
  obtain ⟨binding, found, rfl⟩ := Option.map_eq_some_iff.mp known
  exact plain binding (List.mem_of_find?_eq_some found)

theorem inOrder_eq_fill (bracketed : ∀ name ∈ names, name.Bracketed)
    (tokens : ∀ binding ∈ bindings, IsToken names binding.1)
    (plain : ∀ binding ∈ bindings, binding.2.Plain) {text : Text}
    (wellCut : WellCut names (segments names text)) :
    inOrder bindings text = fill names (Assignment.get? ⟨bindings⟩) text := by
  induction bindings generalizing text with
  | nil => exact (fill_unbound text).symm
  | cons binding rest ih =>
    rw [List.forall_mem_cons] at tokens plain
    have single : ∀ other ∈ [binding], IsToken names other.1 := by
      simpa using tokens.1
    have alone : ∀ token value, Assignment.get? ⟨[binding]⟩ token = some value → value.Plain :=
      fun _ _ => plain_of_get? (by simpa using plain.1)
    have first : substitute binding.1 binding.2 text =
        fill names (Assignment.get? ⟨[binding]⟩) text := substituteAll_eq_fill bracketed single text
    calc inOrder (binding :: rest) text
        = inOrder rest (fill names (Assignment.get? ⟨[binding]⟩) text) := by
          rw [← first]
          rfl
      _ = fill names (Assignment.get? ⟨rest⟩) (fill names (Assignment.get? ⟨[binding]⟩) text) :=
          ih tokens.2 plain.2 (wellCut_fill bracketed wellCut alone)
      _ = fill names (fun token => (Assignment.get? ⟨[binding]⟩ token).or
            (Assignment.get? ⟨rest⟩ token)) text := fill_fill bracketed wellCut alone
      _ = fill names (Assignment.get? ⟨binding :: rest⟩) text := by
          congr 1
          funext token
          rw [Assignment.get?_cons, Assignment.get?_cons]
          split <;> rfl

end Substitution

end SyncGrammar
