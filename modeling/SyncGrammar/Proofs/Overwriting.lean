import SyncGrammar.Proofs.AllBound

/-!
Replacing tokens in the places where scanning finds them. Scanning takes the longest declared name
and all the digits behind it, replacing takes the longest key that no digit follows. They keep in
step if each token that is found is a key, and whatever the keys are if the names are in brackets.
What is written then depends on the values alone and not on the order of the replacements.
-/
namespace SyncGrammar

namespace Token

def Span.covers (span : Span) (place : Nat) : Bool :=
  span.start ≤ place && place < span.finish

/-- What stands in the end where `c` stood at a place. Outside the tokens that have a value it is
`c` itself, and the value of such a token takes the place of its first character. -/
def written (spans : List Span) (values : Text → Option Text) (place : Nat) (c : Char) : Text :=
  match spans.find? (·.covers place) with
  | none => [c]
  | some span =>
    match values span.token with
    | none => [c]
    | some value => if place = span.start then value else []

/-- A text, the first character of which stands at `place`, with values in place of the tokens that
have one. -/
def overwrite (spans : List Span) (values : Text → Option Text) : Nat → Text → Text
  | _, [] => []
  | place, c :: rest =>
    written spans values place c ++ overwrite spans values (place + c.utf8Size) rest

variable {names : List Text} {spans : List Span} {values : Text → Option Text} {place : Nat}

theorem overwrite_append (first second : Text) :
    overwrite spans values place (first ++ second) =
      overwrite spans values place first ++
        overwrite spans values (place + first.byteLength) second := by
  induction first generalizing place with
  | nil => simp [overwrite]
  | cons c rest ih => simp [overwrite, ih, Nat.add_assoc]

theorem Span.covers_iff {span : Span} :
    span.covers place = true ↔ span.start ≤ place ∧ place < span.finish := by
  simp [covers]

theorem start_of_mem_spansFrom {cut : List Segment} {span : Span}
    (member : span ∈ spansFrom place cut) : place ≤ span.start := by
  induction cut generalizing place with
  | nil => cases member
  | cons segment rest ih =>
    cases segment with
    | literal c =>
      have later := ih member
      omega
    | token name index =>
      rcases List.mem_cons.mp member with rfl | inside
      · exact Nat.le_refl _
      · have later := ih inside
        omega

theorem find?_covers_spansFrom {cut : List Segment} {start : Nat} (ahead : place < start) :
    (spansFrom start cut).find? (·.covers place) = none := by
  rw [List.find?_eq_none]
  intro span member covers
  have later := start_of_mem_spansFrom member
  have reached := (Span.covers_iff.mp covers).1
  omega

theorem find?_covers_of_past (past : ∀ span ∈ spans, span.finish ≤ place) :
    spans.find? (·.covers place) = none := by
  rw [List.find?_eq_none]
  intro span member covers
  have ended := past span member
  have inside := (Span.covers_iff.mp covers).2
  omega

section Inside

variable {span : Span} (found : ∀ place, span.start ≤ place → place < span.finish →
  spans.find? (·.covers place) = some span)

include found

theorem overwrite_behind {value rest : Text} (known : values span.token = some value)
    (inside : span.start < place) (ends : place + rest.byteLength ≤ span.finish) :
    overwrite spans values place rest = [] := by
  induction rest generalizing place with
  | nil => rfl
  | cons c rest ih =>
    have positive := Char.utf8Size_pos c
    rw [Text.byteLength_cons] at ends
    have here : written spans values place c = [] := by
      have behind : place ≠ span.start := by omega
      simp [written, found place (by omega) (by omega), known, behind]
    rw [overwrite, here, ih (by omega) (by omega), List.append_nil]

theorem overwrite_unbound {rest : Text} (unknown : values span.token = none)
    (inside : span.start ≤ place) (ends : place + rest.byteLength ≤ span.finish) :
    overwrite spans values place rest = rest := by
  induction rest generalizing place with
  | nil => rfl
  | cons c rest ih =>
    have positive := Char.utf8Size_pos c
    rw [Text.byteLength_cons] at ends
    have here : written spans values place c = [c] := by
      simp [written, found place inside (by omega), unknown]
    rw [overwrite, here, ih (by omega) (by omega), List.singleton_append]

theorem overwrite_token (nonempty : span.token ≠ []) :
    overwrite spans values span.start span.token = (values span.token).getD span.token := by
  cases known : values span.token with
  | none => exact overwrite_unbound found known (Nat.le_refl _) (Nat.le_refl _)
  | some value =>
    obtain ⟨c, rest, split⟩ := List.exists_cons_of_ne_nil nonempty
    have positive := Char.utf8Size_pos c
    have ends : span.finish = span.start + (c.utf8Size + Text.byteLength rest) := by
      rw [Span.finish, split, Text.byteLength_cons]
    have first : written spans values span.start c = value := by
      simp [written, found span.start (Nat.le_refl _) (by omega), known]
    rw [split, overwrite, first, overwrite_behind found known (by omega) (by omega)]
    simp

end Inside

theorem overwrite_spansFrom {cut : List Segment} {before : List Span}
    (named : ∀ name index, .token name index ∈ cut → name ≠ [])
    (past : ∀ span ∈ before, span.finish ≤ place) :
    overwrite (before ++ spansFrom place cut) values place (cut.flatMap Segment.text) =
      cut.flatMap (Segment.written values) := by
  induction cut generalizing before place with
  | nil => rfl
  | cons segment rest ih =>
    have others (name index : Text) (member : .token name index ∈ rest) : name ≠ [] :=
      named name index (List.mem_cons_of_mem _ member)
    cases segment with
    | literal c =>
      have positive := Char.utf8Size_pos c
      have kept : written (before ++ spansFrom (place + c.utf8Size) rest) values place c = [c] := by
        rw [written, List.find?_append, find?_covers_of_past past,
          find?_covers_spansFrom (by omega)]
        rfl
      have onward := @ih (place + c.utf8Size) before others fun span member =>
        Nat.le_trans (past span member) (Nat.le_add_right _ _)
      simp only [List.flatMap_cons, Segment.text, Segment.written, List.singleton_append,
        spansFrom, overwrite, kept, onward]
    | token name index =>
      have nonempty : name ++ index ≠ [] := by
        simp [named name index List.mem_cons_self]
      let span : Span := ⟨place, name, index⟩
      have found (inner : Nat) (reached : span.start ≤ inner) (ahead : inner < span.finish) :
          (before ++ span :: spansFrom span.finish rest).find? (·.covers inner) = some span := by
        have ended : ∀ span ∈ before, span.finish ≤ inner := fun other member =>
          Nat.le_trans (past other member) reached
        rw [List.find?_append, find?_covers_of_past ended, List.find?_cons,
          Span.covers_iff.mpr ⟨reached, ahead⟩]
        rfl
      have here := @overwrite_token _ values span found nonempty
      have onward := @ih span.finish (before ++ [span]) others fun other member => by
        rcases List.mem_append.mp member with old | new
        · exact Nat.le_trans (past other old) (Nat.le_add_right _ _)
        · rw [List.mem_singleton.mp new]
      rw [List.append_assoc] at onward
      rw [List.flatMap_cons, List.flatMap_cons, overwrite_append]
      exact congrArg₂ _ here onward

theorem overwrite_scan (text : Text) :
    overwrite (scan names text) values 0 text = fill names values text := by
  have whole := @overwrite_spansFrom values 0 (segments names text) []
    (fun _ _ member => nonempty_of_mem_segments member) (by simp)
  rwa [flatMap_text_segments] at whole

theorem map_token_spansFrom (cut : List Segment) :
    (spansFrom place cut).map Span.token = cut.filterMap Segment.token? := by
  induction cut generalizing place with
  | nil => rfl
  | cons segment rest ih =>
    cases segment with
    | literal c => exact ih
    | token name index => exact congrArg _ ih

theorem mem_tokens_iff_scan {text token : Text} :
    token ∈ tokens names text ↔ ∃ span ∈ scan names text, span.token = token := by
  rw [tokens, ← @map_token_spansFrom 0, List.mem_map]
  rfl

theorem IsNamed.isToken {token : Text} (named : IsNamed names token) : IsToken names token := by
  obtain ⟨name, declared, -, index, digits, same⟩ := named
  exact ⟨name, declared, index, digits, same⟩

theorem isNamed_iff {token : Text} :
    (∃ name ∈ names, name ≠ [] ∧ name <+: token ∧
      (token.drop name.length).all Char.isDigit = true) ↔ IsNamed names token := by
  simp only [IsNamed, List.all_eq_true]
  constructor
  · rintro ⟨name, declared, nonempty, ⟨index, rfl⟩, digits⟩
    rw [List.drop_left] at digits
    exact ⟨name, declared, nonempty, index, digits, rfl⟩
  · rintro ⟨name, declared, nonempty, index, digits, rfl⟩
    refine ⟨name, declared, nonempty, List.prefix_append name index, ?_⟩
    rwa [List.drop_left]

instance (token : Text) : Decidable (IsNamed names token) :=
  decidable_of_iff _ isNamed_iff

end Token

theorem Assignment.get?_of_perm {bindings others : List (Text × Text)}
    (distinct : (bindings.map (·.1)).Nodup) (perm : others.Perm bindings) :
    get? ⟨others⟩ = get? ⟨bindings⟩ := by
  have alsoDistinct : (others.map (·.1)).Nodup := (perm.map _).nodup_iff.mpr distinct
  funext token
  apply Option.ext
  intro value
  rw [get?_eq_some_iff_mem distinct, get?_eq_some_iff_mem alsoDistinct, perm.mem_iff]

namespace Substitution

open Token

variable {names : List Text} {replacements : List (Text × Text)} {text : Text}

theorem substituteAll_eq_fill_of_either
    (named : ∀ replacement ∈ replacements, IsNamed names replacement.1)
    (distinct : (replacements.map (·.1)).Nodup)
    (either : (∀ span ∈ scan names text, span.token ∈ replacements.map (·.1)) ∨
      ∀ name ∈ names, name.Bracketed) :
    substituteAll replacements text = fill names (Assignment.get? ⟨replacements⟩) text := by
  rcases either with bound | bracketed
  · apply substituteAll_eq_fill_of_bound named distinct
    intro token occurs
    obtain ⟨span, scanned, rfl⟩ := mem_tokens_iff_scan.mp occurs
    exact bound span scanned
  · apply substituteAll_eq_fill bracketed
    intro replacement member
    exact (named replacement member).isToken

/-- Each token that is found by scanning gives way to its value if it is a key, all other characters
stay, and the replacements may be given in any order. It is enough that all the tokens found are
keys, or that the declared names are in brackets. -/
theorem replaces_what_is_scanned
    (named : ∀ replacement ∈ replacements, IsNamed names replacement.1)
    (distinct : (replacements.map (·.1)).Nodup)
    (either : (∀ span ∈ scan names text, span.token ∈ replacements.map (·.1)) ∨
      ∀ name ∈ names, name.Bracketed) :
    substituteAll replacements text =
        overwrite (scan names text) (Assignment.get? ⟨replacements⟩) 0 text ∧
      ∀ others, others.Perm replacements →
        substituteAll others text = substituteAll replacements text := by
  have filled := substituteAll_eq_fill_of_either named distinct either
  refine ⟨filled.trans (overwrite_scan text).symm, fun others perm => ?_⟩
  have sameKeys := perm.map Prod.fst
  have alsoFilled : substituteAll others text = fill names (Assignment.get? ⟨others⟩) text := by
    apply substituteAll_eq_fill_of_either
    · intro replacement member
      exact named replacement (perm.mem_iff.mp member)
    · exact sameKeys.nodup_iff.mpr distinct
    · simpa only [sameKeys.mem_iff] using either
  rw [alsoFilled, filled, Assignment.get?_of_perm distinct perm]

def likeNames : List Text :=
  ["a".toList, "ab".toList, "a1".toList, "é".toList]

def likeValues : List (Text × Text) :=
  [("a".toList, "ab".toList), ("a12".toList, "é7".toList), ("ab3".toList, "".toList),
    ("é7".toList, "a1".toList)]

theorem replaces_what_is_scanned_likeNames :
    (∀ span ∈ scan likeNames "a12ab3 é7-a".toList, span.token ∈ likeValues.map (·.1)) ∧
      substituteAll likeValues "a12ab3 é7-a".toList = "é7 a1-ab".toList ∧
      substituteAll likeValues.reverse "a12ab3 é7-a".toList = "é7 a1-ab".toList ∧
      substituteAll [("<x>1".toList, "v".toList)] "<x>12<y>1<x>1>".toList =
        "<x>12<y>1v>".toList := by
  have bound : ∀ span ∈ scan likeNames "a12ab3 é7-a".toList,
      span.token ∈ likeValues.map (·.1) := by decide +kernel
  obtain ⟨written, inAnyOrder⟩ := @replaces_what_is_scanned likeNames likeValues
    "a12ab3 é7-a".toList (by decide +kernel) (by decide +kernel) (Or.inl bound)
  obtain ⟨bracketed, -⟩ := @replaces_what_is_scanned ["<x>".toList, "<y>".toList]
    [("<x>1".toList, "v".toList)] "<x>12<y>1<x>1>".toList
    (by decide +kernel) (by decide +kernel) (Or.inr (by decide +kernel))
  have first : substituteAll likeValues "a12ab3 é7-a".toList = "é7 a1-ab".toList :=
    written.trans (by decide +kernel)
  exact ⟨bound, first, (inAnyOrder _ (List.reverse_perm _)).trans first,
    bracketed.trans (by decide +kernel)⟩

end Substitution

end SyncGrammar
