import SyncGrammar.Token

namespace SyncGrammar

def Text.Plain (text : Text) : Prop :=
  '<' ∉ text ∧ '>' ∉ text

instance (text : Text) : Decidable text.Plain :=
  inferInstanceAs (Decidable (_ ∧ _))

def Text.Bracketed (name : Text) : Prop :=
  ∃ word : Text, word.Plain ∧ name = '<' :: word ++ ['>']

instance (name : Text) : Decidable name.Bracketed :=
  decidable_of_iff (Text.Plain name.tail.dropLast ∧ name = '<' :: name.tail.dropLast ++ ['>']) <| by
    constructor
    · intro parts
      exact ⟨_, parts⟩
    · rintro ⟨word, plain, rfl⟩
      simpa using plain

theorem Text.Plain.of_infix {part text : Text} (plain : text.Plain) (inside : part <:+: text) :
    part.Plain :=
  ⟨fun member => plain.1 (inside.subset member), fun member => plain.2 (inside.subset member)⟩

theorem Text.plain_flatMap {α : Type} {elements : List α} {write : α → Text}
    (plain : ∀ element ∈ elements, (write element).Plain) :
    Text.Plain (elements.flatMap write) := by
  constructor
  · intro member
    obtain ⟨element, inside, bracket⟩ := List.mem_flatMap.mp member
    exact (plain element inside).1 bracket
  · intro member
    obtain ⟨element, inside, bracket⟩ := List.mem_flatMap.mp member
    exact (plain element inside).2 bracket

namespace Text.Bracketed

variable {name other text : Text}

theorem nonempty (bracketed : name.Bracketed) : name ≠ [] := by
  obtain ⟨word, -, rfl⟩ := bracketed
  exact List.cons_ne_nil _ _

theorem head?_of_starts (bracketed : name.Bracketed) (starts : name <+: text) :
    text.head? = some '<' := by
  obtain ⟨word, -, rfl⟩ := bracketed
  obtain ⟨rest, rfl⟩ := starts
  rfl

theorem takeWhile_eq {word rest : Text} (plain : word.Plain) :
    (word ++ '>' :: rest).takeWhile (· ≠ '>') = word := by
  rw [List.takeWhile_append_of_pos]
  · simp
  · intro c member
    have different : c ≠ '>' := fun same => plain.2 (same ▸ member)
    simpa using different

theorem eq_of_starts (bracketed : name.Bracketed) (also : other.Bracketed) (starts : name <+: text)
    (alsoStarts : other <+: text) : name = other := by
  obtain ⟨word, plain, rfl⟩ := bracketed
  obtain ⟨otherWord, otherPlain, rfl⟩ := also
  obtain ⟨rest, split⟩ := starts
  obtain ⟨otherRest, rfl⟩ := alsoStarts
  have same : word ++ '>' :: rest = otherWord ++ '>' :: otherRest := by
    simpa using split
  have words := congrArg (List.takeWhile (· ≠ '>')) same
  rw [takeWhile_eq plain, takeWhile_eq otherPlain] at words
  rw [words]

end Text.Bracketed

namespace Token

variable {names : List Text}

def IsToken (names : List Text) (token : Text) : Prop :=
  ∃ name ∈ names, ∃ index : Text, (∀ d ∈ index, d.isDigit = true) ∧ token = name ++ index

structure Indexes (index rest : Text) : Prop where
  digits : ∀ d ∈ index, d.isDigit = true
  ends : ∀ d ∈ rest.head?, d.isDigit = false

theorem indexes_span (text : Text) :
    Indexes (text.takeWhile Char.isDigit) (text.dropWhile Char.isDigit) := by
  constructor
  · exact List.all_eq_true.mp List.all_takeWhile
  · intro d first
    have stop := List.head?_dropWhile_not Char.isDigit text
    rw [first] at stop
    simpa using stop

theorem Indexes.span_eq {index rest : Text} (indexes : Indexes index rest) :
    (index ++ rest).takeWhile Char.isDigit = index ∧
      (index ++ rest).dropWhile Char.isDigit = rest := by
  rw [List.takeWhile_append_of_pos indexes.digits, List.dropWhile_append_of_pos indexes.digits]
  cases rest with
  | nil => simp
  | cons d rest => simp [indexes.ends d rfl]

theorem mem_tokens_iff {text token : Text} :
    token ∈ tokens names text ↔
      ∃ name index, .token name index ∈ segments names text ∧ name ++ index = token := by
  rw [tokens, List.mem_filterMap]
  constructor
  · rintro ⟨segment, member, named⟩
    cases segment with
    | literal c => cases named
    | token name index => exact ⟨name, index, member, Option.some.inj named⟩
  · rintro ⟨name, index, member, rfl⟩
    exact ⟨_, member, rfl⟩

theorem longestName_of_mem_segments {text name index : Text}
    (member : .token name index ∈ segments names text) :
    ∃ rest, Indexes index rest ∧ longestName names (name ++ (index ++ rest)) = some name := by
  fun_induction segments names text with
  | case1 => cases member
  | case2 c rest _ ih =>
    rcases List.mem_cons.mp member with same | later
    · cases same
    · exact ih later
  | case3 c rest other found after ih =>
    rcases List.mem_cons.mp member with same | later
    · cases same
      obtain ⟨-, nonempty, starts, -⟩ := longestName_eq_some found
      refine ⟨_, indexes_span after, ?_⟩
      rwa [List.takeWhile_append_dropWhile, append_drop_of_prefix nonempty starts]
    · exact ih later

theorem declared_of_mem_segments {text name index : Text}
    (member : .token name index ∈ segments names text) :
    name ∈ names ∧ ∀ d ∈ index, d.isDigit = true := by
  obtain ⟨rest, indexes, found⟩ := longestName_of_mem_segments member
  exact ⟨(longestName_eq_some found).1, indexes.digits⟩

theorem isToken_of_mem_tokens {text token : Text} (occurs : token ∈ tokens names text) :
    IsToken names token := by
  obtain ⟨name, index, member, rfl⟩ := mem_tokens_iff.mp occurs
  obtain ⟨declared, digits⟩ := declared_of_mem_segments member
  exact ⟨name, declared, index, digits, rfl⟩

section Bracketed

variable (bracketed : ∀ name ∈ names, name.Bracketed)

include bracketed

theorem longestName_of_head {c : Char} {rest : Text} (opens : c ≠ '<') :
    longestName names (c :: rest) = none := by
  rw [longestName_eq_none_iff]
  intro name declared _ starts
  have first := (bracketed name declared).head?_of_starts starts
  exact opens (Option.some.inj first)

theorem longestName_append {name : Text} (declared : name ∈ names) (rest : Text) :
    longestName names (name ++ rest) = some name := by
  have starts : name <+: name ++ rest := List.prefix_append name rest
  cases found : longestName names (name ++ rest) with
  | none =>
    have nonempty := (bracketed name declared).nonempty
    exact absurd starts (longestName_eq_none_iff.mp found name declared nonempty)
  | some other =>
    obtain ⟨alsoDeclared, -, alsoStarts, -⟩ := longestName_eq_some found
    rw [(bracketed name declared).eq_of_starts (bracketed other alsoDeclared) starts alsoStarts]

theorem segments_literal {c : Char} {rest : Text} (opens : c ≠ '<') :
    segments names (c :: rest) = .literal c :: segments names rest := by
  rw [segments, longestName_of_head bracketed opens]

theorem segments_token {name index rest : Text} (declared : name ∈ names)
    (indexes : Indexes index rest) :
    segments names (name ++ (index ++ rest)) = .token name index :: segments names rest := by
  have found := longestName_append bracketed declared (index ++ rest)
  cases name with
  | nil => exact absurd rfl (bracketed [] declared).nonempty
  | cons c tail =>
    obtain ⟨taken, dropped⟩ := indexes.span_eq
    rw [List.cons_append] at found ⊢
    rw [segments, found]
    simp [taken, dropped]

theorem tokens_eq_nil_of_plain {text : Text} (plain : text.Plain) :
    tokens names text = [] := by
  induction text with
  | nil => simp [tokens, segments]
  | cons c rest ih =>
    simp only [Text.Plain, List.mem_cons, not_or] at plain
    rw [tokens, segments_literal bracketed (Ne.symm plain.1.1)]
    exact ih ⟨plain.1.2, plain.2.2⟩

end Bracketed

/-- How the segments of a text follow one another if they can be read off again: brackets belong to
tokens, and after a token stands a character that does not belong to its index. -/
inductive WellCut (names : List Text) : List Segment → Prop
  | nil : WellCut names []
  | literal {c : Char} {rest : List Segment} (plain : c ≠ '<' ∧ c ≠ '>')
      (onward : WellCut names rest) : WellCut names (.literal c :: rest)
  | last {name index : Text} (declared : name ∈ names) (digits : ∀ d ∈ index, d.isDigit = true) :
      WellCut names [.token name index]
  | token {name index : Text} {c : Char} {rest : List Segment} (declared : name ∈ names)
      (digits : ∀ d ∈ index, d.isDigit = true) (ends : c.isDigit = false)
      (onward : WellCut names (.literal c :: rest)) :
      WellCut names (.token name index :: .literal c :: rest)

/-- Brackets occur in a side only as parts of tokens, and no token directly follows another. -/
structure Legible (names : List Text) (side : Text) : Prop where
  enclosed : ∀ segment ∈ segments names side, segment.token? = none → segment.text.Plain
  separated : ∀ pair ∈ (segments names side).zip (segments names side).tail,
    pair.1.token? = none ∨ pair.2.token? = none

instance (names : List Text) (side : Text) : Decidable (Legible names side) :=
  decidable_of_iff (_ ∧ _) ⟨fun parts => ⟨parts.1, parts.2⟩, fun whole => ⟨whole.1, whole.2⟩⟩

theorem head?_of_segments {text : Text} {c : Char} {rest : List Segment}
    (cut : segments names text = .literal c :: rest) : text.head? = some c := by
  have written := flatMap_text_segments names text
  rw [cut] at written
  rw [← written]
  rfl

theorem mem_neighbours_cons {first : Segment} {rest : List Segment} {pair : Segment × Segment}
    (member : pair ∈ rest.zip rest.tail) : pair ∈ (first :: rest).zip (first :: rest).tail := by
  cases rest with
  | nil => cases member
  | cons second rest => exact List.mem_cons_of_mem _ member

theorem Legible.wellCut {side : Text} (legible : Legible names side) :
    WellCut names (segments names side) := by
  obtain ⟨enclosed, separated⟩ := legible
  fun_induction segments names side with
  | case1 => exact .nil
  | case2 c rest _ ih =>
    have plain : Text.Plain [c] := enclosed (.literal c) List.mem_cons_self rfl
    refine .literal ?_ (ih ?_ ?_)
    · simpa [Text.Plain, eq_comm] using plain
    · intro segment member
      exact enclosed segment (List.mem_cons_of_mem _ member)
    · intro pair member
      exact separated pair (mem_neighbours_cons member)
  | case3 c rest name found after ih =>
    have declared := (longestName_eq_some found).1
    have indexes := indexes_span after
    have onward : WellCut names (segments names (after.dropWhile Char.isDigit)) := by
      refine ih ?_ ?_
      · intro segment member
        exact enclosed segment (List.mem_cons_of_mem _ member)
      · intro pair member
        exact separated pair (mem_neighbours_cons member)
    cases cut : segments names (after.dropWhile Char.isDigit) with
    | nil => exact .last declared indexes.digits
    | cons segment others =>
      rw [cut] at onward separated
      cases segment with
      | literal d =>
        exact .token declared indexes.digits (indexes.ends d (head?_of_segments cut)) onward
      | token other index =>
        have either := separated _ List.mem_cons_self
        simp [Segment.token?] at either

section Bracketed

variable (bracketed : ∀ name ∈ names, name.Bracketed)

include bracketed

/-- Segments that are well cut can be read off the text that they make up. -/
theorem WellCut.segments_eq {cut : List Segment} (wellCut : WellCut names cut) :
    segments names (cut.flatMap Segment.text) = cut := by
  induction wellCut with
  | nil => simp [segments]
  | literal plain _ ih =>
    rw [List.flatMap_cons, Segment.text, List.singleton_append, segments_literal bracketed plain.1,
      ih]
  | @last name index declared digits =>
    have read : segments names (name ++ (index ++ [])) = [.token name index] := by
      rw [segments_token bracketed declared ⟨digits, by simp⟩, segments]
    simpa [Segment.text] using read
  | token declared digits ends _ ih =>
    rw [List.flatMap_cons, Segment.text, List.append_assoc,
      segments_token bracketed declared ⟨digits, ?_⟩, ih]
    intro d first
    cases first
    exact ends

end Bracketed

end Token

end SyncGrammar
