import SyncGrammar.Proofs.Overwriting

namespace SyncGrammar

namespace Text

theorem byteLength_eq_zero_iff {text : Text} : text.byteLength = 0 ↔ text = [] := by
  cases text with
  | nil => simp
  | cons c rest =>
    have positive := Char.utf8Size_pos c
    simp only [byteLength_cons, reduceCtorEq, iff_false]
    omega

theorem exists_append_of_byteLength_le {first rest before after : Text}
    (same : first ++ rest = before ++ after) (reached : first.byteLength ≤ before.byteLength) :
    ∃ more, before = first ++ more ∧ rest = more ++ after := by
  rcases List.append_eq_append_iff.mp same with further | ⟨more, rfl, rfl⟩
  · exact further
  · rw [byteLength_append] at reached
    obtain rfl : more = [] := byteLength_eq_zero_iff.mp (by omega)
    exact ⟨[], by simp, rfl⟩

theorem prefix_of_byteLength_le {first second text : Text} (starts : first <+: text)
    (also : second <+: text) (atMost : first.byteLength ≤ second.byteLength) :
    first <+: second := by
  obtain ⟨rest, split⟩ := starts
  obtain ⟨after, same⟩ := also
  obtain ⟨more, rfl, -⟩ := exists_append_of_byteLength_le (split.trans same.symm) atMost
  exact List.prefix_append first more

end Text

namespace Token

variable {names : List Text} {text : Text} {place : Nat} {spans : List Span}

theorem longestName_eq_some_iff {name : Text} :
    longestName names text = some name ↔ name ∈ names ∧ name ≠ [] ∧ name <+: text ∧
      ∀ other ∈ names, other <+: text → other.byteLength ≤ name.byteLength := by
  constructor
  · intro found
    obtain ⟨declared, nonempty, starts, longest⟩ := longestName_eq_some found
    refine ⟨declared, nonempty, starts, fun other also begins => ?_⟩
    have shorter := List.prefix_of_prefix_length_le begins starts (longest other also begins)
    exact Text.byteLength_le_of_infix shorter.isInfix
  · rintro ⟨declared, nonempty, starts, longest⟩
    cases found : longestName names text with
    | none => exact absurd starts (longestName_eq_none_iff.mp found name declared nonempty)
    | some other =>
      obtain ⟨also, -, begins, longer⟩ := longestName_eq_some found
      have inside := Text.prefix_of_byteLength_le begins starts (longest other also begins)
      have level := Nat.le_antisymm inside.length_le (longer name declared starts)
      exact congrArg some (inside.eq_of_length level)

/-- In front of `after` stands the longest declared name that starts at its place, and behind it
all the digits that follow. -/
structure Span.Munches (names : List Text) (span : Span) (after : Text) : Prop where
  declared : span.name ∈ names
  nonempty : span.name ≠ []
  longest : ∀ other ∈ names, other <+: span.token ++ after → other.byteLength ≤ span.nameLength
  indexes : Indexes span.index after

/-- The tokens of a text, the first character of which stands at `place`. -/
structure Munched (names : List Text) (place : Nat) (text : Text) (spans : List Span) : Prop where
  ordered : spans.Pairwise fun span later =>
    span.start < later.start ∧ span.finish ≤ later.start
  munches : ∀ span ∈ spans, ∃ before after, text = before ++ (span.token ++ after) ∧
    span.start = place + before.byteLength ∧ span.Munches names after
  complete : ∀ before name after, name ∈ names → name ≠ [] → text = before ++ (name ++ after) →
    ∃ span ∈ spans, span.start ≤ place + before.byteLength ∧
      place + before.byteLength < span.finish

theorem Span.munches_iff {span : Span} {after : Text} :
    span.Munches names after ↔
      longestName names (span.token ++ after) = some span.name ∧ Indexes span.index after := by
  have starts : span.name <+: span.token ++ after :=
    (List.prefix_append span.name span.index).trans (List.prefix_append span.token after)
  rw [longestName_eq_some_iff]
  constructor
  · rintro ⟨declared, nonempty, longest, indexes⟩
    exact ⟨⟨declared, nonempty, starts, longest⟩, indexes⟩
  · rintro ⟨⟨declared, nonempty, -, longest⟩, indexes⟩
    exact ⟨declared, nonempty, longest, indexes⟩

theorem Span.Munches.start_lt_finish {span : Span} {after : Text}
    (munches : span.Munches names after) : span.start < span.finish := by
  have filled : span.name.byteLength ≠ 0 :=
    fun nothing => munches.nonempty (Text.byteLength_eq_zero_iff.mp nothing)
  rw [finish, token, Text.byteLength_append]
  omega

theorem munched_nil : Munched names place [] spans ↔ spans = [] := by
  constructor
  · intro munched
    cases spans with
    | nil => rfl
    | cons span later =>
      obtain ⟨before, after, split, -, munches⟩ := munched.munches span List.mem_cons_self
      have nameless : span.name = [] := by simp_all [Span.token]
      exact absurd nameless munches.nonempty
  · rintro rfl
    refine ⟨.nil, fun span member => absurd member List.not_mem_nil, ?_⟩
    intro before name after _ nonempty split
    simp_all

theorem munched_literal {c : Char} {rest : Text} (unnamed : longestName names (c :: rest) = none) :
    Munched names place (c :: rest) spans ↔ Munched names (place + c.utf8Size) rest spans := by
  have none_starts := longestName_eq_none_iff.mp unnamed
  constructor
  · rintro ⟨ordered, munches, complete⟩
    refine ⟨ordered, fun span member => ?_, fun before name after declared nonempty split => ?_⟩
    · obtain ⟨before, after, split, start, munched⟩ := munches span member
      cases before with
      | nil =>
        have begins : span.name <+: c :: rest := by
          rw [split, List.nil_append, Span.token, List.append_assoc]
          exact List.prefix_append span.name _
        exact absurd begins (none_starts _ munched.declared munched.nonempty)
      | cons d before =>
        obtain ⟨rfl, behind⟩ := List.cons.inj split
        exact ⟨before, after, behind, by rw [start, Text.byteLength_cons, Nat.add_assoc], munched⟩
    · have found := complete (c :: before) name after declared nonempty (by rw [split]; rfl)
      rwa [Text.byteLength_cons, ← Nat.add_assoc] at found
  · rintro ⟨ordered, munches, complete⟩
    refine ⟨ordered, fun span member => ?_, fun before name after declared nonempty split => ?_⟩
    · obtain ⟨before, after, split, start, munched⟩ := munches span member
      refine ⟨c :: before, after, by rw [split]; rfl, ?_, munched⟩
      rw [start, Text.byteLength_cons, Nat.add_assoc]
    · cases before with
      | nil =>
        have begins : name <+: c :: rest := split ▸ List.prefix_append name after
        exact absurd begins (none_starts name declared nonempty)
      | cons d before =>
        obtain ⟨rfl, behind⟩ := List.cons.inj split
        rw [Text.byteLength_cons, ← Nat.add_assoc]
        exact complete before name after declared nonempty behind

theorem Munched.behind {name index rest : Text} {later : List Span}
    (munched : Munched names place (name ++ index ++ rest) (⟨place, name, index⟩ :: later)) :
    Munched names (place + (name ++ index).byteLength) rest later := by
  obtain ⟨ordered, munches, complete⟩ := munched
  rw [List.pairwise_cons] at ordered
  refine ⟨ordered.2, fun other inside => ?_, fun before other after declared nonempty split => ?_⟩
  · obtain ⟨before, after, split, start, munched⟩ := munches other (List.mem_cons_of_mem _ inside)
    have behind : place + (name ++ index).byteLength ≤ other.start := (ordered.1 other inside).2
    obtain ⟨more, rfl, same⟩ := Text.exists_append_of_byteLength_le split (by omega)
    exact ⟨more, after, same, by rw [start, Text.byteLength_append, Nat.add_assoc], munched⟩
  · obtain ⟨span, inside, covered, within⟩ := complete (name ++ index ++ before) other after
      declared nonempty (by rw [split, List.append_assoc _ before])
    rw [Text.byteLength_append, ← Nat.add_assoc] at covered within
    rcases List.mem_cons.mp inside with rfl | inside
    · exact absurd within (Nat.not_lt.mpr (Nat.le_add_right _ _))
    · exact ⟨span, inside, covered, within⟩

section Found

variable {name index rest : Text} (indexes : Indexes index rest)
  (found : longestName names (name ++ index ++ rest) = some name)

include indexes found

theorem munches_start : Span.Munches names ⟨place, name, index⟩ rest :=
  Span.munches_iff.mpr ⟨found, indexes⟩

theorem Munched.eq_of_start_le (munched : Munched names place (name ++ index ++ rest) spans)
    {span : Span} (member : span ∈ spans) (reached : span.start ≤ place) :
    span = ⟨place, name, index⟩ := by
  obtain ⟨before, after, split, start, munches⟩ := munched.munches span member
  obtain rfl : before = [] := Text.byteLength_eq_zero_iff.mp (by omega)
  rw [List.nil_append] at split
  obtain ⟨longest, also⟩ := Span.munches_iff.mp munches
  have sameName : span.name = name := by
    rw [← split, found] at longest
    exact (Option.some.inj longest).symm
  have sameIndex : span.index = index := by
    rw [Span.token, sameName, List.append_assoc, List.append_assoc,
      List.append_cancel_left_eq] at split
    rw [← also.span_eq.1, ← split, indexes.span_eq.1]
  cases span
  simp_all

theorem Munched.exists_later (munched : Munched names place (name ++ index ++ rest) spans) :
    ∃ later, spans = ⟨place, name, index⟩ :: later := by
  have own := @munches_start names place name index rest indexes found
  obtain ⟨span, member, reached, -⟩ := munched.complete [] name (index ++ rest) own.declared
    own.nonempty (List.append_assoc name index rest)
  obtain rfl := munched.eq_of_start_le indexes found member reached
  obtain ⟨earlier, later, rfl⟩ := List.append_of_mem member
  -- a token listed earlier would start before the text does
  have first : earlier = [] := by
    refine List.eq_nil_iff_forall_not_mem.mpr fun other inside => ?_
    obtain ⟨before, -, -, start, -⟩ := munched.munches other (List.mem_append_left _ inside)
    have apart := (List.pairwise_append.mp munched.ordered).2.2 other inside _ List.mem_cons_self
    have lower : other.start < place := apart.1
    omega
  exact ⟨later, by rw [first, List.nil_append]⟩

theorem Munched.with_token {later : List Span}
    (munched : Munched names (place + (name ++ index).byteLength) rest later) :
    Munched names place (name ++ index ++ rest) (⟨place, name, index⟩ :: later) := by
  obtain ⟨ordered, munches, complete⟩ := munched
  have own := @munches_start names place name index rest indexes found
  have filled : place < place + (name ++ index).byteLength := own.start_lt_finish
  refine ⟨List.pairwise_cons.mpr ⟨fun other inside => ?_, ordered⟩, ?_, ?_⟩
  · obtain ⟨before, -, -, start, -⟩ := munches other inside
    show place < other.start ∧ place + (name ++ index).byteLength ≤ other.start
    omega
  · intro other inside
    rcases List.mem_cons.mp inside with rfl | inside
    · exact ⟨[], rest, rfl, rfl, own⟩
    · obtain ⟨before, after, split, start, munched⟩ := munches other inside
      refine ⟨name ++ index ++ before, after, by rw [split, List.append_assoc _ before], ?_,
        munched⟩
      rw [start, Text.byteLength_append (name ++ index) before, Nat.add_assoc]
  · intro before other after declared nonempty split
    by_cases inside : before.byteLength < (name ++ index).byteLength
    · exact ⟨_, List.mem_cons_self, Nat.le_add_right _ _, Nat.add_lt_add_left inside place⟩
    · obtain ⟨more, rfl, same⟩ :=
        Text.exists_append_of_byteLength_le split (Nat.le_of_not_lt inside)
      obtain ⟨span, member, covered, within⟩ := complete more other after declared nonempty same
      rw [Text.byteLength_append, ← Nat.add_assoc]
      exact ⟨span, List.mem_cons_of_mem _ member, covered, within⟩

theorem munched_token : Munched names place (name ++ index ++ rest) spans ↔
    ∃ later, spans = ⟨place, name, index⟩ :: later ∧
      Munched names (place + (name ++ index).byteLength) rest later := by
  constructor
  · intro munched
    obtain ⟨later, rfl⟩ := munched.exists_later indexes found
    exact ⟨later, rfl, munched.behind⟩
  · rintro ⟨later, rfl, munched⟩
    exact munched.with_token indexes found

end Found

theorem munched_iff : Munched names place text spans ↔
    spans = spansFrom place (segments names text) := by
  -- the scanner goes on behind a character or behind a token, as the places do
  fun_induction segments names text generalizing place spans with
  | case1 => exact munched_nil
  | case2 c rest unnamed ih =>
    rw [munched_literal unnamed, ih]
    rfl
  | case3 c rest name found after =>
    rename_i ih
    obtain ⟨-, nonempty, starts, -⟩ := longestName_eq_some found
    have split : name ++ after.takeWhile Char.isDigit ++ after.dropWhile Char.isDigit =
        c :: rest := by
      rw [List.append_assoc, List.takeWhile_append_dropWhile]
      exact append_drop_of_prefix nonempty starts
    rw [← split] at found ⊢
    rw [munched_token (indexes_span after) found]
    simp only [ih, exists_eq_right]
    rfl

theorem Munched.congr {others : List Text}
    (same : ∀ name, name ≠ [] → (name ∈ names ↔ name ∈ others))
    (munched : Munched names place text spans) : Munched others place text spans := by
  obtain ⟨ordered, munches, complete⟩ := munched
  refine ⟨ordered, fun span member => ?_, fun before name after declared nonempty split => ?_⟩
  · obtain ⟨before, after, split, start, ⟨declared, nonempty, longest, indexes⟩⟩ :=
      munches span member
    have alsoDeclared := (same span.name nonempty).mp declared
    refine ⟨before, after, split, start, ⟨alsoDeclared, nonempty, ?_, indexes⟩⟩
    intro other also begins
    by_cases empty : other = []
    · rw [empty, Text.byteLength_nil]
      exact Nat.zero_le _
    · exact longest other ((same other empty).mpr also) begins
  · exact complete before name after ((same name nonempty).mpr declared) nonempty split

/-- What scanning finds lies one behind the other, each the longest declared name at its place with
all the digits behind it, and outside of it no declared name starts. No other places are like that,
so that neither the order of the names nor repetitions or an empty one among them matter. -/
theorem scanned_by_maximal_munch (names : List Text) (text : Text) :
    Munched names 0 text (scan names text) ∧
      (∀ spans, Munched names 0 text spans → spans = scan names text) ∧
      ∀ others, (∀ name, name ≠ [] → (name ∈ others ↔ name ∈ names)) →
        scan others text = scan names text := by
  have unique (spans : List Span) (munched : Munched names 0 text spans) :
      spans = scan names text := munched_iff.mp munched
  refine ⟨munched_iff.mpr rfl, unique, fun others same => ?_⟩
  have munched : Munched others 0 text (scan others text) := munched_iff.mpr rfl
  exact unique _ (munched.congr same)

def overlapping : List Text :=
  ["x".toList, "".toList, "xy".toList, "é".toList, "x1".toList, "xy".toList]

theorem scanned_by_maximal_munch_overlapping :
    scan overlapping "éxy2 x17zx1".toList =
      [⟨0, "é".toList, []⟩, ⟨2, "xy".toList, "2".toList⟩, ⟨6, "x1".toList, "7".toList⟩,
        ⟨10, "x1".toList, []⟩] ∧
    scan ["xy".toList, "x1".toList, "é".toList, "x".toList] "éxy2 x17zx1".toList =
      scan overlapping "éxy2 x17zx1".toList ∧
    ¬ Munched overlapping 0 "éxy2 x17zx1".toList [⟨0, "é".toList, []⟩, ⟨2, "x".toList, []⟩] := by
  obtain ⟨-, unique, unordered⟩ := scanned_by_maximal_munch overlapping "éxy2 x17zx1".toList
  refine ⟨by decide +kernel, unordered _ ?_, fun munched => ?_⟩
  · have listed : ["xy".toList, "x1".toList, "é".toList, "x".toList] ⊆ overlapping := by
      decide +kernel
    have filled : overlapping.filter (· ≠ []) ⊆
        ["xy".toList, "x1".toList, "é".toList, "x".toList] := by
      decide +kernel
    exact fun name nonempty => ⟨@listed name, fun declared =>
      filled (List.mem_filter.mpr ⟨declared, by simpa using nonempty⟩)⟩
  · exact absurd (unique _ munched) (by decide +kernel)

end Token

end SyncGrammar
