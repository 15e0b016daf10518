import SyncGrammar.Text

/-!
Variable tokens inside a text. A token is a declared name followed by a run of ASCII digits, its
index, which may be empty. A text is cut into tokens and single characters from left to right; at
each place the longest declared name wins, and its index takes all the digits that follow.
-/
namespace SyncGrammar

namespace Token

/-- The longest of `names` with which `text` starts. The empty name never counts. -/
def longestName (names : List Text) (text : Text) : Option Text :=
  Text.longestBy id (names.filter fun name => !name.isEmpty && name.isPrefixOf text)

theorem longestName_eq_none_iff {names : List Text} {text : Text} :
    longestName names text = none ↔ ∀ name ∈ names, name ≠ [] → ¬ name <+: text := by
  simp [longestName, Text.longestBy_eq_none_iff]

theorem longestName_eq_some {names : List Text} {text name : Text}
    (found : longestName names text = some name) :
    name ∈ names ∧ name ≠ [] ∧ name <+: text ∧
      ∀ other ∈ names, other <+: text → other.length ≤ name.length := by
  have member := List.mem_filter.mp (Text.mem_of_longestBy found)
  have longest := Text.length_le_of_longestBy found
  refine ⟨member.1, by simpa using And.left (Bool.and_eq_true_iff.mp member.2),
    by simpa using And.right (Bool.and_eq_true_iff.mp member.2), fun other declared starts => ?_⟩
  cases other with
  | nil => exact Nat.zero_le _
  | cons c rest => exact longest _ (List.mem_filter.mpr ⟨declared, by simpa using starts⟩)

/-- A piece of a text: one character that belongs to no token, or a token. -/
inductive Segment
  | literal (c : Char)
  | token (name index : Text)
  deriving DecidableEq, Repr

namespace Segment

def text : Segment → Text
  | literal c => [c]
  | token name index => name ++ index

def token? : Segment → Option Text
  | literal _ => none
  | token name index => some (name ++ index)

end Segment

theorem length_dropWhile_le (p : Char → Bool) (text : Text) :
    (text.dropWhile p).length ≤ text.length :=
  (List.dropWhile_sublist p).length_le

def segments (names : List Text) : Text → List Segment
  | [] => []
  | c :: rest =>
    match longestName names (c :: rest) with
    | none => .literal c :: segments names rest
    | some name =>
      let after := rest.drop (name.length - 1)
      .token name (after.takeWhile Char.isDigit) ::
        segments names (after.dropWhile Char.isDigit)
termination_by text => text.length
decreasing_by
  · simp
  · have := length_dropWhile_le Char.isDigit (rest.drop (name.length - 1))
    simp only [List.length_drop, List.length_cons] at this ⊢
    omega

theorem append_drop_of_prefix {name : Text} {c : Char} {rest : Text} (nonempty : name ≠ [])
    (starts : name <+: c :: rest) : name ++ rest.drop (name.length - 1) = c :: rest := by
  cases name with
  | nil => exact absurd rfl nonempty
  | cons first tail =>
    obtain ⟨after, split⟩ := starts
    obtain ⟨rfl, rfl⟩ := List.cons.inj split
    simp

theorem flatMap_text_segments (names : List Text) (text : Text) :
    (segments names text).flatMap Segment.text = text := by
  fun_induction segments names text with
  | case1 => rfl
  | case2 c rest _ ih => simp [Segment.text, ih]
  | case3 c rest name found after ih =>
    have split := longestName_eq_some found
    simp only [List.flatMap_cons, Segment.text, ih, List.append_assoc,
      List.takeWhile_append_dropWhile]
    exact append_drop_of_prefix split.2.1 split.2.2.1

def tokens (names : List Text) (text : Text) : List Text :=
  (segments names text).filterMap Segment.token?

theorem filterMap_map_literal (before : Text) :
    (before.map Segment.literal).filterMap Segment.token? = [] := by
  simp [Segment.token?]

theorem segments_of_unnamed {names : List Text} {text : Text}
    (unnamed : ∀ name ∈ names, name ≠ [] → ¬ name <:+: text) :
    segments names text = text.map .literal := by
  fun_induction segments names text with
  | case1 => rfl
  | case2 c rest _ ih =>
    have onward := ih fun name declared nonempty inside =>
      unnamed name declared nonempty (List.infix_cons inside)
    rw [onward, List.map_cons]
  | case3 c rest name found after ih =>
    obtain ⟨declared, nonempty, starts, -⟩ := longestName_eq_some found
    exact absurd starts.isInfix (unnamed name declared nonempty)

theorem tokens_eq_nil_of_unnamed {names : List Text} {text : Text}
    (unnamed : ∀ name ∈ names, name ≠ [] → ¬ name <:+: text) : tokens names text = [] := by
  rw [tokens, segments_of_unnamed unnamed, filterMap_map_literal]

def onlyTokens (names : List Text) (text : Text) : Bool :=
  (segments names text).all (·.token?.isSome)

/-- A token at its place in a text. The places are byte offsets in UTF-8. -/
structure Span where
  start : Nat
  name : Text
  index : Text
  deriving DecidableEq, Repr

namespace Span

def token (span : Span) : Text :=
  span.name ++ span.index

def finish (span : Span) : Nat :=
  span.start + span.token.byteLength

def nameLength (span : Span) : Nat :=
  span.name.byteLength

def isIndexed (span : Span) : Bool :=
  !span.index.isEmpty

end Span

def spansFrom (offset : Nat) : List Segment → List Span
  | [] => []
  | .literal c :: rest => spansFrom (offset + c.utf8Size) rest
  | .token name index :: rest =>
    ⟨offset, name, index⟩ :: spansFrom (offset + (name ++ index).byteLength) rest

def scan (names : List Text) (text : Text) : List Span :=
  spansFrom 0 (segments names text)

def stripIndex (token : Text) : Text :=
  (token.reverse.dropWhile Char.isDigit).reverse

end Token

end SyncGrammar
