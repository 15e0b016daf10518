namespace SyncGrammar

/-- A text, as the list of its characters. The order on texts is the lexicographic one by code
point, which is also the order of their UTF-8 encodings. -/
abbrev Text := List Char

namespace Text

def byteLength : Text → Nat
  | [] => 0
  | c :: rest => c.utf8Size + byteLength rest

@[simp] theorem byteLength_nil : byteLength [] = 0 := rfl

@[simp] theorem byteLength_cons (c : Char) (text : Text) :
    byteLength (c :: text) = c.utf8Size + byteLength text := rfl

@[simp] theorem byteLength_append (a b : Text) :
    byteLength (a ++ b) = byteLength a + byteLength b := by
  induction a with
  | nil => simp
  | cons c rest ih => simp [ih, Nat.add_assoc]

theorem byteLength_le_flatMap {α : Type} {elements : List α} {element : α} (write : α → Text)
    (member : element ∈ elements) :
    byteLength (write element) ≤ byteLength (elements.flatMap write) := by
  obtain ⟨before, after, rfl⟩ := List.append_of_mem member
  rw [List.flatMap_append, List.flatMap_cons, byteLength_append, byteLength_append]
  omega

def insertSorted (text : Text) : List Text → List Text
  | [] => [text]
  | first :: rest =>
    if text < first then text :: first :: rest
    else if text = first then first :: rest
    else first :: insertSorted text rest

def sortedDistinct : List Text → List Text
  | [] => []
  | text :: rest => insertSorted text (sortedDistinct rest)

theorem mem_insertSorted {text other : Text} {texts : List Text} :
    other ∈ insertSorted text texts ↔ other = text ∨ other ∈ texts := by
  fun_induction insertSorted text texts with
  | case1 => simp
  | case2 => simp
  | case3 => simp
  | case4 first rest _ _ ih => simp only [List.mem_cons, ih, or_left_comm]

theorem mem_sortedDistinct {text : Text} {texts : List Text} :
    text ∈ sortedDistinct texts ↔ text ∈ texts := by
  induction texts with
  | nil => simp [sortedDistinct]
  | cons first rest ih => simp [sortedDistinct, mem_insertSorted, ih]

theorem pairwise_insertSorted (text : Text) {texts : List Text}
    (ascending : texts.Pairwise (· < ·)) : (insertSorted text texts).Pairwise (· < ·) := by
  fun_induction insertSorted text texts with
  | case1 => simp
  | case2 first rest below =>
    refine List.pairwise_cons.mpr ⟨fun other member => ?_, ascending⟩
    rcases List.mem_cons.mp member with rfl | later
    · exact below
    · exact List.lt_trans below ((List.pairwise_cons.mp ascending).1 other later)
  | case3 => exact ascending
  | case4 first rest notBelow notSame ih =>
    have parts := List.pairwise_cons.mp ascending
    refine List.pairwise_cons.mpr ⟨fun other member => ?_, ih parts.2⟩
    rcases mem_insertSorted.mp member with rfl | later
    · rcases Std.lt_trichotomy other first with below | same | above
      · exact absurd below notBelow
      · exact absurd same notSame
      · exact above
    · exact parts.1 other later

theorem pairwise_sortedDistinct (texts : List Text) :
    (sortedDistinct texts).Pairwise (· < ·) := by
  induction texts with
  | nil => exact List.Pairwise.nil
  | cons text rest ih => exact pairwise_insertSorted text ih

def longestBy {α : Type} (key : α → Text) : List α → Option α
  | [] => none
  | element :: rest =>
    match longestBy key rest with
    | none => some element
    | some other => if (key element).length < (key other).length then some other else some element

theorem longestBy_eq_none_iff {α : Type} {key : α → Text} {elements : List α} :
    longestBy key elements = none ↔ elements = [] := by
  fun_cases longestBy key elements with
  | case1 => simp
  | case2 => simp
  | case3 => simp
  | case4 => simp

theorem longestBy_eq_some {α : Type} {key : α → Text} {elements : List α} {longest : α}
    (chosen : longestBy key elements = some longest) :
    ∃ before after, elements = before ++ longest :: after ∧
      (∀ other ∈ before, (key other).length < (key longest).length) ∧
      ∀ other ∈ after, (key other).length ≤ (key longest).length := by
  induction elements generalizing longest with
  | nil => simp [longestBy] at chosen
  | cons element rest ih =>
    cases later : longestBy key rest with
    | none =>
      have last : rest = [] := longestBy_eq_none_iff.mp later
      subst last
      have same : element = longest := by simpa [longestBy] using chosen
      exact ⟨[], [], by simp [same], by simp, by simp⟩
    | some other =>
      obtain ⟨before, after, split, shorter, atMost⟩ := ih later
      by_cases longer : (key element).length < (key other).length
      · have same : other = longest := by simpa [longestBy, later, longer] using chosen
        subst same
        refine ⟨element :: before, after, by simp [split], fun text member => ?_, atMost⟩
        rcases List.mem_cons.mp member with rfl | old
        · exact longer
        · exact shorter text old
      · have same : element = longest := by simpa [longestBy, later, longer] using chosen
        subst same
        refine ⟨[], rest, rfl, by simp, fun text member => ?_⟩
        rw [split] at member
        rcases List.mem_append.mp member with old | new
        · exact Nat.le_trans (Nat.le_of_lt (shorter text old)) (Nat.le_of_not_lt longer)
        · rcases List.mem_cons.mp new with rfl | old
          · exact Nat.le_of_not_lt longer
          · exact Nat.le_trans (atMost text old) (Nat.le_of_not_lt longer)

theorem mem_of_longestBy {α : Type} {key : α → Text} {elements : List α} {longest : α}
    (chosen : longestBy key elements = some longest) : longest ∈ elements := by
  obtain ⟨before, after, split, _, _⟩ := longestBy_eq_some chosen
  simp [split]

theorem length_le_of_longestBy {α : Type} {key : α → Text} {elements : List α} {longest : α}
    (chosen : longestBy key elements = some longest) :
    ∀ other ∈ elements, (key other).length ≤ (key longest).length := by
  obtain ⟨before, after, split, shorter, atMost⟩ := longestBy_eq_some chosen
  intro other member
  rw [split] at member
  rcases List.mem_append.mp member with old | new
  · exact Nat.le_of_lt (shorter other old)
  · rcases List.mem_cons.mp new with rfl | old
    · exact Nat.le_refl _
    · exact atMost other old

def joinWith (separator : Text) : List Text → Text
  | [] => []
  | [text] => text
  | text :: rest => text ++ separator ++ joinWith separator rest

theorem longestBy_of_level {α : Type} {key : α → Text} {elements : List α}
    (level : ∀ element ∈ elements, ∀ other ∈ elements, (key element).length = (key other).length) :
    longestBy key elements = elements.head? := by
  cases elements with
  | nil => rfl
  | cons element rest =>
    rw [longestBy]
    cases later : longestBy key rest with
    | none => rfl
    | some other =>
      have inside := List.mem_cons_of_mem element (mem_of_longestBy later)
      have same := level element List.mem_cons_self other inside
      simp [same]

end Text

end SyncGrammar
