import SyncGrammar.Grammar.Printer
import SyncGrammar.Proofs.LineForms

namespace SyncGrammar.Notation

structure Writable (text : Text) : Prop where
  trimmed : text.Trimmed
  oneLine : '\n' ∉ text
  uncommented : commentMark ∉ text

instance (text : Text) : Decidable (Writable text) :=
  decidable_of_iff (text.Trimmed ∧ '\n' ∉ text ∧ commentMark ∉ text)
    ⟨fun ⟨trimmed, oneLine, uncommented⟩ => ⟨trimmed, oneLine, uncommented⟩,
      fun ⟨trimmed, oneLine, uncommented⟩ => ⟨trimmed, oneLine, uncommented⟩⟩

structure WritableSides (left right : Text) : Prop where
  first : Writable left
  unseparated : separator ∉ left
  second : Writable right

instance (left right : Text) : Decidable (WritableSides left right) :=
  decidable_of_iff (Writable left ∧ separator ∉ left ∧ Writable right)
    ⟨fun ⟨first, unseparated, second⟩ => ⟨first, unseparated, second⟩,
      fun ⟨first, unseparated, second⟩ => ⟨first, unseparated, second⟩⟩

section Read

/-! What is read from a line. -/

theorem writable_trim {text part line : Text} (oneLine : '\n' ∉ line)
    (inside : part <:+: content line) (cut : text = part.trim) : Writable text := by
  have visible : content line <:+: line.takeWhile (· ≠ commentMark) := Text.infix_trim _
  have whole : text <:+: line.takeWhile (· ≠ commentMark) :=
    (cut ▸ Text.infix_trim part).trans (inside.trans visible)
  refine ⟨cut ▸ Text.trimmed_trim part, fun member => ?_, fun member => ?_⟩
  · exact oneLine ((List.takeWhile_sublist _).subset (whole.subset member))
  · have kept := List.all_eq_true.mp List.all_takeWhile _ (whole.subset member)
    simp at kept

theorem infix_dropTrailingMarks (text : Text) : dropTrailingMarks text <:+: text :=
  (List.reverse_suffix.mp
    (by simpa [dropTrailingMarks] using List.dropWhile_suffix _)).isInfix

theorem writable_of_headingTitle? {line title : Text} (oneLine : '\n' ∉ line)
    (heading : headingTitle? (content line) = some title) : Writable title := by
  unfold headingTitle? at heading
  split at heading
  · refine writable_trim oneLine ?_ (Option.some.inj heading).symm
    exact (infix_dropTrailingMarks _).trans (List.dropWhile_suffix _).isInfix
  · cases heading

theorem infix_of_itemContent? {line text : Text} (item : itemContent? line = some text) :
    text <:+: line := by
  unfold itemContent? at item
  split at item
  · rw [← Option.some.inj item]
    exact ((List.dropWhile_suffix _).trans (List.dropWhile_suffix _)).isInfix
  · cases item

theorem writableSides_of_sides? {line text left right : Text} (oneLine : '\n' ∉ line)
    (inside : text <:+: content line) (sides : sides? text = some (left, right)) :
    WritableSides left right := by
  unfold sides? at sides
  split at sides
  · cases sides
  · rename_i mark rest found
    simp only [Option.some.injEq, Prod.mk.injEq] at sides
    obtain ⟨rfl, rfl⟩ := sides
    have before : text.takeWhile (· ≠ separator) <:+: text := (List.takeWhile_prefix _).isInfix
    have after : rest <:+: text :=
      ((List.suffix_cons mark rest).trans (found ▸ List.dropWhile_suffix _)).isInfix
    refine ⟨writable_trim oneLine (before.trans inside) rfl, fun member => ?_,
      writable_trim oneLine (after.trans inside) rfl⟩
    have inLeft := (Text.infix_trim _).subset member
    have kept := List.all_eq_true.mp List.all_takeWhile _ inLeft
    simp at kept

def Line.Writable : Line → Prop
  | heading title => Notation.Writable title
  | item left right => WritableSides left right
  | nothing => True

theorem writable_read {line : Text} (oneLine : '\n' ∉ line) : (Line.read line).Writable := by
  unfold Line.read
  dsimp only
  split
  · rename_i title heading
    exact writable_of_headingTitle? oneLine heading
  · split
    · rename_i left right found
      obtain ⟨text, item, sides⟩ := Option.bind_eq_some_iff.mp found
      exact writableSides_of_sides? oneLine (infix_of_itemContent? item) sides
    · trivial

end Read

section Write

/-! What is written on a line. -/

theorem blank_space : Text.Blank [' '] := by
  decide

def headingLine (title : Text) : Text :=
  [headingMark, headingMark, ' '] ++ title ++ [' ', headingMark, headingMark]

theorem read_headingLine {title : Text} (writable : Writable title) :
    Line.read (headingLine title) = .heading title := by
  let line : HeadingLine := {
    lead := []
    opening := 1
    inner := [' '] ++ (title ++ [' '])
    closing := 1
    tail := []
    blank := by decide
    uncommented := by simpa [commentMark] using writable.uncommented
    opens := by simp [headingMark]
    closes := by
      rw [← List.append_assoc, List.getLast?_concat]
      decide
    vacant := by decide }
  have written : line.text = headingLine title := by
    simp [line, HeadingLine.text, HeadingLine.marked, run, headingLine, List.replicate_succ]
  have unpadded : line.inner.trim = title :=
    Text.trim_padded blank_space writable.trimmed blank_space
  rw [← written, line.read_text, unpadded]

def itemLine (left right : Text) : Text :=
  [itemMark, ' '] ++ left ++ [' ', separator, ' '] ++ right

theorem read_itemLine {left right : Text} (sides : WritableSides left right) :
    Line.read (itemLine left right) = .item left right := by
  let line : SeparatedItem := {
    lead := []
    bullets := 0
    body := [' '] ++ (left ++ [' ']) ++ separator :: ([' '] ++ right)
    blank := by decide
    opens := by simp [itemMark]
    left := [' '] ++ (left ++ [' '])
    right := [' '] ++ right
    split := rfl
    unseparated := by simpa [separator] using sides.unseparated
    uncommented := by simpa [commentMark] using sides.first.uncommented }
  have written : line.text = itemLine left right := by
    simp [line, ItemLine.text, run, itemLine]
  have unpadded : line.left.trim = left :=
    Text.trim_padded blank_space sides.first.trimmed blank_space
  have whole : content line.right = right := by
    rw [content_prepend blank_space, content_of_uncommented sides.second.uncommented,
      Text.trim_of_trimmed sides.second.trimmed]
  rw [← written, line.read_text, unpadded, whole]

theorem newline_not_mem_headingLine {title : Text} (writable : Writable title) :
    '\n' ∉ headingLine title := by
  simp [headingLine, headingMark, writable.oneLine]

theorem newline_not_mem_itemLine {left right : Text} (sides : WritableSides left right) :
    '\n' ∉ itemLine left right := by
  simp [itemLine, itemMark, separator, sides.first.oneLine, sides.second.oneLine]

end Write

end SyncGrammar.Notation
