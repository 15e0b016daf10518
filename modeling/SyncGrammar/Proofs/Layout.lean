import Mathlib.Logic.Relation
import SyncGrammar.Proofs.LineForms
import SyncGrammar.Proofs.Rereading

/-!
The layout of a grammar's text. Lines of white space and comments, white space and comments around
other lines, the kind of line ends, the lengths of the runs of marks and the white space next to
them or around the separator of an item make no difference to the reader.
-/
namespace SyncGrammar

section LineEdits

/-! Changes of the layout inside of a line. -/

namespace Notation

theorem head?_ne_of_blank {text : Text} (blank : text.Blank) {mark : Char}
    (inked : Unicode.isBlank mark = false) : text.head? ≠ some mark :=
  fun first => blank.not_mem inked (List.mem_of_head? first)

theorem getLast?_ne_of_blank {text : Text} (blank : text.Blank) {mark : Char}
    (inked : Unicode.isBlank mark = false) : text.getLast? ≠ some mark :=
  fun last => blank.not_mem inked (List.mem_of_getLast? last)

variable {before after : Text}

def HeadingLine.lengthened (line : HeadingLine) (opening closing : Nat) : HeadingLine :=
  { line with opening := line.opening + opening, closing := line.closing + closing }

def HeadingLine.spaced (line : HeadingLine) (blankBefore : before.Blank)
    (blankAfter : after.Blank) : HeadingLine where
  lead := line.lead
  opening := line.opening
  inner := before ++ line.inner ++ after
  closing := line.closing
  tail := line.tail
  blank := line.blank
  uncommented := by
    have lead := uncommented_of_blank blankBefore
    have trail := uncommented_of_blank blankAfter
    simp [lead, trail, line.uncommented]
  opens := by
    have first := head?_append_ne (head?_ne_of_blank blankBefore (by decide)) line.opens
    exact head?_append_ne first (head?_ne_of_blank blankAfter (by decide))
  closes := by
    have last := getLast?_append_ne (getLast?_ne_of_blank blankBefore (by decide)) line.closes
    exact getLast?_append_ne last (getLast?_ne_of_blank blankAfter (by decide))
  vacant := line.vacant

def ItemLine.lengthened (line : ItemLine) (bullets : Nat) : ItemLine :=
  { line with bullets := line.bullets + bullets }

def ItemLine.spaced (line : ItemLine) (blank : before.Blank) : ItemLine where
  lead := line.lead
  bullets := line.bullets
  body := before ++ line.body
  blank := line.blank
  opens := head?_append_ne (head?_ne_of_blank blank (by decide)) line.opens

theorem SeparatedItem.head?_left (line : SeparatedItem) : line.left.head? ≠ some itemMark :=
  head?_of_startsWith (List.prefix_iff_exists_append_eq.mpr ⟨_, line.split.symm⟩) line.opens

def SeparatedItem.spread (line : SeparatedItem) (blankBefore : before.Blank) (after : Text) :
    SeparatedItem where
  lead := line.lead
  bullets := line.bullets
  body := line.left ++ before ++ separator :: (after ++ line.right)
  blank := line.blank
  opens := by
    have first := head?_append_ne line.head?_left (head?_ne_of_blank blankBefore (by decide))
    exact head?_append_ne first (by simp [separator, itemMark])
  left := line.left ++ before
  right := after ++ line.right
  split := rfl
  unseparated := by
    have outside : separator ∉ before := blankBefore.not_mem (by decide)
    simp [outside, line.unseparated]
  uncommented := by
    have outside := uncommented_of_blank blankBefore
    simp [outside, line.uncommented]

/-- One change inside of a line. The lines with runs of marks are all that are read as headings,
by `read_eq_heading_iff`, all that start with a bullet, by `head?_content_iff`, and all that are
read as items with two sides, by `read_eq_item_iff`. -/
inductive LineEdit : Text → Text → Prop
  | lead (added line : Text) (blank : added.Blank) : LineEdit line (added ++ line)
  | tail (line added : Text) (vacant : Vacant added) : LineEdit line (line ++ added)
  | headingRuns (line : HeadingLine) (opening closing : Nat) :
    LineEdit line.text (line.lengthened opening closing).text
  | headingSpaces {before after : Text} (line : HeadingLine) (blankBefore : before.Blank)
    (blankAfter : after.Blank) : LineEdit line.text (line.spaced blankBefore blankAfter).text
  | itemRun (line : ItemLine) (bullets : Nat) :
    LineEdit line.text (line.lengthened bullets).text
  | itemSpaces {added : Text} (line : ItemLine) (blank : added.Blank) :
    LineEdit line.text (line.spaced blank).text
  | separatorSpaces {before after : Text} (line : SeparatedItem) (blankBefore : before.Blank)
    (blankAfter : after.Blank) : LineEdit line.text (line.spread blankBefore after).text

theorem LineEdit.read_eq {line edited : Text} (edit : LineEdit line edited) :
    Line.read edited = Line.read line := by
  cases edit with
  | lead added line blank => exact read_prepend blank line
  | tail line added vacant => exact read_append line vacant
  | headingRuns line opening closing =>
    rw [line.read_text]
    exact (line.lengthened opening closing).read_text
  | headingSpaces line blankBefore blankAfter =>
    have sameTitle :=
      (Text.trim_append _ blankAfter).trans (Text.trim_prepend blankBefore line.inner)
    rw [HeadingLine.read_text, line.read_text]
    exact congrArg Line.heading sameTitle
  | itemRun line bullets =>
    rw [line.read_text]
    exact (line.lengthened bullets).read_text
  | itemSpaces line blank =>
    have sameBody : content (line.spaced blank).body = content line.body := content_prepend blank _
    rw [ItemLine.read_text, line.read_text, sameBody]
  | separatorSpaces line blankBefore blankAfter =>
    have sameLeft := Text.trim_append line.left blankBefore
    have sameRight := content_prepend blankAfter line.right
    rw [SeparatedItem.read_text, line.read_text]
    exact congrArg₂ Line.item sameLeft sameRight

end Notation

end LineEdits

section Frames

/-! A line among the others. -/

def Text.StartsLine (before : Text) : Prop :=
  before = [] ∨ ∃ front, before = front ++ ['\n']

def Text.EndsLine (after : Text) : Prop :=
  after = [] ∨ ∃ rest, after = '\n' :: rest ∨ after = '\r' :: '\n' :: rest

theorem Text.exists_lastLine (text : Text) :
    ∃ before line : Text, text = before ++ line ∧ before.StartsLine ∧ '\n' ∉ line := by
  by_cases oneLine : '\n' ∈ text.reverse
  · obtain ⟨line, before, split, last⟩ := List.eq_append_cons_of_mem oneLine
    refine ⟨before.reverse ++ ['\n'], line.reverse, ?_, .inr ⟨_, rfl⟩, by simpa using last⟩
    have turned := congrArg List.reverse split
    simpa using turned
  · exact ⟨[], text, rfl, .inl rfl, by simpa using oneLine⟩

namespace GrammarReader

variable {before line after : Text}

theorem readText_vacant (reader : GrammarReader) (oneLine : '\n' ∉ line)
    (vacant : Notation.Vacant line) : reader.readText line = reader := by
  rw [readText_of_line reader oneLine, Notation.read_vacant vacant]
  rfl

theorem readText_append (reader : GrammarReader) (starts : before.StartsLine) (text : Text) :
    reader.readText (before ++ text) = (reader.readText before).readText text := by
  obtain rfl | ⟨front, rfl⟩ := starts
  · rfl
  · have whole := reader.readText_append_newline front text
    have alone := reader.readText_append_newline front []
    rw [List.append_assoc, alone]
    exact whole

theorem readText_line_append (reader : GrammarReader) (oneLine : '\n' ∉ line)
    (ends : after.EndsLine) :
    reader.readText (line ++ after) = (reader.readText line).readText after := by
  obtain rfl | ⟨rest, rfl | rfl⟩ := ends
  · rw [List.append_nil]
    rfl
  · rw [readText_append_newline]
    rfl
  · have blank : Text.Blank ['\r'] := by decide
    have returned : '\n' ∉ line ++ ['\r'] := by simp [oneLine]
    have same := Notation.read_append line (Notation.vacant_of_blank blank)
    have whole := reader.readText_append_newline (line ++ ['\r']) rest
    have alone := (reader.readText line).readText_append_newline ['\r'] rest
    rw [readText_of_line reader returned, same, ← readText_of_line reader oneLine] at whole
    rw [readText_vacant _ (by decide) (Notation.vacant_of_blank blank)] at alone
    have joined : line ++ '\r' :: '\n' :: rest = line ++ ['\r'] ++ '\n' :: rest := by simp
    rw [joined, whole]
    exact alone.symm

end GrammarReader

end Frames

open Notation in
inductive LayoutEdit : Text → Text → Prop
  | insideLine {before line edited after : Text} (starts : before.StartsLine)
    (oneLine : '\n' ∉ line) (ends : after.EndsLine) (edit : LineEdit line edited)
    (stillOne : '\n' ∉ edited) : LayoutEdit (before ++ line ++ after) (before ++ edited ++ after)
  | newLine {before : Text} (starts : before.StartsLine) (line after : Text)
    (oneLine : '\n' ∉ line) (vacant : Vacant line) :
    LayoutEdit (before ++ after) (before ++ line ++ '\n' :: after)
  | lastLine (text line : Text) (oneLine : '\n' ∉ line) (vacant : Vacant line) :
    LayoutEdit text (text ++ '\n' :: line)
  | carriageReturn (before after : Text) :
    LayoutEdit (before ++ '\n' :: after) (before ++ '\r' :: '\n' :: after)

namespace GrammarReader

theorem readText_insideLine (reader : GrammarReader) {before line edited after : Text}
    (starts : before.StartsLine) (oneLine : '\n' ∉ line) (ends : after.EndsLine)
    (edit : Notation.LineEdit line edited) (stillOne : '\n' ∉ edited) :
    reader.readText (before ++ edited ++ after) = reader.readText (before ++ line ++ after) := by
  have framed {middle : Text} (single : '\n' ∉ middle) :
      reader.readText (before ++ middle ++ after) =
        ((reader.readText before).readLines [Notation.Line.read middle]).readText after := by
    rw [List.append_assoc, readText_append reader starts, readText_line_append _ single ends,
      readText_of_line _ single]
  rw [framed stillOne, framed oneLine, edit.read_eq]

theorem readText_layoutEdit (reader : GrammarReader) {text relaid : Text}
    (edit : LayoutEdit text relaid) : reader.readText relaid = reader.readText text := by
  cases edit with
  | insideLine starts oneLine ends edit stillOne =>
    exact reader.readText_insideLine starts oneLine ends edit stillOne
  | newLine starts line after oneLine vacant =>
    rw [List.append_assoc, readText_append reader starts, readText_append_newline,
      readText_vacant _ oneLine vacant, readText_append reader starts]
  | lastLine text line oneLine vacant =>
    rw [readText_append_newline, readText_vacant _ oneLine vacant]
  | carriageReturn before after =>
    -- The carriage return counts as white space at the end of the line in front of it.
    obtain ⟨front, line, rfl, starts, oneLine⟩ := before.exists_lastLine
    have blank : Text.Blank ['\r'] := by decide
    have returned : '\n' ∉ line ++ ['\r'] := by simp [oneLine]
    have edit := Notation.LineEdit.tail line ['\r'] (Notation.vacant_of_blank blank)
    have ends : Text.EndsLine ('\n' :: after) := .inr ⟨after, .inl rfl⟩
    have same := reader.readText_insideLine starts oneLine ends edit returned
    simpa using same

end GrammarReader

namespace Grammar

/-- However often the layout of a text is changed, the same grammar is read from it, or the same
error comes of it. -/
theorem read_insensitive_to_layout {text relaid : Text}
    (edits : Relation.ReflTransGen LayoutEdit text relaid) :
    Grammar.read relaid = Grammar.read text := by
  induction edits with
  | refl => rfl
  | tail _ edit ih =>
    have same := GrammarReader.empty.readText_layoutEdit edit
    exact (congrArg (fun reader => reader.builder.build) same).trans ih

def tightHeading : Notation.HeadingLine :=
  ⟨[], 1, ['r'], 1, [], by decide, by decide, by decide, by decide, by decide⟩

def tightItem : Notation.SeparatedItem :=
  ⟨⟨[], 0, ['a', '/', 'b'], by decide, by decide⟩, ['a'], ['b'], rfl, by decide, by decide⟩

def tight : Text :=
  "==r==\n*a/b".toList

def airy : Text :=
  "#\n\t=== r ==== #\r\n** a / b\n".toList

open Notation in
theorem airy_of_tight : Relation.ReflTransGen LayoutEdit tight airy := by
  let separated := (tightItem.spread blank_space [' ']).toItemLine
  have second : Text.StartsLine "==r==\n".toList := .inr ⟨"==r==".toList, rfl⟩
  have separator : LayoutEdit tight "==r==\n*a / b".toList :=
    .insideLine second (by decide) (.inl rfl)
      (.separatorSpaces tightItem blank_space blank_space) (by decide)
  have spaces : LayoutEdit "==r==\n*a / b".toList "==r==\n* a / b".toList :=
    .insideLine second (by decide) (.inl rfl) (.itemSpaces separated blank_space) (by decide)
  have bullets : LayoutEdit "==r==\n* a / b".toList "==r==\n** a / b".toList :=
    .insideLine second (by decide) (.inl rfl) (.itemRun (separated.spaced blank_space) 1)
      (by decide)
  have marks : LayoutEdit "==r==\n** a / b".toList "===r====\n** a / b".toList :=
    .insideLine (.inl rfl) (by decide) (.inr ⟨_, .inl rfl⟩) (.headingRuns tightHeading 1 2)
      (by decide)
  have title : LayoutEdit "===r====\n** a / b".toList "=== r ====\n** a / b".toList :=
    .insideLine (.inl rfl) (by decide) (.inr ⟨_, .inl rfl⟩)
      (.headingSpaces (tightHeading.lengthened 1 2) blank_space blank_space) (by decide)
  have lead : LayoutEdit "=== r ====\n** a / b".toList "\t=== r ====\n** a / b".toList :=
    .insideLine (.inl rfl) (by decide) (.inr ⟨_, .inl rfl⟩)
      (.lead ['\t'] "=== r ====".toList (by decide)) (by decide)
  have remark : LayoutEdit "\t=== r ====\n** a / b".toList "\t=== r ==== #\n** a / b".toList :=
    .insideLine (.inl rfl) (by decide) (.inr ⟨_, .inl rfl⟩)
      (.tail "\t=== r ====".toList " #".toList (by decide)) (by decide)
  have returned : LayoutEdit "\t=== r ==== #\n** a / b".toList
      "\t=== r ==== #\r\n** a / b".toList :=
    .carriageReturn "\t=== r ==== #".toList "** a / b".toList
  have header : LayoutEdit "\t=== r ==== #\r\n** a / b".toList
      "#\n\t=== r ==== #\r\n** a / b".toList :=
    .newLine (.inl rfl) "#".toList _ (by decide) (by decide)
  have last : LayoutEdit "#\n\t=== r ==== #\r\n** a / b".toList airy :=
    .lastLine _ [] (by decide) (by decide)
  exact (Relation.ReflTransGen.single separator).tail spaces |>.tail bullets |>.tail marks
    |>.tail title |>.tail lead |>.tail remark |>.tail returned |>.tail header |>.tail last

theorem read_insensitive_to_layout_airy :
    Relation.ReflTransGen LayoutEdit tight airy ∧ Grammar.read airy = Grammar.read tight ∧
      Grammar.read tight =
        .ok ⟨"r".toList, .ofList [("r".toList, .ofList [⟨"a".toList, "b".toList⟩])], ∅⟩ :=
  ⟨airy_of_tight, read_insensitive_to_layout airy_of_tight, by decide +kernel⟩

end Grammar

end SyncGrammar
