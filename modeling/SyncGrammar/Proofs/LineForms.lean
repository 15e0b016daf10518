import SyncGrammar.Grammar.Reader

namespace SyncGrammar.Notation

def visible (line : Text) : Text :=
  line.takeWhile (· ≠ commentMark)

/-- White space, and a comment behind it unless there is none. -/
def Vacant (text : Text) : Prop :=
  (visible text).Blank

instance (text : Text) : Decidable (Vacant text) :=
  inferInstanceAs (Decidable (visible text).Blank)

def run (mark : Char) (more : Nat) : Text :=
  List.replicate (more + 1) mark

section Runs

/-! Runs of marks at the ends of a text. -/

variable {mark : Char} {text : Text}

theorem dropWhile_run (more : Nat) (rest : Text) :
    (run mark more ++ rest).dropWhile (· = mark) = rest.dropWhile (· = mark) :=
  List.dropWhile_append_of_pos fun _ member => decide_eq_true (List.eq_of_mem_replicate member)

theorem dropWhile_of_head (opens : text.head? ≠ some mark) :
    text.dropWhile (· = mark) = text := by
  cases text with
  | nil => rfl
  | cons c rest =>
    have stop : c ≠ mark := by simpa using opens
    simp [stop]

theorem head?_dropWhile (mark : Char) (text : Text) :
    (text.dropWhile (· = mark)).head? ≠ some mark := by
  intro first
  have stop := List.head?_dropWhile_not (fun c => decide (c = mark)) text
  rw [first] at stop
  simp at stop

theorem head?_append_ne {rest : Text} (opens : text.head? ≠ some mark)
    (next : rest.head? ≠ some mark) : (text ++ rest).head? ≠ some mark := by
  intro first
  rw [List.head?_append, Option.or_eq_some_iff] at first
  rcases first with inText | ⟨-, inRest⟩
  · exact opens inText
  · exact next inRest

theorem getLast?_append_ne {rest : Text} (closes : text.getLast? ≠ some mark)
    (ends : rest.getLast? ≠ some mark) : (text ++ rest).getLast? ≠ some mark := by
  intro last
  rw [List.getLast?_append, Option.or_eq_some_iff] at last
  rcases last with inRest | ⟨-, inText⟩
  · exact ends inRest
  · exact closes inText

theorem exists_leading (mark : Char) (text : Text) :
    ∃ more, text = List.replicate more mark ++ text.dropWhile (· = mark) := by
  refine ⟨(text.takeWhile (· = mark)).length, ?_⟩
  have marks : text.takeWhile (· = mark) =
      List.replicate (text.takeWhile (· = mark)).length mark := by
    refine List.eq_replicate_of_mem fun c member => ?_
    exact of_decide_eq_true (List.all_eq_true.mp List.all_takeWhile c member)
  rw [← marks, List.takeWhile_append_dropWhile]

theorem exists_trailing (text : Text) :
    ∃ more, text = dropTrailingMarks text ++ List.replicate more headingMark := by
  obtain ⟨more, split⟩ := exists_leading headingMark text.reverse
  refine ⟨more, ?_⟩
  have turned := congrArg List.reverse split
  simpa [dropTrailingMarks] using turned

theorem head?_of_startsWith {part : Text} (starts : part <+: text)
    (opens : text.head? ≠ some mark) : part.head? ≠ some mark := by
  obtain ⟨rest, rfl⟩ := starts
  intro first
  apply opens
  rw [List.head?_append, first]
  rfl

theorem getLast?_dropTrailingMarks (text : Text) :
    (dropTrailingMarks text).getLast? ≠ some headingMark := by
  rw [dropTrailingMarks, List.getLast?_reverse]
  exact head?_dropWhile headingMark text.reverse

theorem exists_runs (between : Text) :
    ∃ opening inner closing, headingMark :: between ++ [headingMark] =
        run headingMark opening ++ inner ++ run headingMark closing ∧
      inner.head? ≠ some headingMark ∧ inner.getLast? ≠ some headingMark := by
  -- The outer marks are set aside, so neither run is empty in a line of marks alone.
  obtain ⟨opening, first⟩ := exists_leading headingMark between
  obtain ⟨closing, last⟩ := exists_trailing (between.dropWhile (· = headingMark))
  have opens := head?_of_startsWith ⟨_, last.symm⟩ (head?_dropWhile headingMark between)
  refine ⟨opening, _, closing, ?_, opens, getLast?_dropTrailingMarks _⟩
  have split := first.trans (congrArg (List.replicate opening headingMark ++ ·) last)
  have whole := congrArg (headingMark :: · ++ [headingMark]) split
  simpa [run, List.replicate_succ, ← List.replicate_succ'] using whole

theorem dropTrailingMarks_append_run (closes : text.getLast? ≠ some headingMark) (more : Nat) :
    dropTrailingMarks (text ++ run headingMark more) = text := by
  have turned : (text ++ run headingMark more).reverse = run headingMark more ++ text.reverse := by
    simp [run]
  have stops : text.reverse.head? ≠ some headingMark := by
    rwa [List.head?_reverse]
  rw [dropTrailingMarks, turned, dropWhile_run, dropWhile_of_head stops, List.reverse_reverse]

end Runs

section Surroundings

/-! White space and comments around a line. -/

theorem differs_of_not_mem {mark : Char} {text : Text} (absent : mark ∉ text) :
    ∀ c ∈ text, decide (c ≠ mark) = true := by
  intro c member
  have different : c ≠ mark := fun same => absent (same ▸ member)
  exact decide_eq_true different

theorem visible_append {text : Text} (uncommented : commentMark ∉ text) (rest : Text) :
    visible (text ++ rest) = text ++ visible rest :=
  List.takeWhile_append_of_pos (differs_of_not_mem uncommented)

theorem visible_append_of_mem {text : Text} (commented : commentMark ∈ text) (rest : Text) :
    visible (text ++ rest) = visible text := by
  induction text with
  | nil => cases commented
  | cons c text ih =>
    by_cases mark : c = commentMark
    · simp [visible, mark]
    · have later : commentMark ∈ text := by simpa [Ne.symm mark] using commented
      simpa [visible, mark] using ih later

theorem uncommented_visible (line : Text) : commentMark ∉ visible line := by
  intro member
  have kept := List.all_eq_true.mp List.all_takeWhile _ member
  simp at kept

theorem visible_of_uncommented {text : Text} (uncommented : commentMark ∉ text) :
    visible text = text := by
  simpa [visible] using visible_append uncommented []

theorem content_of_uncommented {line : Text} (uncommented : commentMark ∉ line) :
    content line = line.trim :=
  congrArg Text.trim (visible_of_uncommented uncommented)

theorem uncommented_of_blank {text : Text} (blank : text.Blank) : commentMark ∉ text :=
  blank.not_mem (by decide)

theorem Vacant.head?_ne {text : Text} (vacant : Vacant text) {mark : Char}
    (inked : Unicode.isBlank mark = false) (other : mark ≠ commentMark) :
    text.head? ≠ some mark := by
  intro first
  obtain ⟨rest, rfl⟩ := List.head?_eq_some_iff.mp first
  have member : mark ∈ visible (mark :: rest) := by simp [visible, other]
  exact vacant.not_mem inked member

theorem vacant_of_blank {text : Text} (blank : text.Blank) : Vacant text := by
  rw [Vacant, visible_of_uncommented (uncommented_of_blank blank)]
  exact blank

theorem content_prepend {lead : Text} (blank : lead.Blank) (line : Text) :
    content (lead ++ line) = content line := by
  have cut := visible_append (uncommented_of_blank blank) line
  exact (congrArg Text.trim cut).trans (Text.trim_prepend blank _)

theorem content_append {tail : Text} (line : Text) (vacant : Vacant tail) :
    content (line ++ tail) = content line := by
  by_cases commented : commentMark ∈ line
  · exact congrArg Text.trim (visible_append_of_mem commented tail)
  · have cut : visible (line ++ tail) = visible line ++ visible tail := by
      rw [visible_append commented, visible_of_uncommented commented]
    exact (congrArg Text.trim cut).trans (Text.trim_append _ vacant)

theorem read_prepend {lead : Text} (blank : lead.Blank) (line : Text) :
    Line.read (lead ++ line) = Line.read line := by
  rw [Line.read, content_prepend blank, Line.read]

theorem read_append {tail : Text} (line : Text) (vacant : Vacant tail) :
    Line.read (line ++ tail) = Line.read line := by
  rw [Line.read, content_append line vacant, Line.read]

theorem read_vacant {line : Text} (vacant : Vacant line) : Line.read line = .nothing :=
  read_append [] vacant

theorem visible_comment (line : Text) : visible (line.dropWhile (· ≠ commentMark)) = [] := by
  induction line with
  | nil => rfl
  | cons c line ih =>
    by_cases mark : c = commentMark
    · simp [visible, mark]
    · simpa [mark] using ih

theorem exists_surroundings (line : Text) :
    ∃ lead tail : Text, lead.Blank ∧ Vacant tail ∧ line = lead ++ (content line ++ tail) := by
  obtain ⟨lead, trail, blankLead, blankTrail, split⟩ := Text.exists_append_trim (visible line)
  let comment : Text := line.dropWhile (· ≠ commentMark)
  refine ⟨lead, trail ++ comment, blankLead, ?_, ?_⟩
  · rw [Vacant, visible_append (uncommented_of_blank blankTrail), visible_comment, List.append_nil]
    exact blankTrail
  · calc
      line = visible line ++ comment := List.takeWhile_append_dropWhile.symm
      _ = lead ++ ((visible line).trim ++ trail) ++ comment := congrArg (· ++ comment) split
      _ = lead ++ (content line ++ (trail ++ comment)) := by simp [content, visible]

end Surroundings

section Headings

/-! Headings. -/

/-- A line with a run of marks on each side of a text that no mark stands next to. -/
structure HeadingLine where
  lead : Text
  /-- The marks of the run, without the first. -/
  opening : Nat
  inner : Text
  closing : Nat
  tail : Text
  blank : lead.Blank
  uncommented : commentMark ∉ inner
  opens : inner.head? ≠ some headingMark
  closes : inner.getLast? ≠ some headingMark
  vacant : Vacant tail

namespace HeadingLine

def marked (line : HeadingLine) : Text :=
  run headingMark line.opening ++ line.inner ++ run headingMark line.closing

def text (line : HeadingLine) : Text :=
  line.lead ++ (line.marked ++ line.tail)

theorem marked_enclosed (line : HeadingLine) :
    line.marked = headingMark ::
      (List.replicate line.opening headingMark ++ line.inner ++
        List.replicate line.closing headingMark) ++ [headingMark] := by
  simp [marked, run, List.replicate_succ, ← List.replicate_succ']

theorem content_text (line : HeadingLine) : content line.text = line.marked := by
  have uncommented : commentMark ∉ line.marked := by
    have other : commentMark ≠ headingMark := by decide
    simp [marked, run, other, line.uncommented]
  have trimmed : line.marked.Trimmed := by
    rw [marked_enclosed]
    exact Text.trimmed_enclosed _ (by decide) (by decide)
  rw [text, content_prepend line.blank, content_append _ line.vacant,
    content_of_uncommented uncommented, Text.trim_of_trimmed trimmed]

theorem inner_of_marked (line : HeadingLine) :
    dropTrailingMarks (line.marked.dropWhile (· = headingMark)) = line.inner := by
  rw [marked, List.append_assoc, dropWhile_run]
  cases inner : line.inner with
  | nil =>
    have all : (run headingMark line.closing ++ []).dropWhile (· = headingMark) = [] :=
      dropWhile_run line.closing []
    rw [List.append_nil] at all
    rw [List.nil_append, all]
    rfl
  | cons c rest =>
    have opens : (c :: rest ++ run headingMark line.closing).head? ≠ some headingMark := by
      simpa [inner] using line.opens
    rw [dropWhile_of_head opens]
    exact dropTrailingMarks_append_run (inner ▸ line.closes) line.closing

theorem headingTitle?_marked (line : HeadingLine) :
    headingTitle? line.marked = some line.inner.trim := by
  have first : line.marked.head? = some headingMark := by
    rw [marked_enclosed]
    rfl
  have last : line.marked.getLast? = some headingMark := by
    rw [marked_enclosed, List.getLast?_concat]
  have long : 2 ≤ line.marked.length := by
    simp only [marked, run, List.length_append, List.length_replicate]
    omega
  rw [headingTitle?, if_pos ⟨first, last, long⟩, inner_of_marked]

theorem read_text (line : HeadingLine) : Line.read line.text = .heading line.inner.trim := by
  simp only [Line.read, content_text, headingTitle?_marked]

end HeadingLine

theorem enclosed_of_headingTitle? {text title : Text} (heading : headingTitle? text = some title) :
    ∃ between, text = headingMark :: between ++ [headingMark] := by
  unfold headingTitle? at heading
  split at heading
  · rename_i marked
    obtain ⟨first, last, long⟩ := marked
    obtain ⟨rest, rfl⟩ := List.head?_eq_some_iff.mp first
    have more : rest ≠ [] := by
      rintro rfl
      simp at long
    rw [List.getLast?_cons_of_ne_nil more] at last
    obtain ⟨between, rfl⟩ := List.getLast?_eq_some_iff.mp last
    exact ⟨between, rfl⟩
  · cases heading

/-- These are the lines that are read as headings. -/
theorem read_eq_heading_iff {line title : Text} :
    Line.read line = .heading title ↔
      ∃ heading : HeadingLine, heading.text = line ∧ heading.inner.trim = title := by
  constructor
  · intro read
    have heading : headingTitle? (content line) = some title := by
      unfold Line.read at read
      grind
    obtain ⟨lead, tail, blank, vacant, split⟩ := exists_surroundings line
    obtain ⟨between, enclosed⟩ := enclosed_of_headingTitle? heading
    obtain ⟨opening, inner, closing, runs, opens, closes⟩ := exists_runs between
    have marked : content line = run headingMark opening ++ inner ++ run headingMark closing :=
      enclosed.trans runs
    have uncommented : commentMark ∉ inner := by
      intro member
      have inContent : commentMark ∈ content line := by simp [marked, member]
      exact uncommented_visible line ((Text.infix_trim _).subset inContent)
    let found : HeadingLine :=
      ⟨lead, opening, inner, closing, tail, blank, uncommented, opens, closes, vacant⟩
    have same : found.text = line := by
      rw [split, marked]
      rfl
    refine ⟨found, same, ?_⟩
    have again := found.read_text
    rw [same, read] at again
    exact Line.heading.inj again.symm
  · rintro ⟨heading, rfl, rfl⟩
    exact heading.read_text

end Headings

section Items

/-! Items. -/

structure ItemLine where
  lead : Text
  /-- The marks of the run, without the first. -/
  bullets : Nat
  body : Text
  blank : lead.Blank
  opens : body.head? ≠ some itemMark

namespace ItemLine

def text (line : ItemLine) : Text :=
  line.lead ++ (run itemMark line.bullets ++ line.body)

theorem content_text (line : ItemLine) :
    content line.text = run itemMark line.bullets ++ (visible line.body).trimEnd := by
  have uncommented : commentMark ∉ run itemMark line.bullets := by
    have other : commentMark ≠ itemMark := by decide
    simp [run, other]
  have first : Text.trimStart (run itemMark line.bullets ++ visible line.body) =
      run itemMark line.bullets ++ visible line.body := rfl
  have last : run itemMark line.bullets ++ visible line.body =
      List.replicate line.bullets itemMark ++ itemMark :: visible line.body := by
    simp [run, List.replicate_succ']
  have cut : visible (run itemMark line.bullets ++ line.body) =
      run itemMark line.bullets ++ visible line.body := visible_append uncommented _
  rw [text, content_prepend line.blank]
  refine (congrArg Text.trim cut).trans ?_
  rw [Text.trim, first, last, Text.trimEnd_append_inked _ _ (by decide)]
  simp [run, List.replicate_succ']

theorem itemContent?_text (line : ItemLine) :
    itemContent? (content line.text) = some (content line.body) := by
  obtain ⟨trail, -, split⟩ := Text.exists_trimEnd_append (visible line.body)
  have starts : (visible line.body).trimEnd <+: line.body :=
    (List.prefix_iff_exists_append_eq.mpr ⟨trail, split.symm⟩).trans (List.takeWhile_prefix _)
  have opens : (visible line.body).trimEnd.head? ≠ some itemMark :=
    head?_of_startsWith starts line.opens
  rw [itemContent?, content_text, dropWhile_run, dropWhile_of_head opens, Text.trimStart_trimEnd]
  exact if_pos rfl

theorem headingTitle?_text (line : ItemLine) : headingTitle? (content line.text) = none := by
  rw [content_text]
  rfl

/-- What is read from an item is told by its body. -/
theorem read_text (line : ItemLine) :
    Line.read line.text =
      match sides? (content line.body) with
      | some (left, right) => .item left right
      | none => .nothing := by
  cases sides : sides? (content line.body) with
  | none => simp only [Line.read, headingTitle?_text, itemContent?_text, Option.bind_some, sides]
  | some both =>
    simp only [Line.read, headingTitle?_text, itemContent?_text, Option.bind_some, sides]

end ItemLine

theorem head?_content_iff {line : Text} :
    (content line).head? = some itemMark ↔ ∃ item : ItemLine, item.text = line := by
  constructor
  · intro first
    obtain ⟨lead, tail, blank, vacant, split⟩ := exists_surroundings line
    obtain ⟨rest, starts⟩ := List.head?_eq_some_iff.mp first
    obtain ⟨bullets, marks⟩ := exists_leading itemMark rest
    have opens : (rest.dropWhile (· = itemMark) ++ tail).head? ≠ some itemMark :=
      head?_append_ne (head?_dropWhile itemMark rest) (vacant.head?_ne (by decide) (by decide))
    refine ⟨⟨lead, bullets, rest.dropWhile (· = itemMark) ++ tail, blank, opens⟩, ?_⟩
    have runs : content line = run itemMark bullets ++ rest.dropWhile (· = itemMark) :=
      starts.trans (congrArg (itemMark :: ·) marks)
    rw [split, runs]
    simp [ItemLine.text]
  · rintro ⟨item, rfl⟩
    rw [item.content_text]
    rfl

theorem sides?_separated {left right : Text} (unseparated : separator ∉ left) :
    sides? (left ++ separator :: right) = some (left.trim, right.trim) := by
  rw [sides?, List.dropWhile_append_of_pos (differs_of_not_mem unseparated),
    List.takeWhile_append_of_pos (differs_of_not_mem unseparated)]
  simp

/-- An item whose sides are separated: the first slash stands in front of the comment. -/
structure SeparatedItem extends ItemLine where
  left : Text
  right : Text
  split : body = left ++ separator :: right
  unseparated : separator ∉ left
  uncommented : commentMark ∉ left

namespace SeparatedItem

theorem content_body (line : SeparatedItem) :
    content line.body = line.left.trimStart ++ separator :: (visible line.right).trimEnd := by
  have uncommented : commentMark ∉ line.left ++ [separator] := by
    have other : commentMark ≠ separator := by decide
    simp [other, line.uncommented]
  have cut : visible line.body = line.left ++ separator :: visible line.right := by
    have front := visible_append uncommented line.right
    rw [line.split]
    simpa using front
  refine (congrArg Text.trim cut).trans ?_
  rw [Text.trim, Text.trimStart_append_inked _ _ (by decide),
    Text.trimEnd_append_inked _ _ (by decide)]

theorem read_text (line : SeparatedItem) :
    Line.read line.text = .item line.left.trim (content line.right) := by
  have unseparated : separator ∉ line.left.trimStart := fun member =>
    line.unseparated ((List.dropWhile_sublist _).subset member)
  rw [line.toItemLine.read_text, line.content_body, sides?_separated unseparated,
    Text.trim_trimStart, Text.trim_trimEnd]
  rfl

end SeparatedItem

theorem separator_mem_of_sides? {text : Text} {sides : Text × Text}
    (found : sides? text = some sides) : separator ∈ text := by
  refine Decidable.byContradiction fun unseparated => ?_
  have nothing : (text ++ []).dropWhile (· ≠ separator) = [] :=
    List.dropWhile_append_of_pos (differs_of_not_mem unseparated)
  rw [List.append_nil] at nothing
  rw [sides?, nothing] at found
  cases found

theorem exists_sides_of_read {line left right : Text} (read : Line.read line = .item left right) :
    ∃ text, itemContent? (content line) = some text ∧ sides? text = some (left, right) := by
  rw [← Option.bind_eq_some_iff]
  unfold Line.read at read
  grind

theorem ItemLine.uncommented_of_separator {line : ItemLine} {left right : Text}
    (split : line.body = left ++ separator :: right) (unseparated : separator ∉ left)
    (seen : separator ∈ visible line.body) : commentMark ∉ left := by
  intro commented
  rw [split, visible_append_of_mem commented] at seen
  exact unseparated ((List.takeWhile_sublist _).subset seen)

theorem read_eq_item_iff {line left right : Text} :
    Line.read line = .item left right ↔
      ∃ item : SeparatedItem, item.text = line ∧ item.left.trim = left ∧
        content item.right = right := by
  constructor
  · intro read
    obtain ⟨text, inside, sides⟩ := exists_sides_of_read read
    have bullet : (content line).head? = some itemMark := by
      unfold itemContent? at inside
      split at inside
      · assumption
      · cases inside
    obtain ⟨item, rfl⟩ := head?_content_iff.mp bullet
    rw [item.itemContent?_text, Option.some.injEq] at inside
    have inContent : separator ∈ content item.body := inside ▸ separator_mem_of_sides? sides
    have seen : separator ∈ visible item.body := (Text.infix_trim _).subset inContent
    obtain ⟨before, after, split, unseparated⟩ :=
      List.eq_append_cons_of_mem ((List.takeWhile_sublist _).subset seen)
    have uncommented := ItemLine.uncommented_of_separator split unseparated seen
    let found : SeparatedItem := ⟨item, before, after, split, unseparated, uncommented⟩
    have again : Line.read item.text = .item (Text.trim before) (content after) :=
      found.read_text
    rw [read] at again
    obtain ⟨sameLeft, sameRight⟩ := Line.item.inj again
    exact ⟨found, rfl, sameLeft.symm, sameRight.symm⟩
  · rintro ⟨item, rfl, rfl, rfl⟩
    exact item.read_text

end Items

end SyncGrammar.Notation
