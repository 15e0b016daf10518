import SyncGrammar.Text

namespace SyncGrammar.Text

/-- The lines of a text, between line feeds. Behind the last line feed stands one more line, which
may be empty. -/
def lines : Text → List Text
  | [] => [[]]
  | c :: rest =>
    if c = '\n' then [] :: lines rest
    else
      match lines rest with
      | [] => [[c]]
      | first :: others => (c :: first) :: others

theorem lines_ne_nil (text : Text) : lines text ≠ [] := by
  fun_cases lines text with
  | case1 => simp
  | case2 => simp
  | case3 => simp
  | case4 => simp

theorem joinWith_lines (text : Text) : joinWith ['\n'] (lines text) = text := by
  fun_induction lines text with
  | case1 => rfl
  | case2 rest ih =>
    cases later : lines rest with
    | nil => exact absurd later (lines_ne_nil rest)
    | cons first others => simpa [joinWith, later] using ih
  | case3 c rest _ none => exact absurd none (lines_ne_nil rest)
  | case4 c rest _ first others found ih =>
    cases others with
    | nil => simpa [joinWith, found] using ih
    | cons second others => simpa [joinWith, found] using ih

theorem newline_not_mem_of_mem_lines {text line : Text} (member : line ∈ lines text) :
    '\n' ∉ line := by
  fun_induction lines text generalizing line with
  | case1 => simp_all
  | case2 rest ih =>
    rcases List.mem_cons.mp member with rfl | later
    · simp
    · exact ih later
  | case3 c rest other _ =>
    have same : line = [c] := by simpa using member
    subst same
    simpa using Ne.symm other
  | case4 c rest other first others found ih =>
    rcases List.mem_cons.mp member with rfl | later
    · have old : '\n' ∉ first := ih (found ▸ List.mem_cons_self)
      simp [old, Ne.symm other]
    · exact ih (found ▸ List.mem_cons_of_mem _ later)

theorem lines_eq_singleton {line : Text} (oneLine : '\n' ∉ line) : lines line = [line] := by
  induction line with
  | nil => rfl
  | cons c line ih =>
    rw [List.mem_cons, not_or] at oneLine
    simp [lines, Ne.symm oneLine.1, ih oneLine.2]

theorem lines_append_newline (before after : Text) :
    lines (before ++ '\n' :: after) = lines before ++ lines after := by
  fun_induction lines before with
  | case1 => simp [lines]
  | case2 rest ih => simpa [lines] using ih
  | case3 c rest _ none => exact absurd none (lines_ne_nil rest)
  | case4 c rest other first others found ih => simp [lines, other, ih, found]

end SyncGrammar.Text
