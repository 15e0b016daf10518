import SyncGrammar.Unicode.Blank

namespace SyncGrammar.Text

def trimStart (text : Text) : Text :=
  text.dropWhile Unicode.isBlank

def trimEnd (text : Text) : Text :=
  (text.reverse.dropWhile Unicode.isBlank).reverse

def trim (text : Text) : Text :=
  trimEnd (trimStart text)

theorem trim_startsWith (text : Text) : trim text <+: trimStart text :=
  List.reverse_suffix.mp (by simpa [trim, trimEnd] using List.dropWhile_suffix _)

theorem infix_trim (text : Text) : trim text <:+: text :=
  (trim_startsWith text).isInfix.trans (List.dropWhile_suffix _).isInfix

def Blank (text : Text) : Prop :=
  ∀ c ∈ text, Unicode.isBlank c = true

instance (text : Text) : Decidable text.Blank :=
  List.decidableBAll _ _

def Trimmed (text : Text) : Prop :=
  (∀ c ∈ text.head?, Unicode.isBlank c = false) ∧ ∀ c ∈ text.getLast?, Unicode.isBlank c = false

-- Named instances, because there is also one that goes through all characters.
instance (text : Text) : Decidable text.Trimmed :=
  @instDecidableAnd _ _ (Option.decidableForallMem _) (Option.decidableForallMem _)

theorem trimmed_enclosed {first last : Char} (text : Text) (opens : Unicode.isBlank first = false)
    (closes : Unicode.isBlank last = false) : Trimmed (first :: text ++ [last]) := by
  constructor
  · intro c isFirst
    cases isFirst
    exact opens
  · intro c isLast
    rw [List.getLast?_concat] at isLast
    cases isLast
    exact closes

theorem head?_trimStart (text : Text) :
    ∀ c ∈ (trimStart text).head?, Unicode.isBlank c = false := by
  intro c first
  have stop := List.head?_dropWhile_not Unicode.isBlank text
  rw [trimStart] at first
  rw [first] at stop
  simpa using stop

theorem trimmed_trim (text : Text) : (trim text).Trimmed := by
  constructor
  · intro c first
    obtain ⟨rest, split⟩ := trim_startsWith text
    apply head?_trimStart text c
    rw [← split, List.head?_append, first]
    rfl
  · intro c last
    apply head?_trimStart (trimStart text).reverse c
    simpa [trim, trimEnd, trimStart, List.getLast?_reverse] using last

theorem trimStart_append {lead : Text} (text : Text)
    (blank : ∀ c ∈ lead, Unicode.isBlank c = true) : trimStart (lead ++ text) = trimStart text := by
  rw [trimStart, List.dropWhile_append_of_pos blank, trimStart]

theorem trimStart_of_blank {text : Text} (blank : text.Blank) : trimStart text = [] := by
  simpa [trimStart] using trimStart_append [] blank

theorem trimStart_of_head {text : Text} (inked : ∀ c ∈ text.head?, Unicode.isBlank c = false) :
    trimStart text = text := by
  cases text with
  | nil => rfl
  | cons c rest => simp [trimStart, inked c rfl]

theorem trimStart_trimStart (text : Text) : trimStart (trimStart text) = trimStart text :=
  trimStart_of_head (head?_trimStart text)

theorem trim_trimStart (text : Text) : trim (trimStart text) = trim text := by
  rw [trim, trimStart_trimStart, trim]

theorem trimStart_append_inked {c : Char} (text rest : Text) (inked : Unicode.isBlank c = false) :
    trimStart (text ++ c :: rest) = trimStart text ++ c :: rest := by
  rw [trimStart, List.dropWhile_append, trimStart]
  cases text.dropWhile Unicode.isBlank with
  | nil => simp [inked]
  | cons first others => simp

theorem trimEnd_append_inked {c : Char} (text rest : Text) (inked : Unicode.isBlank c = false) :
    trimEnd (text ++ c :: rest) = text ++ c :: trimEnd rest := by
  have turned : (text ++ c :: rest).reverse = rest.reverse ++ c :: text.reverse := by simp
  have kept : (rest.reverse ++ c :: text.reverse).dropWhile Unicode.isBlank =
      rest.reverse.dropWhile Unicode.isBlank ++ c :: text.reverse :=
    trimStart_append_inked _ _ inked
  rw [trimEnd, turned, kept, trimEnd]
  simp

theorem Blank.not_mem {text : Text} (blank : text.Blank) {c : Char}
    (inked : Unicode.isBlank c = false) : c ∉ text := by
  intro member
  have blankToo := blank c member
  rw [inked] at blankToo
  cases blankToo

theorem trim_prepend {lead : Text} (blank : lead.Blank) (text : Text) :
    trim (lead ++ text) = trim text := by
  rw [trim, trimStart_append text blank, trim]

theorem trimEnd_append_blank {trail : Text} (text : Text) (blank : trail.Blank) :
    trimEnd (text ++ trail) = trimEnd text := by
  have turned : Blank trail.reverse := by
    intro c member
    exact blank c (List.mem_reverse.mp member)
  rw [trimEnd, List.reverse_append, List.dropWhile_append_of_pos turned, trimEnd]

theorem trim_append {trail : Text} (text : Text) (blank : trail.Blank) :
    trim (text ++ trail) = trim text := by
  rw [trim, trimStart, List.dropWhile_append]
  split
  · rename_i gone
    have nothing : trimStart text = [] := List.isEmpty_iff.mp gone
    have also : List.dropWhile Unicode.isBlank trail = [] := trimStart_of_blank blank
    rw [also, trim, nothing]
  · exact trimEnd_append_blank _ blank

theorem trim_of_trimmed {text : Text} (trimmed : text.Trimmed) : trim text = text := by
  have turned : trimStart text.reverse = text.reverse := by
    apply trimStart_of_head
    simpa [List.head?_reverse] using trimmed.2
  rw [trim, trimStart_of_head trimmed.1]
  exact (congrArg List.reverse turned).trans text.reverse_reverse

theorem trim_padded {lead text trail : Text} (before : lead.Blank) (trimmed : text.Trimmed)
    (after : trail.Blank) : trim (lead ++ (text ++ trail)) = text := by
  rw [trim_prepend before, trim_append text after, trim_of_trimmed trimmed]

theorem exists_append_trimStart (text : Text) :
    ∃ lead : Text, lead.Blank ∧ text = lead ++ trimStart text :=
  ⟨text.takeWhile Unicode.isBlank, List.all_eq_true.mp List.all_takeWhile,
    List.takeWhile_append_dropWhile.symm⟩

theorem exists_trimEnd_append (text : Text) :
    ∃ trail : Text, trail.Blank ∧ text = trimEnd text ++ trail := by
  obtain ⟨lead, blank, split⟩ := exists_append_trimStart text.reverse
  refine ⟨lead.reverse, fun c member => blank c (List.mem_reverse.mp member), ?_⟩
  rw [trimEnd, ← List.reverse_append]
  exact List.reverse_eq_iff.mp split

theorem exists_append_trim (text : Text) :
    ∃ lead trail : Text, lead.Blank ∧ trail.Blank ∧ text = lead ++ (trim text ++ trail) := by
  obtain ⟨lead, blankLead, first⟩ := exists_append_trimStart text
  obtain ⟨trail, blankTrail, second⟩ := exists_trimEnd_append (trimStart text)
  exact ⟨lead, trail, blankLead, blankTrail, first.trans (congrArg (lead ++ ·) second)⟩

theorem trim_trimEnd (text : Text) : trim (trimEnd text) = trim text := by
  obtain ⟨trail, blank, split⟩ := exists_trimEnd_append text
  calc
    trim (trimEnd text) = trim (trimEnd text ++ trail) := (trim_append _ blank).symm
    _ = trim text := congrArg trim split.symm

theorem trimStart_trimEnd (text : Text) : trimStart (trimEnd text) = trim text := by
  obtain ⟨lead, blank, split⟩ := exists_append_trimStart text
  cases inked : trimStart text with
  | nil =>
    rw [inked, List.append_nil] at split
    have nothing : trimEnd text = [] := by
      simpa [trimEnd] using trimEnd_append_blank [] (split ▸ blank)
    rw [nothing, trim, inked]
    rfl
  | cons c rest =>
    have first : Unicode.isBlank c = false := head?_trimStart text c (inked ▸ rfl)
    have stays (more : Text) : trimStart (c :: more) = c :: more :=
      trimStart_of_head (by simpa using first)
    have whole : text = lead ++ c :: rest := split.trans (congrArg (lead ++ ·) inked)
    calc
      trimStart (trimEnd text) = trimStart (lead ++ c :: trimEnd rest) := by
        rw [whole, trimEnd_append_inked lead rest first]
      _ = c :: trimEnd rest := by rw [trimStart_append _ blank, stays]
      _ = trimEnd (c :: rest) := (trimEnd_append_inked [] rest first).symm
      _ = trim text := by rw [trim, inked]

end SyncGrammar.Text
