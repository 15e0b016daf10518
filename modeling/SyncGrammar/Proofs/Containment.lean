import SyncGrammar.Proofs.Splicing

namespace SyncGrammar.Regex

variable {state : ReaderState} {written expression rest : Text} {set : Char → Bool}

/-- An expression that stands for one character of a set: the set in brackets, an escape, or a
character that stands for itself. -/
structure IsClass (written : Text) (set : Char → Bool) : Prop where
  single : ∀ c ∈ written.head?, c ∉ ['|', '?', '*', '+', '(', ')']
  read : ∃ cls : CharClass, set = cls.contains ∧ ∀ state rest, state.flags = {} →
    readAtom state (written ++ rest) = some (.char cls, rest)

def oneOrMore (set : CharClass) : Regex :=
  .loop (.char set) 1 none true

theorem Fills.mono {fits less : Regex → Prop} (fills : Fills fits expression)
    (implies : ∀ body, fits body → less body) : Fills less expression := by
  intro inside after index clear opened readable
  obtain ⟨last, leads, filled⟩ := fills inside after index clear opened readable
  exact ⟨last, leads, { filled with body := implies _ filled.body }⟩

theorem fills_of_readStep {piece : Regex} {fits : Regex → Prop} (some : piece ≠ .empty)
    (own : piece.numbers = []) (fit : fits piece)
    (step : ∀ state rest, state.flags = {} →
      skip {} (expression ++ ')' :: rest) = .some (expression ++ ')' :: rest) ∧
        readStep state (expression ++ ')' :: rest) = .some (state.push piece, ')' :: rest)) :
    Fills fits expression := by
  intro inside after index clear opened _
  obtain ⟨skips, reads⟩ := step inside after clear
  have leads : LeadsTo (inside, expression ++ ')' :: after) (inside.push piece, ')' :: after) :=
    leadsTo_of_readStep (by simp) (by rw [clear, skips]) reads
  have current : (inside.push piece).current = ⟨.capture index, none, [], [piece]⟩ := by
    rw [ReaderState.push, opened, Frame.push, if_neg some]
    rfl
  have body : (inside.push piece).current.body = piece := by
    rw [current]
    rfl
  exact ⟨_, leads, clear, by rw [current, opened]; rfl, by rw [current], rfl, by rwa [body],
    Nat.le_refl _, by simp [body, own], [], rfl, by simp⟩

theorem IsClass.exists_cons (isClass : IsClass written set) :
    ∃ c more, written = c :: more ∧ c ≠ '|' ∧ c ≠ '?' ∧ c ≠ '*' ∧ c ≠ '+' ∧ c ≠ '(' ∧ c ≠ ')' := by
  cases written with
  | nil =>
    obtain ⟨cls, -, read⟩ := isClass.read
    cases read .start [] rfl
  | cons c more => exact ⟨c, more, rfl, by simpa using isClass.single c rfl⟩

theorem IsClass.exists_readStep (isClass : IsClass written set) :
    ∃ cls : CharClass, set = cls.contains ∧ ∀ state rest, state.flags = {} →
      skip {} (written ++ rest) = some (written ++ rest) ∧
        readStep state (written ++ rest) = readPiece state (.char cls) rest := by
  obtain ⟨c, more, rfl, noBar, noMark, noStar, noPlus, noOpening, noClosing⟩ :=
    isClass.exists_cons
  obtain ⟨cls, same, read⟩ := isClass.read
  refine ⟨cls, same, fun state rest clear => ?_⟩
  have atom := read state rest clear
  rw [List.cons_append] at atom ⊢
  refine ⟨skip_eq_self rfl (by simp [List.isPrefixOf, noOpening.symm]), ?_⟩
  simp [readStep, *]

theorem IsClass.fills_oneOrMore (isClass : IsClass written set) :
    Fills (fun body => ∃ cls : CharClass, set = cls.contains ∧ body = oneOrMore cls)
      (written ++ ['+']) := by
  obtain ⟨cls, same, step⟩ := isClass.exists_readStep
  refine fills_of_readStep (by simp [oneOrMore]) rfl ⟨cls, same, rfl⟩ fun state rest clear => ?_
  obtain ⟨skips, reads⟩ := step state ('+' :: ')' :: rest) clear
  rw [List.append_assoc, List.singleton_append]
  refine ⟨skips, reads.trans ?_⟩
  rw [readPiece, clear]
  rfl

theorem IsClass.staysInside (isClass : IsClass written set) : StaysInside written := by
  obtain ⟨cls, -, step⟩ := isClass.exists_readStep
  refine fills_of_readStep (fun same => Regex.noConfusion same) (rfl : (char cls).numbers = [])
    trivial fun state rest clear => ?_
  obtain ⟨skips, reads⟩ := step state (')' :: rest) clear
  refine ⟨skips, reads.trans ?_⟩
  rw [readPiece, clear]
  rfl

theorem IsClass.staysInside_oneOrMore (isClass : IsClass written set) :
    StaysInside (written ++ ['+']) :=
  isClass.fills_oneOrMore.mono fun _ _ => trivial

theorem IsClass.leadsTo_opening (isClass : IsClass written set) (clear : state.flags = {})
    (rest : Text) :
    LeadsTo (state, '(' :: (written ++ rest)) (state.openCapture, written ++ rest) := by
  obtain ⟨cls, -, step⟩ := isClass.exists_readStep
  obtain ⟨c, more, rfl, -, noMark, -⟩ := isClass.exists_cons
  have skips := (step state rest clear).1
  rw [List.cons_append] at skips ⊢
  have opens : readStep state ('(' :: c :: (more ++ rest)) =
      readOpening state (c :: (more ++ rest)) := by
    simp [readStep, clear, skips, noMark]
  have group : readOpening state (c :: (more ++ rest)) =
      if ReaderState.maxDepth ≤ state.enclosing.length then none
      else some (state.openCapture, c :: (more ++ rest)) := by
    simp [readOpening, noMark]
  have apart : ['(', '?', '#'].isPrefixOf ('(' :: c :: (more ++ rest)) = false := by
    simp [List.isPrefixOf, noMark.symm]
  refine leadsTo_of_forall_readStep (List.cons_ne_nil _ _) (skip_eq_self (by rw [clear]) apart)
    fun place opening => ?_
  rw [opens, group] at opening
  split at opening
  · cases opening
  · exact (Option.some.inj opening).symm

theorem IsClass.staysInside_grouped (isClass : IsClass written set) :
    StaysInside ('(' :: (written ++ [')', '+'])) := by
  obtain ⟨cls, -, step⟩ := isClass.exists_readStep
  intro inside after index clear opened _
  have text : '(' :: (written ++ [')', '+']) ++ ')' :: after =
      '(' :: (written ++ ')' :: '+' :: ')' :: after) := by simp
  let inner := inside.openCapture.push (char cls)
  let grown : ReaderState := { inside with groups := inside.groups + 1 }
  let piece := loop (group (inside.groups + 1) (char cls)) 1 none true
  have filled : LeadsTo (inside.openCapture, written ++ ')' :: '+' :: ')' :: after)
      (inner, ')' :: '+' :: ')' :: after) := by
    obtain ⟨skips, read⟩ := step inside.openCapture (')' :: '+' :: ')' :: after) clear
    have once : Unrepeated (')' :: '+' :: ')' :: after) := unrepeated_cons rfl (by simp)
    refine leadsTo_of_readStep (by simp) (clear ▸ skips) (read.trans ?_)
    exact @readPiece_unrepeated inside.openCapture _ clear once (char cls)
  have left : LeadsTo (inner, ')' :: '+' :: ')' :: after) (grown.push piece, ')' :: after) := by
    have closes : inner.close? = some (group (inside.groups + 1) (char cls), grown) := by
      simp [inner, grown, ReaderState.close?, ReaderState.push, ReaderState.openCapture,
        ReaderState.openGroup, Frame.push, Frame.opened, Frame.close?, Frame.body, seqOfReversed,
        altOfReversed]
    have kind : inner.current.kind = .capture (inside.groups + 1) := by
      simp [inner, ReaderState.push, ReaderState.openCapture, ReaderState.openGroup, Frame.push,
        Frame.opened]
    have same : grown.flags = {} := clear
    have simple : inner.flags.extended = false := congrArg Flags.extended same
    have repeated : readPiece grown (group (inside.groups + 1) (char cls)) ('+' :: ')' :: after) =
        some (grown.push piece, ')' :: after) := by
      rw [readPiece, same]
      rfl
    refine leadsTo_of_readStep (List.cons_ne_nil _ _) (skip_eq_self simple rfl) ?_
    simp [readStep, kind, closes, repeated]
  have current : (grown.push piece).current = ⟨.capture index, none, [], [piece]⟩ := by
    have around : grown.current = .opened (.capture index) none := opened
    rw [ReaderState.push, around, Frame.push, if_neg (by simp [piece])]
    rfl
  have body : (grown.push piece).current.body = piece := by
    rw [current]
    rfl
  rw [text]
  refine ⟨grown.push piece, ((isClass.leadsTo_opening clear _).trans filled).trans left, clear,
    by rw [current, opened]; rfl, by rw [current], rfl, trivial, Nat.le_succ _, ?_, [], rfl,
    by simp⟩
  rw [body]
  simp [piece, numbers]

theorem isClass_dot : IsClass ['.'] (CharClass.complement (.single '\n')).contains := by
  refine ⟨by simp, _, rfl, fun state rest clear => ?_⟩
  rw [List.cons_append, List.nil_append, readAtom.eq_2, clear]
  rfl

theorem staysInside_anything : StaysInside ['.', '+'] :=
  isClass_dot.staysInside_oneOrMore

theorem isClass_range {first last : Char} (plain : first.isAlphanum = true)
    (alsoPlain : last.isAlphanum = true) (ordered : first ≤ last) :
    IsClass ['[', first, '-', last, ']'] fun c => first ≤ c && c ≤ last := by
  have differs {c d : Char} (plain : c.isAlphanum = true) (sign : d.isAlphanum = false) :
      c ≠ d := by
    rintro rfl
    rw [plain] at sign
    cases sign
  have noCaret : first ≠ '^' := differs plain rfl
  have noHyphen : first ≠ '-' := differs plain rfl
  have noClosing : first ≠ ']' := differs plain rfl
  have noOpening : first ≠ '[' := differs plain rfl
  have noEscape : first ≠ '\\' := differs plain rfl
  have noAmpersand : first ≠ '&' := differs plain rfl
  have noTilde : first ≠ '~' := differs plain rfl
  have alsoNoEscape : last ≠ '\\' := differs alsoPlain rfl
  have alsoNoHyphen : last ≠ '-' := differs alsoPlain rfl
  have alsoNoClosing : last ≠ ']' := differs alsoPlain rfl
  refine ⟨by simp, .union .nothing (.range first last), ?_, fun state rest clear => ?_⟩
  · funext c
    simp [CharClass.contains]
  have start : readClassStart (first :: '-' :: last :: ']' :: rest) =
      (false, .empty, first :: '-' :: last :: ']' :: rest) := by
    simp [readClassStart, *]
  have range : readRange (first :: '-' :: last :: ']' :: rest) =
      some (.range first last, ']' :: rest) := by
    simp [readRange, readMember, *]
  rw [List.cons_append, readAtom.eq_5, clear, readClass]
  simp only [List.cons_append, List.nil_append, start]
  rw [readClassFrom.eq_8 _ _ _ _ _ (by simp) (by simp [noClosing]) (by simp [noOpening])
    (by simp [noAmpersand]) (by simp [noHyphen]) (by simp [noTilde]), range]
  rfl

end SyncGrammar.Regex
