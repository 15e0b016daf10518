import SyncGrammar.Proofs.Filling

/-!
Writing values one after the other, whatever characters they hold. A value that has been written is
read again when the next one is, so that it may end a token or, with a digit, become part of one.
The outcome is that of filling all tokens at once as long as no digit stands behind a token that is
still there, and no declared name is left in the end.
-/
namespace SyncGrammar

namespace Token

def behind (values : Text → Option Text) : List Segment → Text
  | [] => []
  | .literal _ :: rest => behind values rest
  | .token name index :: rest =>
    match values (name ++ index) with
    | some _ => behind values rest
    | none => (rest.flatMap (Segment.written values)).head?.toList ++ behind values rest

variable {names : List Text} {part full : Text → Option Text} {cut : List Segment}

def Declared (names : List Text) (cut : List Segment) : Prop :=
  ∀ name index, .token name index ∈ cut → name ∈ names ∧ ∀ d ∈ index, d.isDigit = true

theorem declared_segments (text : Text) : Declared names (segments names text) :=
  fun _ _ member => declared_of_mem_segments member

theorem Declared.of_cons {segment : Segment} (declared : Declared names (segment :: cut)) :
    Declared names cut :=
  fun name index member => declared name index (List.mem_cons_of_mem _ member)

variable (apart : Apart names) (within : ∀ token value, part token = some value →
  full token = some value)

include apart within

/-- What has been written does not begin like a name, together with what follows, unless the name
is there in the end. A token that is still to be written does not help to complete one. -/
theorem not_starts_with_name {name before : Text} (isName : name ∈ names) (nonempty : before ≠ [])
    (declared : Declared names cut)
    (unnamed : ¬ name <:+: before ++ cut.flatMap (Segment.written full)) :
    ¬ name <+: before ++ cut.flatMap (Segment.written part) := by
  induction cut generalizing before with
  | nil => exact fun starts => unnamed starts.isInfix
  | cons segment rest ih =>
    have onward (piece : Text) (now : segment.written part = piece)
        (later : segment.written full = piece) :
        ¬ name <+: before ++ (segment :: rest).flatMap (Segment.written part) := by
      rw [List.flatMap_cons, now, ← List.append_assoc]
      apply ih (by simp [nonempty]) declared.of_cons
      rwa [List.flatMap_cons, later, ← List.append_assoc] at unnamed
    cases segment with
    | literal c => exact onward [c] rfl rfl
    | token other index =>
      cases known : part (other ++ index) with
      | some value =>
        apply onward value
        · simp [Segment.written, known]
        · simp [Segment.written, within _ _ known]
      | none =>
        intro starts
        have isOther := (declared other index List.mem_cons_self).1
        rcases List.prefix_or_prefix_of_prefix starts (List.prefix_append _ _) with
          inside | ⟨after, rfl⟩
        · exact unnamed (inside.trans (List.prefix_append _ _)).isInfix
        · have some : after ≠ [] := by
            rintro rfl
            rw [List.append_nil] at unnamed
            exact unnamed (List.prefix_append _ _).isInfix
          rw [List.prefix_append_right_inj, List.flatMap_cons, Segment.written, known,
            Option.getD_none, List.append_assoc] at starts
          have either := List.prefix_or_prefix_of_prefix starts (List.prefix_append _ _)
          have whole := apart.separate _ isName other isOther after (List.suffix_append _ _) some
            either
          have same : before = [] := by simpa using whole.1
          exact nonempty same

theorem substitute_written {token : Text} (value : Text) (isToken : IsToken names token)
    (declared : Declared names cut)
    (unnamed : ∀ name ∈ names, ¬ name <:+: cut.flatMap (Segment.written full))
    (clear : ∀ d ∈ behind part cut, d.isDigit = false) :
    substitute token value (cut.flatMap (Segment.written part)) =
      cut.flatMap (Segment.written fun other =>
        (part other).or (Assignment.get? ⟨[(token, value)]⟩ other)) := by
  induction cut with
  | nil => rw [List.flatMap_nil, List.flatMap_nil, substitute, substituteAll]
  | cons segment rest ih =>
    have later (name : Text) (isName : name ∈ names) :
        ¬ name <:+: rest.flatMap (Segment.written full) := by
      intro inside
      apply unnamed name isName
      rw [List.flatMap_cons]
      exact inside.trans (List.suffix_append _ _).isInfix
    -- no token starts in what has been written already
    have onward (piece : Text) (now : segment.written part = piece)
        (atLast : segment.written full = piece)
        (next : segment.written (fun other =>
          (part other).or (Assignment.get? ⟨[(token, value)]⟩ other)) = piece)
        (clear : ∀ d ∈ behind part rest, d.isDigit = false) :
        substitute token value ((segment :: rest).flatMap (Segment.written part)) =
          (segment :: rest).flatMap (Segment.written fun other =>
            (part other).or (Assignment.get? ⟨[(token, value)]⟩ other)) := by
      rw [List.flatMap_cons, List.flatMap_cons, now, next, ← ih declared.of_cons later clear]
      apply Substitution.substituteAll_append_of_unstarted
      intro inner inside nonempty binding member
      rw [List.mem_singleton.mp member, Bool.eq_false_iff]
      intro starts
      obtain ⟨name, isName, begins⟩ := Substitution.exists_name_of_startsWithToken isToken starts
      refine not_starts_with_name apart within isName nonempty declared.of_cons ?_ begins
      intro occurs
      apply unnamed name isName
      rw [List.flatMap_cons, atLast]
      obtain ⟨before, rfl⟩ := inside
      rw [List.append_assoc]
      exact occurs.trans (List.suffix_append _ _).isInfix
    cases segment with
    | literal c => exact onward [c] rfl rfl rfl clear
    | token name index =>
      cases known : part (name ++ index) with
      | some other =>
        simp only [behind, known] at clear
        apply onward other
        · simp [Segment.written, known]
        · simp [Segment.written, within _ _ known]
        · simp [Segment.written, known]
        · exact clear
      | none =>
        simp only [behind, known, List.forall_mem_append, Option.mem_toList] at clear
        obtain ⟨isName, digits⟩ := declared name index List.mem_cons_self
        have tokens : ∀ binding ∈ [(token, value)], IsToken names binding.1 := by
          simpa using isToken
        have stands := Substitution.substituteAll_token apart tokens isName ⟨digits, clear.1⟩
        have rewritten := ih declared.of_cons later clear.2
        rw [substitute] at rewritten ⊢
        rw [List.flatMap_cons, List.flatMap_cons, Segment.written, Segment.written, known,
          Option.getD_none, List.append_assoc, stands, rewritten, Option.none_or]

end Token

theorem Assignment.get?_append (first second : List (Text × Text)) (token : Text) :
    get? ⟨first ++ second⟩ token = (get? ⟨first⟩ token).or (get? ⟨second⟩ token) := by
  rw [get?, List.find?_append, Option.map_or]
  rfl

namespace Substitution

open Token

variable {names : List Text} {bindings : List (Text × Text)} {text : Text}

/-- Whenever the turn of a binding comes, no digit stands behind a token that is still there. -/
def Unhindered (names : List Text) (bindings : List (Text × Text)) (text : Text) : Prop :=
  ∀ turn < bindings.length, ∀ d ∈ behind (Assignment.get? ⟨bindings.take turn⟩)
    (segments names text), d.isDigit = false

-- Named instances, because there is also one that goes through all characters.
instance : Decidable (Unhindered names bindings text) :=
  @Nat.decidableBallLT _ _ fun _ _ => List.decidableBAll _ _

theorem inOrder_eq_substituteAll (apart : Apart names)
    (tokens : ∀ binding ∈ bindings, IsToken names binding.1)
    (unhindered : Unhindered names bindings text)
    (unnamed : ∀ name ∈ names, ¬ name <:+: substituteAll bindings text) :
    inOrder bindings text = substituteAll bindings text := by
  rw [substituteAll_eq_fill_of_apart apart tokens] at unnamed ⊢
  have soFar (turn : Nat) (started : turn ≤ bindings.length) :
      inOrder (bindings.take turn) text =
        fill names (Assignment.get? ⟨bindings.take turn⟩) text := by
    induction turn with
    | zero => exact (fill_unbound text).symm
    | succ turn ih =>
      have within (token value : Text)
          (known : Assignment.get? ⟨bindings.take turn⟩ token = some value) :
          Assignment.get? ⟨bindings⟩ token = some value := by
        rw [← List.take_append_drop turn bindings, Assignment.get?_append, known, Option.some_or]
      have next : bindings.take (turn + 1) = bindings.take turn ++ [bindings[turn]] :=
        List.take_succ_eq_append_getElem started
      have isToken := tokens bindings[turn] (List.getElem_mem started)
      have written := substitute_written apart within bindings[turn].2 isToken
        (declared_segments text) unnamed (unhindered turn started)
      calc inOrder (bindings.take (turn + 1)) text
          = substitute bindings[turn].1 bindings[turn].2 (inOrder (bindings.take turn) text) := by
            rw [next, inOrder, List.foldl_append]
            rfl
        _ = fill names (Assignment.get? ⟨bindings.take (turn + 1)⟩) text := by
            rw [ih (Nat.le_of_succ_le started), fill, written, fill, next]
            congr 2
            funext other
            rw [Assignment.get?_append]
  have whole := soFar bindings.length (Nat.le_refl _)
  rwa [List.take_length] at whole

end Substitution

end SyncGrammar
