import SyncGrammar.Proofs.Exact

namespace SyncGrammar

namespace Token

def IsNamed (names : List Text) (token : Text) : Prop :=
  ∃ name ∈ names, name ≠ [] ∧ ∃ index : Text, (∀ d ∈ index, d.isDigit = true) ∧
    token = name ++ index

variable {names : List Text} {text : Text}

theorem nonempty_of_mem_segments {name index : Text}
    (member : .token name index ∈ segments names text) : name ≠ [] := by
  obtain ⟨rest, -, found⟩ := longestName_of_mem_segments member
  exact (longestName_eq_some found).2.1

theorem isNamed_of_mem_tokens {token : Text} (occurs : token ∈ tokens names text) :
    IsNamed names token := by
  obtain ⟨name, index, member, rfl⟩ := mem_tokens_iff.mp occurs
  obtain ⟨declared, digits⟩ := declared_of_mem_segments member
  exact ⟨name, declared, nonempty_of_mem_segments member, index, digits, rfl⟩

theorem drop_of_append {token after rest : Text} {c : Char} (nonempty : token ≠ [])
    (split : c :: rest = token ++ after) : rest.drop (token.length - 1) = after := by
  cases token with
  | nil => exact absurd rfl nonempty
  | cons d tail =>
    obtain rfl := (List.cons.inj split).2
    simp

end Token

namespace Substitution

open Token

variable {names : List Text} {bindings : List (Text × Text)}
  (named : ∀ binding ∈ bindings, IsNamed names binding.1)

include named

theorem applicable_of_no_name {text : Text} (unnamed : longestName names text = none) :
    applicable bindings text = none := by
  rw [applicable, Text.longestBy_eq_none_iff, List.filter_eq_nil_iff]
  intro binding member holds
  obtain ⟨-, starts⟩ := Bool.and_eq_true_iff.mp holds
  obtain ⟨name, declared, nonempty, index, -, same⟩ := named binding member
  obtain ⟨after, split, -⟩ := startsWithToken_iff.mp starts
  have begins : name <+: text := ⟨index ++ after, by rw [← split, same, List.append_assoc]⟩
  exact longestName_eq_none_iff.mp unnamed name declared nonempty begins

theorem length_le_of_startsWithToken {binding : Text × Text} {name index rest : Text}
    (longest : ∀ other ∈ names, other <+: name ++ (index ++ rest) → other.length ≤ name.length)
    (indexes : Indexes index rest) (member : binding ∈ bindings)
    (starts : startsWithToken binding.1 (name ++ (index ++ rest)) = true) :
    binding.1.length ≤ (name ++ index).length := by
  obtain ⟨other, declared, -, otherIndex, digits, same⟩ := named binding member
  obtain ⟨after, split, -⟩ := startsWithToken_iff.mp starts
  rw [same, List.append_assoc] at split
  have begins : other <+: name ++ (index ++ rest) := ⟨_, split⟩
  obtain ⟨gap, rfl⟩ := List.prefix_of_prefix_length_le begins (List.prefix_append _ _)
    (longest other declared begins)
  -- what reaches beyond the token would be digits of the key, but no digit follows the token
  by_contra longer
  have within : (gap ++ index).length ≤ otherIndex.length := by
    simp only [same, List.length_append] at longer ⊢
    omega
  have tail : otherIndex ++ after = gap ++ index ++ rest := by
    apply @List.append_cancel_left _ other
    simpa using split
  obtain ⟨more, rfl⟩ := List.prefix_of_prefix_length_le
    (List.prefix_append (gap ++ index) rest) (tail ▸ List.prefix_append otherIndex after) within
  rw [List.append_assoc] at tail
  obtain rfl := List.append_cancel_left tail
  cases more with
  | nil => simp [same] at longer
  | cons d more =>
    have isDigit := digits d (List.mem_append_right _ List.mem_cons_self)
    have noDigit := indexes.ends d rfl
    rw [isDigit] at noDigit
    cases noDigit

variable (distinct : (bindings.map (·.1)).Nodup)

include distinct

theorem applicable_of_bound {name index rest : Text}
    (found : longestName names (name ++ (index ++ rest)) = some name)
    (indexes : Indexes index rest) (bound : name ++ index ∈ bindings.map (·.1)) :
    ∃ value, applicable bindings (name ++ (index ++ rest)) = some (name ++ index, value) ∧
      Assignment.get? ⟨bindings⟩ (name ++ index) = some value := by
  obtain ⟨-, nonempty, -, longest⟩ := longestName_eq_some found
  obtain ⟨⟨token, value⟩, member, same⟩ := List.mem_map.mp bound
  obtain rfl : token = name ++ index := same
  have stands : startsWithToken (name ++ index) (name ++ (index ++ rest)) = true :=
    startsWithToken_iff.mpr ⟨rest, List.append_assoc _ _ _, indexes.ends⟩
  have own : (name ++ index, value) ∈ bindings.filter fun r =>
      !r.1.isEmpty && startsWithToken r.1 (name ++ (index ++ rest)) := by
    refine List.mem_filter.mpr ⟨member, ?_⟩
    simp [stands, nonempty]
  cases applies : applicable bindings (name ++ (index ++ rest)) with
  | none =>
    rw [applicable, Text.longestBy_eq_none_iff] at applies
    rw [applies] at own
    cases own
  | some chosen =>
    obtain ⟨among, holds⟩ := List.mem_filter.mp (Text.mem_of_longestBy applies)
    have starts := (Bool.and_eq_true_iff.mp holds).2
    obtain ⟨after, split, -⟩ := startsWithToken_iff.mp starts
    -- the two begin together, and neither is longer than the other
    have upper := length_le_of_startsWithToken named longest indexes among starts
    have lower := Text.length_le_of_longestBy applies _ own
    have whole : chosen.1 = name ++ index := by
      have begins : chosen.1 <+: name ++ (index ++ rest) := ⟨after, split⟩
      have alsoBegins : name ++ index <+: name ++ (index ++ rest) :=
        ⟨rest, List.append_assoc _ _ _⟩
      exact (List.prefix_of_prefix_length_le begins alsoBegins upper).eq_of_length
        (Nat.le_antisymm upper lower)
    refine ⟨chosen.2, by rw [← whole], ?_⟩
    rw [← whole]
    exact Assignment.get?_of_mem distinct among

theorem substituteAll_eq_fill_of_bound (text : Text)
    (bound : ∀ token ∈ tokens names text, token ∈ bindings.map (·.1)) :
    substituteAll bindings text = fill names (Assignment.get? ⟨bindings⟩) text := by
  unfold fill tokens at *
  fun_induction segments names text with
  | case1 => rw [substituteAll, List.flatMap_nil]
  | case2 c rest unnamed ih =>
    rw [substituteAll, applicable_of_no_name named unnamed, ih bound]
    rfl
  | case3 c rest name found after ih =>
    obtain ⟨declared, nonempty, starts, -⟩ := longestName_eq_some found
    have split : c :: rest =
        name ++ (after.takeWhile Char.isDigit ++ after.dropWhile Char.isDigit) := by
      have whole := append_drop_of_prefix nonempty starts
      rw [List.takeWhile_append_dropWhile, whole]
    have onward := ih fun token occurs => bound token (List.mem_cons_of_mem _ occurs)
    obtain ⟨value, applies, known⟩ := applicable_of_bound named distinct (split ▸ found)
      (indexes_span after) (bound _ List.mem_cons_self)
    rw [← split] at applies
    have dropped : rest.drop ((name ++ after.takeWhile Char.isDigit).length - 1) =
        after.dropWhile Char.isDigit :=
      drop_of_append (by simp [nonempty]) (split.trans (List.append_assoc _ _ _).symm)
    rw [substituteAll, applies]
    simp only [dropped, onward, List.flatMap_cons, Segment.written, known, Option.getD_some]

end Substitution

namespace Assignment

variable {names tokens : List Text} {text : Text}

theorem substituteAll_of_bound (value : Text → Text) (distinct : tokens.Nodup)
    (named : ∀ token ∈ tokens, Token.IsNamed names token)
    (bound : ∀ token ∈ Token.tokens names text, token ∈ tokens) :
    substituteAll (ofValues tokens value).bindings text =
      Token.fill names (fun token => some (value token)) text := by
  have keys : (ofValues tokens value).bindings.map (·.1) = tokens := tokens_ofValues
  have keysNamed (binding : Text × Text) (member : binding ∈ (ofValues tokens value).bindings) :
      Token.IsNamed names binding.1 :=
    named _ (keys ▸ List.mem_map_of_mem member)
  rw [Substitution.substituteAll_eq_fill_of_bound keysNamed (keys.symm ▸ distinct)]
  · apply Token.fill_congr
    intro token occurs
    exact get?_ofValues (bound token occurs)
  · rwa [keys]

theorem substituteAll_eraseDups (names : List Text) (value : Text → Text) (text : Text) :
    substituteAll (ofValues (Token.tokens names text).eraseDups value).bindings text =
      Token.fill names (fun token => some (value token)) text := by
  apply substituteAll_of_bound value (nodup_eraseDups _)
  · intro token listed
    exact Token.isNamed_of_mem_tokens (List.mem_eraseDups.mp listed)
  · intro token occurs
    exact List.mem_eraseDups.mpr occurs

end Assignment

end SyncGrammar
