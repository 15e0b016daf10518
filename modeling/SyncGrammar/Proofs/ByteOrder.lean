import Mathlib.Algebra.Group.Nat.Defs
import Mathlib.Tactic.SplitIfs
import SyncGrammar.Text

/-!
Texts compared by their encodings. In UTF-8 the first byte of a character tells how many follow, and
more so the higher the code point is; the others hold six bits each, the highest first. So of two
different characters the one with the higher code point has the higher byte where their encodings
first differ, whatever comes behind them.
-/
namespace SyncGrammar.Text

def utf8 (text : Text) : List UInt8 :=
  text.flatMap String.utf8EncodeChar

def following (code : Nat) : Nat :=
  if code ≤ 127 then 0 else if code ≤ 2047 then 1 else if code ≤ 65535 then 2 else 3

def leadMark : Nat → Nat
  | 0 => 0
  | 1 => 192
  | 2 => 224
  | _ => 240

def lead (code : Nat) : Nat :=
  code / 64 ^ following code + leadMark (following code)

def continuation : Nat → Nat → List UInt8
  | 0, _ => []
  | count + 1, code => UInt8.ofNat (code / 64 ^ count % 64 + 128) :: continuation count code

theorem utf8EncodeChar_eq (c : Char) :
    String.utf8EncodeChar c =
      UInt8.ofNat (lead c.val.toNat) :: continuation (following c.val.toNat) c.val.toNat := by
  have valid : c.val.toNat < 1114112 := by
    rcases c.valid with low | high
    · exact Nat.lt_trans low (by decide)
    · exact high.2
  rw [String.utf8EncodeChar.eq_1, lead, following]
  generalize c.val.toNat = code at *
  split_ifs
  · simp [leadMark, continuation]
  · have small : code / 64 % 32 = code / 64 := Nat.mod_eq_of_lt (by omega)
    simp [leadMark, continuation, small]
  · have small : code / 4096 % 16 = code / 4096 := Nat.mod_eq_of_lt (by omega)
    simp [leadMark, continuation, small]
  · have small : code / 262144 % 8 = code / 262144 := Nat.mod_eq_of_lt (by omega)
    simp [leadMark, continuation, small]

theorem ofNat_lt_ofNat {low high : Nat} (less : low < high) (byte : high < 256) :
    UInt8.ofNat low < UInt8.ofNat high := by
  rw [UInt8.lt_iff_toNat_lt, UInt8.toNat_ofNat', UInt8.toNat_ofNat']
  omega

theorem continuation_append_lt {count low high : Nat}
    (below : low % 64 ^ count < high % 64 ^ count) (rest other : List UInt8) :
    continuation count low ++ rest < continuation count high ++ other := by
  induction count with
  | zero => simp [Nat.mod_one] at below
  | succ count ih =>
    rw [Nat.pow_succ, Nat.mod_mul, Nat.mod_mul] at below
    rw [continuation, continuation, List.cons_append, List.cons_append, List.cons_lt_cons_iff]
    rcases Nat.lt_trichotomy (low / 64 ^ count % 64) (high / 64 ^ count % 64) with
      less | same | more
    · exact Or.inl (ofNat_lt_ofNat (by omega) (by omega))
    · rw [same] at below ⊢
      exact Or.inr ⟨rfl, ih (by omega)⟩
    · have apart : 64 ^ count * (high / 64 ^ count % 64 + 1) ≤
          64 ^ count * (low / 64 ^ count % 64) := Nat.mul_le_mul_left _ more
      have last : high % 64 ^ count < 64 ^ count := Nat.mod_lt _ (Nat.pow_pos (by decide))
      rw [Nat.mul_succ] at apart
      omega

theorem lead_lt_of_following {low high : Nat} (fewer : following low < following high) :
    lead low < lead high := by
  unfold lead following at *
  split_ifs at * <;> simp only [leadMark] at * <;> omega

theorem following_mono {low high : Nat} (below : low < high) : following low ≤ following high := by
  unfold following
  split_ifs <;> omega

theorem lead_lt_byte {code : Nat} (valid : code < 1114112) : lead code < 256 := by
  unfold lead following
  split_ifs <;> simp only [leadMark] <;> omega

theorem lead_lt_or_mod_lt {low high : Nat} (below : low < high)
    (level : following low = following high) :
    lead low < lead high ∨ lead low = lead high ∧
      low % 64 ^ following high < high % 64 ^ following high := by
  rw [lead, lead, level]
  generalize 64 ^ following high = unit
  have upper : low / unit ≤ high / unit := Nat.div_le_div_right (Nat.le_of_lt below)
  have whole := Nat.div_add_mod low unit
  have alsoWhole := Nat.div_add_mod high unit
  rcases Nat.lt_or_eq_of_le upper with less | same
  · exact Or.inl (by omega)
  · rw [same] at whole ⊢
    exact Or.inr ⟨rfl, by omega⟩

theorem utf8EncodeChar_append_lt {c d : Char} (below : c < d) (rest other : List UInt8) :
    String.utf8EncodeChar c ++ rest < String.utf8EncodeChar d ++ other := by
  have smaller : c.val.toNat < d.val.toNat := below
  have byte : lead d.val.toNat < 256 := by
    apply lead_lt_byte
    rcases d.valid with low | high
    · exact Nat.lt_trans low (by decide)
    · exact high.2
  rw [utf8EncodeChar_eq, utf8EncodeChar_eq, List.cons_append, List.cons_append,
    List.cons_lt_cons_iff]
  rcases Nat.lt_or_eq_of_le (following_mono smaller) with fewer | level
  · exact Or.inl (ofNat_lt_ofNat (lead_lt_of_following fewer) byte)
  · rcases lead_lt_or_mod_lt smaller level with less | ⟨same, less⟩
    · exact Or.inl (ofNat_lt_ofNat less byte)
    · rw [same, level]
      exact Or.inr ⟨rfl, continuation_append_lt less rest other⟩

theorem utf8_cons (c : Char) (text : Text) :
    utf8 (c :: text) = String.utf8EncodeChar c ++ text.utf8 :=
  List.flatMap_cons

theorem length_utf8 (text : Text) : text.utf8.length = text.byteLength := by
  induction text with
  | nil => rfl
  | cons c rest ih =>
    rw [utf8_cons, List.length_append, String.length_utf8EncodeChar, ih, byteLength_cons]

theorem utf8_lt_of_lt {text other : Text} (below : text < other) : text.utf8 < other.utf8 := by
  induction below with
  | nil =>
    rw [utf8_cons, utf8EncodeChar_eq]
    exact List.nil_lt_cons _ _
  | rel less =>
    rw [utf8_cons, utf8_cons]
    exact utf8EncodeChar_append_lt less _ _
  | @cons c _ _ _ ih =>
    rw [utf8_cons, utf8_cons]
    exact List.append_left_lt ih

/-- The order of texts is that of their encodings. -/
theorem utf8_lt_iff {text other : Text} : text.utf8 < other.utf8 ↔ text < other := by
  constructor
  · intro less
    rcases Std.lt_trichotomy text other with below | same | above
    · exact below
    · exact absurd (same ▸ less) (List.lt_irrefl _)
    · exact absurd (utf8_lt_of_lt above) (List.lt_asymm less)
  · exact utf8_lt_of_lt

end SyncGrammar.Text
