import Mathlib.Tactic.SplitIfs

/-!
The order of texts. Texts are compared character by character; since UTF-8 keeps the order of the
characters, also in front of other bytes, that is the order of their bytes.
-/

set_option autoImplicit false

namespace RunMetrics.Text

/-- The bytes of a text in UTF-8. -/
def bytes (s : String) : List UInt8 := s.toUTF8.data.toList

theorem bytes_eq (s : String) : bytes s = s.toList.flatMap String.utf8EncodeChar := by
  rw [bytes, String.toUTF8_eq_toByteArray, ← String.utf8Encode_toList, List.utf8Encode,
    List.data_toByteArray]

/-- A greater character has a greater byte in the first place where the bytes differ. -/
theorem encode_append_lt {c d : Char} (less : c < d) (rest more : List UInt8) :
    String.utf8EncodeChar c ++ rest < String.utf8EncodeChar d ++ more := by
  have values : c.val.toNat < d.val.toNat := UInt32.lt_iff_toNat_lt.1 less
  have small : d.val.toNat < 0x110000 := by
    rcases d.valid with low | ⟨-, high⟩
    · exact Nat.lt_trans low (by decide)
    · exact high
  unfold String.utf8EncodeChar
  generalize c.val.toNat = v at *
  generalize d.val.toNat = w at *
  generalize within : (rest < more) = last
  have digits (n : Nat) : n / 4096 = n / 64 / 64 ∧ n / 262144 = n / 64 / 64 / 64 := by omega
  simp only [digits]
  -- Sixteen cases, by the numbers of bytes.
  split_ifs <;>
    simp only [List.cons_append, List.nil_append, List.cons_lt_cons_iff, UInt8.lt_iff_toNat_lt,
      ← UInt8.toNat_inj, UInt8.toNat_ofNat', within] <;>
    omega

theorem flatMap_encode_lt {l m : List Char} (less : l < m) :
    l.flatMap String.utf8EncodeChar < m.flatMap String.utf8EncodeChar := by
  induction l generalizing m with
  | nil =>
    cases m with
    | nil => cases less
    | cons d more =>
      have length : (String.utf8EncodeChar d).length = d.utf8Size := String.length_utf8EncodeChar d
      have some_byte : 0 < d.utf8Size := d.utf8Size_pos
      rw [List.flatMap_nil, List.flatMap_cons]
      cases encoded : String.utf8EncodeChar d with
      | nil => simp [encoded, ← length] at some_byte
      | cons byte others => exact List.nil_lt_cons _ _
  | cons c rest ih =>
    cases m with
    | nil => cases less
    | cons d more =>
      rw [List.flatMap_cons, List.flatMap_cons]
      rcases List.cons_lt_cons_iff.1 less with first | ⟨rfl, others⟩
      · exact encode_append_lt first _ _
      · exact List.append_left_lt (ih others)

theorem bytes_lt {s t : String} (less : compare s t = .lt) : bytes s < bytes t := by
  have order : s < t := compareOfLessAndEq_eq_lt.1 less
  rw [bytes_eq, bytes_eq]
  exact flatMap_encode_lt (String.lt_iff.1 order)

/-- Texts are ordered as their bytes. -/
theorem compare_eq_lt_iff (s t : String) : compare s t = .lt ↔ bytes s < bytes t := by
  constructor
  · exact bytes_lt
  · intro less
    cases order : compare s t with
    | lt => rfl
    | eq =>
      rw [Std.LawfulEqCmp.eq_of_compare order] at less
      exact absurd less (List.lt_irrefl _)
    | gt =>
      have above := bytes_lt (Std.OrientedCmp.gt_iff_lt.1 order)
      exact absurd less (List.lt_asymm above)

end RunMetrics.Text
