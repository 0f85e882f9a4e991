import Mathlib.Tactic.SplitIfs
import Lectern.Text.Basic

/-!
# The order of UTF-8

The bytes of texts are ordered as their characters are: the first byte in which the forms of two
characters differ is smaller for the smaller code point, and no form is the start of another.
-/

namespace Lectern.Text

theorem ofNat_lt_ofNat {a b : Nat} (smallA : a < 256) (smallB : b < 256) :
    UInt8.ofNat a < UInt8.ofNat b ↔ a < b := by
  rw [UInt8.lt_iff_toNat_lt, UInt8.toNat_ofNat_of_lt' smallA, UInt8.toNat_ofNat_of_lt' smallB]

theorem ofNat_eq_ofNat {a b : Nat} (smallA : a < 256) (smallB : b < 256) :
    UInt8.ofNat a = UInt8.ofNat b ↔ a = b := by
  rw [← UInt8.toNat_inj, UInt8.toNat_ofNat_of_lt' smallA, UInt8.toNat_ofNat_of_lt' smallB]

/-- A smaller character has smaller bytes, whatever follows. -/
theorem utf8EncodeChar_lt {c d : Char} (below : c < d) (behindC behindD : List UInt8) :
    String.utf8EncodeChar c ++ behindC < String.utf8EncodeChar d ++ behindD := by
  have smaller : c.val.toNat < d.val.toNat := below
  have bound : d.val.toNat < 1114112 := by
    rcases d.valid with low | ⟨-, high⟩
    · exact Nat.lt_trans low (by decide)
    · exact high
  simp only [String.utf8EncodeChar]
  generalize c.val.toNat = n at *
  generalize d.val.toNat = m at *
  have split₂ (k : Nat) : k / 4096 = k / 64 / 64 := (Nat.div_div_eq_div_mul k 64 64).symm
  have split₃ (k : Nat) : k / 262144 = k / 64 / 64 / 64 := by
    rw [Nat.div_div_eq_div_mul, Nat.div_div_eq_div_mul]
  simp only [split₂, split₃]
  -- The forms have one to four bytes; the shorter one has the smaller first byte.
  by_cases tail : behindC < behindD <;> split_ifs <;>
    (try omega) <;>
    simp (disch := omega) only [List.cons_append, List.nil_append, List.cons_lt_cons_iff,
      ofNat_lt_ofNat, ofNat_eq_ofNat, tail, and_true, and_false, or_false] <;>
    omega

theorem utf8_cons (c : Char) (rest : Text) :
    utf8 (c :: rest) = String.utf8EncodeChar c ++ utf8 rest := rfl

/-- Texts in rising order have bytes in rising order. -/
theorem utf8_lt_of_compare {a b : Text} (below : compare a b = .lt) : utf8 a < utf8 b := by
  induction a generalizing b with
  | nil =>
    cases b with
    | nil => cases below
    | cons d b =>
      have nonempty : String.utf8EncodeChar d ≠ [] := String.utf8EncodeChar_ne_nil
      obtain ⟨byte, more, form⟩ := List.exists_cons_of_ne_nil nonempty
      rw [utf8_cons, form]
      exact List.nil_lt_cons ..
  | cons c a ih =>
    cases b with
    | nil => cases below
    | cons d b =>
      rw [List.compare_cons_cons] at below
      rw [utf8_cons, utf8_cons]
      rcases Ordering.then_eq_lt.mp below with first | ⟨same, behind⟩
      · exact utf8EncodeChar_lt (compareOfLessAndEq_eq_lt.mp first) _ _
      · obtain rfl : c = d := Std.LawfulEqCmp.eq_of_compare same
        exact List.append_left_lt (ih behind)

/-- So have lists of texts, compared text by text. -/
theorem map_utf8_lt_of_compare {a b : List Text} (below : compare a b = .lt) :
    a.map utf8 < b.map utf8 := by
  induction a generalizing b with
  | nil =>
    cases b with
    | nil => cases below
    | cons text b => exact List.nil_lt_cons ..
  | cons first a ih =>
    cases b with
    | nil => cases below
    | cons second b =>
      rw [List.compare_cons_cons] at below
      rw [List.map_cons, List.map_cons, List.cons_lt_cons_iff]
      rcases Ordering.then_eq_lt.mp below with smaller | ⟨same, behind⟩
      · exact .inl (utf8_lt_of_compare smaller)
      · obtain rfl : first = second := Std.LawfulEqCmp.eq_of_compare same
        exact .inr ⟨rfl, ih behind⟩

/-- A text is read back from its bytes. -/
theorem ofBytes?_toBytes (text : Text) : ofBytes? (toBytes text) = some text := by
  have valid : (String.ofList text).toUTF8.IsValidUTF8 := (String.ofList text).isValidUTF8
  rw [ofBytes?, toBytes, String.fromUTF8?, dif_pos valid]
  exact congrArg some String.toList_ofList

end Lectern.Text
