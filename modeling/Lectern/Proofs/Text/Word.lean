import Lectern.Text.Blank
import Lectern.Text.Word

/-!
# Word characters against blanks

No blank is a word character, so a word is never trimmed.
-/

namespace Lectern.Text

/-- The code points of all blanks. -/
def blankCodes : List Nat :=
  [9, 10, 11, 12, 13, 0x20, 0x85, 0xA0, 0x1680, 0x2000, 0x2001, 0x2002, 0x2003, 0x2004, 0x2005,
    0x2006, 0x2007, 0x2008, 0x2009, 0x200A, 0x2028, 0x2029, 0x202F, 0x205F, 0x3000]

theorem toNat_mem_blankCodes {c : Char} (blank : isBlank c) : c.toNat ∈ blankCodes := by
  simp only [isBlank, Bool.or_eq_true, Bool.and_eq_true, decide_eq_true_eq, beq_iff_eq] at blank
  simp only [blankCodes, List.mem_cons, List.not_mem_nil, or_false]
  omega

/-- What holds of the listed code points holds of every blank. -/
theorem forall_blank {motive : Char → Prop} (codes : ∀ code ∈ blankCodes, motive (Char.ofNat code))
    {c : Char} (blank : isBlank c) : motive c := by
  have here := codes c.toNat (toNat_mem_blankCodes blank)
  rwa [Char.ofNat_toNat] at here

/-- A word character is no blank. -/
theorem not_blank_of_isWordChar {c : Char} (word : isWordChar c) : isBlank c = false := by
  cases blank : isBlank c with
  | false => rfl
  | true =>
    have noWord : isWordChar c = false :=
      forall_blank (motive := fun c => isWordChar c = false) (by decide +kernel) blank
    rw [word] at noWord
    exact absurd noWord (by decide)

end Lectern.Text
