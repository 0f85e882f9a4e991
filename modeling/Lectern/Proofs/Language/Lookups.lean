import Lectern.Proofs.Language.Matching
import Lectern.Proofs.Text.Trim

/-!
# Lookups of language codes

A code is looked up for its table, for its three-letter code and for the name of its language. In a
coherent registry every code that is identified leads to a known three-letter code
(`known_of_identify?`), and a known three-letter code is identified as itself
(`identify?_of_known`). So the lookups succeed for the same codes, and the three-letter code is a
normal form.
-/

namespace Lectern

/-! ## Lower case -/

namespace Text

/-- A text of lower-case ASCII letters. -/
def IsLower (text : Text) : Prop := ∀ c ∈ text, c.isLower

instance (text : Text) : Decidable text.IsLower := List.decidableBAll _ text

theorem toNat_of_isLower {c : Char} (lower : c.isLower) : 97 ≤ c.toNat ∧ c.toNat ≤ 122 := by
  have range : (decide ('a'.val ≤ c.val) && decide (c.val ≤ 'z'.val)) = true := lower
  rw [Bool.and_eq_true, decide_eq_true_eq, decide_eq_true_eq] at range
  exact ⟨UInt32.le_iff_toNat_le.mp range.1, UInt32.le_iff_toNat_le.mp range.2⟩

theorem not_isBlank_of_isLower {c : Char} (lower : c.isLower) : isBlank c = false := by
  have range := toNat_of_isLower lower
  simp only [isBlank, Bool.or_eq_false_iff, Bool.and_eq_false_iff, decide_eq_false_iff_not,
    beq_eq_false_iff_ne]
  omega

theorem lowerChar_of_isLower {c : Char} (lower : c.isLower) : lowerChar c = [c] := by
  have range := toNat_of_isLower lower
  simp only [lowerChar]
  rw [if_pos (by omega), toLower_eq_self (by omega)]

namespace IsLower

variable {text : Text} (lower : text.IsLower)
include lower

theorem trim_eq : trim text = text :=
  trim_eq_self (fun c first => not_isBlank_of_isLower (lower c (List.mem_of_mem_head? first)))
    (fun c last => not_isBlank_of_isLower (lower c (List.mem_of_getLast? last)))

theorem lowercase_eq : lowercase text = text := by
  rw [lowercase, List.flatMap_congr fun c member => lowerChar_of_isLower (lower c member)]
  exact List.flatMap_singleton' text

theorem byteLength_eq : byteLength text = text.length := by
  induction text with
  | nil => rfl
  | cons c rest ih =>
    obtain ⟨first, behind⟩ := List.forall_mem_cons.mp lower
    have range := toNat_of_isLower first
    have single : c.utf8Size = 1 := by
      rw [Char.utf8Size_eq_one_iff, UInt32.le_iff_toNat_le]
      change c.toNat ≤ 127
      omega
    have step : byteLength (c :: rest) = c.utf8Size + byteLength rest := rfl
    rw [step, single, ih behind, List.length_cons, Nat.add_comm]

end IsLower

end Text

namespace Language

/-! ## Coherent registries -/

/-- What is relied on of a registry: the three-letter codes that other codes lead to are known, and
a known code is made of three letters. -/
structure Registry.Coherent [Registry] : Prop where
  part1 : ∀ code part3, Registry.part3? code = some part3 → (Registry.name? part3).isSome
  part2B : ∀ pair ∈ bibliographic, (Registry.name? pair.2).isSome
  written : ∀ part3, (Registry.name? part3).isSome → part3.length = 3 ∧ part3.IsLower

theorem Registry.known_standard_iff {part3 : Text} :
    (Registry.name? part3).isSome ↔ ∃ language ∈ table, language.part3 = part3 := by
  have asked : Registry.name? part3 = (table.find? (·.part3 = part3)).map Language.name := rfl
  simp [asked]

/-- The known languages are coherent. -/
theorem Registry.coherent_standard : Registry.Coherent where
  part1 := by
    intro code part3 found
    obtain ⟨language, listed, rfl⟩ := Option.map_eq_some_iff.mp found
    exact known_standard_iff.mpr ⟨language, List.mem_of_find?_eq_some listed, rfl⟩
  part2B := by decide +kernel
  written := by
    intro part3 known
    obtain ⟨language, listed, rfl⟩ := known_standard_iff.mp known
    have letters : ∀ language ∈ table, language.part3.length = 3 ∧ language.part3.IsLower := by
      decide +kernel
    exact letters language listed

section

variable [Registry] (coherent : Registry.Coherent)
include coherent

/-- A known three-letter code is identified as itself. -/
theorem identify?_of_known {part3 : Text} (known : (Registry.name? part3).isSome) :
    identify? part3 = some (.part2T, part3) := by
  obtain ⟨three, lower⟩ := coherent.written part3 known
  have bytes : Text.byteLength part3 = 3 := lower.byteLength_eq.trans three
  have key : Text.lowercase (Text.trim part3) = part3 := by
    rw [lower.trim_eq, lower.lowercase_eq]
  simp [identify?, key, bytes, known]

/-- Whatever table a code is from, the three-letter code of its language is known. -/
theorem known_of_identify? {code part3 : Text} {system : CodeSystem}
    (identified : identify? code = some (system, part3)) : (Registry.name? part3).isSome := by
  simp only [identify?] at identified
  split at identified
  · obtain ⟨other, found, same⟩ := Option.map_eq_some_iff.mp identified
    obtain ⟨-, rfl⟩ := Prod.mk.inj same
    exact coherent.part1 _ other found
  · split at identified
    · split at identified
      · rename_i known
        obtain ⟨-, rfl⟩ := Prod.mk.inj (Option.some.inj identified)
        exact known
      · obtain ⟨other, found, same⟩ := Option.map_eq_some_iff.mp identified
        obtain ⟨-, rfl⟩ := Prod.mk.inj same
        obtain ⟨before, after, listed, -⟩ := List.lookup_eq_some_iff.mp found
        exact coherent.part2B _ (by rw [listed]; exact List.mem_append_right _ List.mem_cons_self)
    · cases identified

end

/-! ## Lookups -/

/-- What the lookups of a code have in common. -/
structure LookupsAgree [Registry] (code : Text) : Prop where
  together :
    (∃ system part3 name, codeSystem code = .ok system ∧ normalize code = .ok part3 ∧
      englishName code = .ok name) ∨
    (codeSystem code = .error (.invalid code) ∧
      normalize code = .error (.cannotNormalize code) ∧
      englishName code = .error (.cannotNormalize code))
  normalForm : ∀ part3, normalize code = .ok part3 →
    normalize part3 = .ok part3 ∧ codeSystem part3 = .ok .part2T ∧ codesMatch code part3 ∧
      englishName part3 = englishName code
  slideCode : isSlideCode code →
    codeSystem code = .ok .part1 ∧
      ∃ part3 name, normalize code = .ok part3 ∧ englishName code = .ok name

/-- The lookups of a code that no table has fail together. -/
theorem lookupsAgree_of_unidentified [Registry] {code : Text}
    (unidentified : identify? code = none) : LookupsAgree code where
  together := .inr (by simp [codeSystem, englishName, normalize, unidentified])
  normalForm := by
    intro part3 normal
    simp [normalize, unidentified] at normal
  slideCode := by
    intro isSlide
    simp [isSlideCode, unidentified] at isSlide

/-- The lookups of a code succeed or fail together, for every registry that is coherent. Where they
succeed, the three-letter code is a normal form: it stays as it is, it matches the code, and it has
the same name. -/
theorem lookupsAgree [Registry] (coherent : Registry.Coherent) (code : Text) :
    LookupsAgree code := by
  cases identified : identify? code with
  | none => exact lookupsAgree_of_unidentified identified
  | some answer =>
    obtain ⟨system, part3⟩ := answer
    have known := known_of_identify? coherent identified
    have again := identify?_of_known coherent known
    obtain ⟨name, named⟩ := Option.isSome_iff_exists.mp known
    have system_eq : codeSystem code = .ok system := by simp [codeSystem, identified]
    have normal : normalize code = .ok part3 := by simp [normalize, identified]
    have name_eq : englishName code = .ok name := by simp [englishName, normal, named]
    refine ⟨.inl ⟨system, part3, name, system_eq, normal, name_eq⟩, ?normalForm, ?slideCode⟩
    case normalForm =>
      intro other same
      obtain rfl : part3 = other := Except.ok.inj (normal.symm.trans same)
      have fixed : normalize part3 = .ok part3 := by simp [normalize, again]
      have sameMeaning : meaning code = meaning part3 := by simp [meaning, identified, again]
      have sameName : englishName part3 = englishName code := by
        rw [name_eq]
        simp [englishName, fixed, named]
      exact ⟨fixed, by simp [codeSystem, again], (codesMatch_iff code part3).mpr sameMeaning,
        sameName⟩
    case slideCode =>
      intro isSlide
      have isPart1 : system = .part1 := by simpa [isSlideCode, identified] using isSlide
      exact ⟨isPart1 ▸ system_eq, part3, name, normal, name_eq⟩

/-- A bibliographic code in capitals, with blanks around it. -/
theorem lookupsAgree_bibliographic :
    Registry.Coherent ∧ codeSystem " GER\t" = .ok .part2B ∧ normalize " GER\t" = .ok "deu" ∧
      englishName " GER\t" = .ok "German" ∧ LookupsAgree " GER\t" :=
  ⟨Registry.coherent_standard, by decide +kernel, by decide +kernel, by decide +kernel,
    lookupsAgree Registry.coherent_standard " GER\t"⟩

end Language
end Lectern
