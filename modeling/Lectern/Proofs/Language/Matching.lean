import Mathlib.Data.List.Basic
import Lectern.Language.Basic

/-!
# Matching of language codes

Two codes match exactly if they mean the same: a language, or nothing but the code itself in any
case. Matching is therefore an equivalence, and a request that is no tag of a deck can be exchanged
for any other code that matches it. Nothing here depends on which languages the tables have.
-/

namespace Lectern

/-! ## Case -/

namespace Text

/-- Only capital ASCII letters have another form when case is ignored. -/
theorem toLower_eq_self {c : Char} (other : ¬ (65 ≤ c.toNat ∧ c.toNat ≤ 90)) : c.toLower = c := by
  apply dif_neg
  rintro ⟨first, last⟩
  exact other ⟨UInt32.le_iff_toNat_le.mp first, UInt32.le_iff_toNat_le.mp last⟩

theorem lowerChar_toLower (c : Char) : lowerChar c.toLower = lowerChar c := by
  by_cases capital : 65 ≤ c.toNat ∧ c.toNat ≤ 90
  · have capitals : ∀ code ∈ List.range' 65 26,
        lowerChar (Char.ofNat code).toLower = lowerChar (Char.ofNat code) := by decide
    have here := capitals c.toNat (by rw [List.mem_range'_1]; omega)
    rwa [Char.ofNat_toNat] at here
  · rw [toLower_eq_self capital]

theorem equalIgnoringCase_iff {a b : Text} :
    equalIgnoringCase a b ↔ a.map Char.toLower = b.map Char.toLower := by
  simp [equalIgnoringCase]

/-- Texts that differ in the case of ASCII letters alone have one lower case, though that of other
letters is taken too. -/
theorem lowercase_eq_of_equalIgnoringCase {a b : Text} (same : equalIgnoringCase a b) :
    lowercase a = lowercase b := by
  have folded (text : Text) : lowercase (text.map Char.toLower) = lowercase text := by
    rw [lowercase, lowercase, List.flatMap_map]
    exact List.flatMap_congr fun c _ => lowerChar_toLower c
  rw [← folded a, equalIgnoringCase_iff.mp same, folded b]

end Text

namespace Language

/-! ## Meanings -/

section

variable [Registry]

/-- What a code stands for: a language, by its three-letter code, or nothing but itself. -/
inductive Meaning where
  | language (part3 : Text)
  | itself (folded : Text)

/-- The meaning of a code. One that no table has is taken in any case. -/
def meaning (code : Text) : Meaning :=
  match identify? code with
  | some (_, part3) => .language part3
  | none => .itself ((Text.trim code).map Char.toLower)

theorem identify?_eq_of_equalIgnoringCase {a b : Text}
    (same : Text.equalIgnoringCase (Text.trim a) (Text.trim b)) : identify? a = identify? b := by
  rw [identify?, identify?, Text.lowercase_eq_of_equalIgnoringCase same]

/-- Codes match exactly if they mean the same. -/
theorem codesMatch_iff (a b : Text) : codesMatch a b ↔ meaning a = meaning b := by
  by_cases same : Text.equalIgnoringCase (Text.trim a) (Text.trim b)
  · have folded := Text.equalIgnoringCase_iff.mp same
    have identified := identify?_eq_of_equalIgnoringCase same
    simp only [codesMatch, meaning, same, identified, folded, Bool.true_or]
  · have differ : (Text.trim a).map Char.toLower ≠ (Text.trim b).map Char.toLower :=
      fun equal => same (Text.equalIgnoringCase_iff.mpr equal)
    simp only [codesMatch, meaning, Bool.eq_false_iff.mpr same, Bool.false_or]
    cases identify? a <;> cases identify? b <;> simp [differ]

/-- Matching is an equivalence, being equality of meanings. -/
theorem equivalence_codesMatch : Equivalence fun a b => codesMatch a b = true := by
  have sameMeaning : (fun a b => codesMatch a b = true) = fun a b => meaning a = meaning b := by
    funext a b
    exact propext (codesMatch_iff a b)
  rw [sameMeaning]
  exact InvImage.equivalence _ meaning eq_equivalence

/-- Matching codes match the same codes. -/
theorem codesMatch_congr {a b : Text} (alike : codesMatch a b) (code : Text) :
    codesMatch code a = codesMatch code b := by
  rw [Bool.eq_iff_iff, codesMatch_iff, codesMatch_iff, (codesMatch_iff a b).mp alike]

/-! ## Requests -/

variable {request : Text} {tags : List Text}

theorem resolve?_of_mem (isTag : request ∈ tags) : resolve? request tags = some request := by
  have isFound : (tags.find? (· = request)).isSome :=
    List.find?_isSome.mpr ⟨request, isTag, decide_eq_true rfl⟩
  obtain ⟨tag, found⟩ := Option.isSome_iff_exists.mp isFound
  have same : tag = request := by simpa using List.find?_some found
  simp only [resolve?, found, same]

theorem resolve?_of_not_mem (noTag : request ∉ tags) :
    resolve? request tags = tags.find? (codesMatch · request) := by
  have absent : tags.find? (· = request) = none := by
    apply List.find?_eq_none.mpr
    intro tag member same
    have same : tag = request := by simpa using same
    exact noTag (same ▸ member)
  simp only [resolve?, absent]

/-- How requests are resolved against the tags of a deck. -/
structure ResolvesByMatching (tags : List Text) : Prop where
  tag : ∀ request ∈ tags, resolve? request tags = some request
  first : ∀ request, request ∉ tags → ∀ tag, resolve? request tags = some tag ↔
    ∃ before after, tags = before ++ tag :: after ∧ codesMatch tag request ∧
      ∀ other ∈ before, codesMatch other request = false
  nothing : ∀ request, resolve? request tags = none ↔ ∀ tag ∈ tags, codesMatch tag request = false
  matching : ∀ request tag, resolve? request tags = some tag → codesMatch tag request
  respectful : ∀ request other, codesMatch request other → request ∉ tags → other ∉ tags →
    resolve? request tags = resolve? other tags

/-- Matching is an equivalence, and requests are resolved by it, whatever the tables have. -/
theorem equivalence_and_resolvesByMatching :
    Equivalence (fun a b => codesMatch a b = true) ∧ ∀ tags, ResolvesByMatching tags := by
  refine ⟨equivalence_codesMatch, fun tags => ?_⟩
  have self (request : Text) : codesMatch request request := equivalence_codesMatch.refl request
  refine {
    tag := fun request isTag => resolve?_of_mem isTag
    first := ?first
    nothing := ?nothing
    matching := ?matching
    respectful := ?respectful }
  case first =>
    intro request noTag tag
    rw [resolve?_of_not_mem noTag, List.find?_eq_some_iff_append]
    simp only [Bool.not_eq_true']
    tauto
  case nothing =>
    intro request
    by_cases isTag : request ∈ tags
    · have found := resolve?_of_mem isTag
      constructor
      · simp [found]
      · intro none
        exact absurd (self request) (by simp [none request isTag])
    · simp [resolve?_of_not_mem isTag]
  case matching =>
    intro request tag found
    by_cases isTag : request ∈ tags
    · rw [resolve?_of_mem isTag] at found
      exact Option.some.inj found ▸ self request
    · rw [resolve?_of_not_mem isTag] at found
      have passed := List.find?_some found
      exact passed
  case respectful =>
    intro request other alike noTag noOther
    rw [resolve?_of_not_mem noTag, resolve?_of_not_mem noOther]
    congr 1
    exact funext fun code => codesMatch_congr alike code

end

end Language
end Lectern
