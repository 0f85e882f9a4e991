import Lectern.Deck.Basic
import Lectern.Proofs.OrderedMap

/-!
# Texts of elements

What the generated output shows of an element besides its content: a parameter or its fallback, and
the name of its kind. A character that the author did not write, and that no fixed name has, is in
neither of them.
-/

namespace Lectern.Element

variable (element : Element) {c : Char}

theorem absent_paramOr (values : ∀ binding ∈ element.params.entries, c ∉ binding.2)
    {fallback : Text} (absent : c ∉ fallback) (key : Text) :
    c ∉ element.paramOr key fallback := by
  rw [paramOr, param?, OrderedMap.get?]
  cases found : OrderedMap.find key element.params.entries with
  | none => exact absent
  | some value => exact values _ (OrderedMap.mem_of_find_eq_some found)

/-- The name of an element's kind is its type word or one of the fixed names. -/
theorem absent_displayName (typeName : c ∉ element.typeName)
    (fixed : ∀ entry ∈ ElementKind.named, c ∉ entry.2.displayName) :
    c ∉ element.kind.displayName := by
  rw [kind, ElementKind.ofName]
  cases known : ElementKind.named.lookup (Text.lowercase element.typeName) with
  | none => exact typeName
  | some kind =>
    obtain ⟨before, behind, all, -⟩ := List.lookup_eq_some_iff.mp known
    have member : (Text.lowercase element.typeName, kind) ∈ ElementKind.named := by simp [all]
    exact fixed _ member

end Lectern.Element
