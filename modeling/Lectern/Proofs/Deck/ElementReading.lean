import Lectern.Proofs.Deck.ElementGrammar
import Lectern.Proofs.Deck.Segmentation

/-!
# Reading elements

The header line of an element is read back as its type word and parameters, and the lines of an
element form one segment of the scene that has its content.
-/

namespace Lectern

/-! ## Element headers -/

namespace Element

variable {element : Element} {list : Text}

theorem headerLine_eq (element : Element) (list : Text) :
    element.headerLine list = '#' :: '#' :: ' ' :: (element.typeName ++ list) := by
  simp [headerLine]

theorem trim_headerLine (writable : element.Writable) (source : element.params.Source list) :
    Text.trim (element.headerLine list) = '#' :: '#' :: ' ' :: (element.typeName ++ list) := by
  rw [headerLine_eq]
  apply Text.trim_eq_self
  · intro c first
    obtain rfl : '#' = c := by simpa using first
    decide
  · intro c last
    have notEmpty := writable.typeName
    cases behind : list.getLast? with
    | some d =>
      obtain rfl : d = c := by simpa [List.getLast?_cons, List.getLast?_append, behind] using last
      exact source.notBlank d behind
    | none =>
      obtain rfl : list = [] := List.getLast?_eq_none_iff.mp behind
      have lastOfName : ('#' :: '#' :: ' ' :: element.typeName).getLast? =
          element.typeName.getLast? :=
        List.getLast?_append_of_ne_nil ['#', '#', ' '] notEmpty
      rw [List.append_nil, lastOfName] at last
      exact Text.not_blank_of_isWordChar (writable.word c (List.mem_of_getLast? last))

/-- A written list stands behind the type word as the grammar has it, also where there is none. -/
theorem exists_listPart (writable : element.Writable) (source : element.params.Source list) :
    ∃ part, ElementHeader.ListPart list part ∧ (∀ inner ∈ part, '\n' ∉ inner) ∧
      Params.ofText (part.getD []) = element.params := by
  cases source with
  | @list bindings order =>
    have noGap : ∀ c ∈ ([] : Text), Text.isBlank c := by simp
    have listed := ElementHeader.ListPart.list noGap (Params.listSource bindings)
    have noFeed := Params.noFeed_listSource fun binding member =>
      writable.params binding (order.mem_iff.mp member)
    refine ⟨some (Params.listSource bindings), ?_, ?_,
      Params.ofText_listSource order writable.params⟩
    · simpa using listed
    · rintro inner same
      obtain rfl := Option.some.inj same
      exact noFeed
  | absent empty =>
    have none : [].Perm element.params.entries := by rw [empty]
    exact ⟨.none, .absent, by simp, Params.ofText_listSource none writable.params⟩

/-- The header line of an element is read back. -/
theorem ofLine?_headerLine (writable : element.Writable) (source : element.params.Source list) :
    ∃ inner, ElementHeader.ofLine? (element.headerLine list) = some ⟨element.typeName, inner⟩ ∧
      Params.ofText inner = element.params := by
  obtain ⟨part, listed, noFeed, params⟩ := exists_listPart writable source
  have space : ∀ c ∈ [' '], Text.isBlank c := List.forall_mem_singleton.mpr (by decide)
  have written := ElementHeader.Written.header space writable.typeName writable.word
    source.notWord listed
  refine ⟨part.getD [], ElementHeader.Written.ofLine?_eq ?_ noFeed, params⟩
  rw [trim_headerLine writable source]
  exact written

/-! ## Content -/

/-- The lines of an element: its header line and the lines of its content. -/
def linesWith (element : Element) (list : Text) : List Text :=
  element.headerLine list :: element.content.splitOn '\n'

theorem ofLines_linesWith (element : Element) (list : Text) :
    Text.ofLines (element.linesWith list) =
      element.headerLine list ++ "\n" ++ element.content ++ "\n" := by
  rw [linesWith, Text.ofLines_cons, Text.ofLines_splitOn]
  simp

theorem noFeed_linesWith (writable : element.Writable) (source : element.params.Source list) :
    ∀ line ∈ element.linesWith list, '\n' ∉ line := by
  intro line member
  rcases List.mem_cons.mp member with rfl | inside
  · have noFeedInName : '\n' ∉ element.typeName := by
      intro inside
      have noWord : Text.isWordChar '\n' = false := by decide +kernel
      simp [writable.word _ inside] at noWord
    simp [headerLine_eq, noFeedInName, source.noFeed writable.params]
  · exact Text.absent_of_mem_splitOn inside

theorem unmarked_linesWith (writable : element.Writable) (list : Text) :
    ∀ line ∈ element.linesWith list, ¬ Scene.mark <+: line := by
  intro line member
  rcases List.mem_cons.mp member with rfl | inside
  · intro start
    obtain ⟨more, mark⟩ : ∃ more, Scene.mark = '#' :: ' ' :: more := ⟨_, rfl⟩
    rw [mark, headerLine_eq, List.cons_prefix_cons, List.cons_prefix_cons] at start
    exact absurd start.2.1 (by decide)
  · exact writable.noMarker line inside

/-- The lines of the content lose no return, since none stands at the end of a line. -/
theorem map_dropReturn_content (writable : element.Writable) :
    (element.content.splitOn '\n').map Text.dropReturn = element.content.splitOn '\n' := by
  apply Text.map_dropReturn_splitOn
  · simpa using writable.noReturn
  · intro last
    rw [← writable.trimmed] at last
    have notBlank := Text.not_blank_of_getLast?_trim last
    exact absurd notBlank (by decide)

/-- The lines of an element open a segment that reads as the element. -/
theorem split_linesWith (writable : element.Writable) (source : element.params.Source list)
    {more : List Text} {segments : List (ElementHeader × List Text)}
    (behind : Segment.split ElementHeader.ofLine? more = ([], segments)) :
    ∃ segment, Scene.elementOf segment = element ∧
      Segment.split ElementHeader.ofLine?
        ((element.linesWith list).map Text.dropReturn ++ more) = ([], segment :: segments) := by
  obtain ⟨inner, read, params⟩ := ofLine?_headerLine writable source
  have joined : Text.joinLines (element.content.splitOn '\n') = element.content :=
    List.intercalate_splitOn '\n'
  refine ⟨(⟨element.typeName, inner⟩, element.content.splitOn '\n'), ?_, ?_⟩
  · rw [Scene.elementOf, ElementHeader.params, params, joined, writable.trimmed]
  · have readHere : ElementHeader.ofLine? (Text.dropReturn (element.headerLine list)) =
        some ⟨element.typeName, inner⟩ := by rw [ElementHeader.ofLine?_dropReturn, read]
    rw [linesWith, List.map_cons, map_dropReturn_content writable, List.cons_append,
      Segment.split_cons_of_some readHere, Segment.split_append writable.noHeader, behind,
      List.append_nil]

end Element

end Lectern
