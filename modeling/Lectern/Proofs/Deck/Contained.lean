import Lectern.Proofs.Deck.ParamsReading
import Lectern.Proofs.Deck.Segmentation
import Lectern.Proofs.Text.Word

/-!
# What a read deck can hold

Whatever text is read, its header fields, titles, type words and parameters stay on one line, what
is trimmed stays trimmed, and no line of an element's content opens another element.
`contained_parseScenes` and `oneLine_parse` derive this from the readers alone, with no assumption
on the text.
-/

namespace Lectern

/-- A header whose fields are parts of lines. -/
structure Header.OneLine (header : Header) : Prop where
  title : '\n' ∉ header.title
  author : '\n' ∉ header.author
  style : '\n' ∉ header.style

/-- An element that keeps to its header line and its content. -/
structure Element.Contained (element : Element) : Prop where
  typeName : element.typeName ≠ []
  noFeedInType : '\n' ∉ element.typeName
  params : ∀ binding ∈ element.params.entries, Params.WritableBinding binding
  trimmed : Text.trim element.content = element.content
  noHeader : ∀ line ∈ element.content.splitOn '\n', ElementHeader.ofLine? line = none

/-- A scene that keeps to its marker line and its elements. -/
structure Scene.Contained (scene : Scene) : Prop where
  noFeed : '\n' ∉ scene.title
  trimmed : Text.trim scene.title = scene.title
  elements : ∀ element ∈ scene.elements, element.Contained

/-- A document in which every text keeps to its place. -/
structure Document.Contained (document : Document) : Prop where
  header : document.header.OneLine
  scenes : ∀ scene ∈ document.scenes, scene.Contained

/-! ## Bindings -/

namespace Params

/-- Every parameter of a list on one line can be written back. -/
theorem writable_ofText {text : Text} (noFeed : '\n' ∉ text) :
    ∀ binding ∈ (ofText text).entries, WritableBinding binding := by
  intro binding member
  obtain ⟨token, inTokens, read⟩ := List.mem_filterMap.mp (OrderedMap.mem_of_mem_ofList member)
  obtain ⟨trimmed, noEquals, keyInToken, valueInToken⟩ := of_binding?_eq_some read
  have noComma : ',' ∉ token := Text.absent_of_mem_splitOn inTokens
  have noFeedInToken : '\n' ∉ token := fun inside =>
    noFeed (Text.subset_of_mem_splitOn inTokens inside)
  exact {
    trimmedKey := trimmed
    noCommaInKey := fun inside => noComma (keyInToken.subset inside)
    noEqualsInKey := noEquals
    noFeedInKey := fun inside => noFeedInToken (keyInToken.subset inside)
    noCommaInValue := fun inside => noComma (valueInToken.subset inside)
    noFeedInValue := fun inside => noFeedInToken (valueInToken.subset inside) }

end Params

/-! ## Headers -/

namespace Header

theorem noFeed_lastValue? {entries : List (Text × Text)}
    (noFeed : ∀ entry ∈ entries, '\n' ∉ entry.2) {key value : Text}
    (found : lastValue? key entries = some value) : '\n' ∉ value := by
  obtain ⟨entry, last, rfl⟩ := Option.map_eq_some_iff.mp found
  exact noFeed entry (List.mem_reverse.mp (List.mem_of_find?_eq_some last))

theorem oneLine_ofEntries {entries : List (Text × Text)}
    (noFeed : ∀ entry ∈ entries, '\n' ∉ entry.2) : (ofEntries entries).OneLine := by
  have field (key fallback : Text) (noFeedInFallback : '\n' ∉ fallback) :
      '\n' ∉ (lastValue? key entries).getD fallback := by
    cases found : lastValue? key entries with
    | none => exact noFeedInFallback
    | some value => exact noFeed_lastValue? noFeed found
  exact ⟨field _ _ (by decide), field _ _ (by decide), field _ _ (by decide)⟩

/-- The entries of a header block come from lines. -/
theorem noFeed_entries? {source : Text} {entries : List (Text × Text)}
    (read : entries? source = some entries) : ∀ entry ∈ entries, '\n' ∉ entry.2 := by
  simp only [entries?, Option.bind_eq_bind, Option.bind_eq_some_iff] at read
  obtain ⟨rest, -, ⟨block, behind⟩, -, same⟩ := read
  obtain rfl := Option.some.inj same
  intro entry member
  obtain ⟨line, inLines, bound⟩ := List.mem_filterMap.mp member
  have inLine := (Params.of_binding?_eq_some bound).2.2.2
  exact fun inside => Text.noFeed_of_mem_lines inLines (inLine.subset inside)

/-- Every header that is read has its fields on one line. -/
theorem oneLine_parse (source : Text) : (parse source).OneLine := by
  apply oneLine_ofEntries
  cases read : entries? source with
  | none => simp
  | some entries => exact noFeed_entries? read

end Header

/-! ## Element headers -/

namespace ElementHeader

theorem noFeed_list? {afterName list : Text} (read : list? afterName = some list) :
    '\n' ∉ list := by
  rw [list?] at read
  split at read
  · obtain rfl := Option.some.inj read
    exact List.not_mem_nil
  · rename_i inner opened
    split at read
    · rename_i closed
      obtain rfl := Option.some.inj read
      exact fun inside => closed.2 (List.dropLast_subset _ inside)
    · cases read
  · cases read

/-- What is read from any line, with or without line feeds, has none of its own. -/
theorem of_ofLine?_eq_some {line : Text} {header : ElementHeader}
    (read : ofLine? line = some header) :
    header.typeName ≠ [] ∧ '\n' ∉ header.typeName ∧ '\n' ∉ header.list := by
  rw [ofLine?] at read
  split at read
  · rename_i rest marked
    dsimp only at read
    split at read
    · cases read
    · rename_i named
      obtain ⟨list, listed, rfl⟩ := Option.map_eq_some_iff.mp read
      refine ⟨named, ?_, noFeed_list? listed⟩
      intro inside
      have word := List.mem_takeWhile_imp inside
      have blank : Text.isBlank '\n' = true := by decide
      rw [Text.not_blank_of_isWordChar word] at blank
      cases blank
  · cases read

end ElementHeader

/-! ## Scenes and documents -/

namespace Scene

/-- An element has its header line's parts and trimmed content without header lines. -/
theorem contained_elementOf {lines : List Text} (noFeed : ∀ line ∈ lines, '\n' ∉ line)
    {segment : ElementHeader × List Text}
    (member : segment ∈ Segment.marked ElementHeader.ofLine? lines) :
    (elementOf segment).Contained := by
  obtain ⟨line, -, read⟩ := Segment.exists_marked_of_mem_split member
  obtain ⟨typeName, noFeedInType, noFeedInList⟩ := ElementHeader.of_ofLine?_eq_some read
  have unmarked := (Segment.unmarked_of_mem_split lines).2 segment member
  have inLines := (Segment.split_subset lines).2 segment member
  refine ⟨typeName, noFeedInType, Params.writable_ofText noFeedInList, Text.trim_trim _, ?_⟩
  intro line inContent
  obtain ⟨original, inJoined, same⟩ := Text.linesAmong_trim _ line inContent
  have sameReading : ElementHeader.ofLine? line = ElementHeader.ofLine? original := by
    rw [ElementHeader.ofLine?, ElementHeader.ofLine?, same]
  rw [sameReading]
  by_cases empty : segment.2 = []
  · -- Content without lines is the empty text, whose only line is empty.
    rw [empty] at inJoined
    obtain rfl : original = [] := by simpa [Text.joinLines] using inJoined
    rfl
  · have lines := List.splitOn_intercalate '\n' (fun line inside => noFeed line (inLines inside))
      empty
    rw [Text.joinLines, lines] at inJoined
    exact unmarked original inJoined

theorem contained_ofSegment {lines : List Text} (noFeed : ∀ line ∈ lines, '\n' ∉ line)
    {segment : Text × List Text} (member : segment ∈ Segment.marked title? lines) :
    (ofSegment segment).Contained := by
  obtain ⟨line, inLines, read⟩ := Segment.exists_marked_of_mem_split member
  have bodyInLines := (Segment.split_subset lines).2 segment member
  rw [title?] at read
  split at read
  · have title := Option.some.inj read
    have titleInLine : segment.1 ⊆ line := by
      rw [← title]
      exact List.Subset.trans (Text.trim_subset _) (List.drop_subset ..)
    refine ⟨fun inside => noFeed line inLines (titleInLine inside), ?_, ?_⟩
    · change Text.trim segment.1 = segment.1
      rw [← title, Text.trim_trim]
    · intro element inScene
      have noFeedInBody : ∀ line ∈ segment.2.map Text.dropReturn, '\n' ∉ line := by
        intro line inside
        obtain ⟨original, inBody, rfl⟩ := List.mem_map.mp inside
        exact fun feed => noFeed original (bodyInLines inBody) (Text.dropReturn_subset _ feed)
      rw [ofSegment, parseElements_eq_marked] at inScene
      obtain ⟨part, inMarked, rfl⟩ := List.mem_map.mp inScene
      exact contained_elementOf noFeedInBody inMarked
  · cases read

end Scene

namespace Document

theorem contained_parseScenes (source : Text) :
    ∀ scene ∈ parseScenes source, scene.Contained := by
  intro scene member
  rw [parseScenes_eq_marked] at member
  obtain ⟨segment, inMarked, rfl⟩ := List.mem_map.mp member
  exact Scene.contained_ofSegment (fun _ => Text.absent_of_mem_splitOn) inMarked

/-- Every text that is read keeps to its place. -/
theorem contained_parse (source : Text) : (parse source).Contained :=
  ⟨Header.oneLine_parse source, contained_parseScenes source⟩

end Document
end Lectern
