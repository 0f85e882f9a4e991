import Lectern.Latex.Columns
import Lectern.Proofs.Deck.BodyLine
import Lectern.Proofs.Segment

/-!
# Lines of a layout

A layout distributes the lines of its content. `ofContent_byMarkers` says how: with fewer than two
declared widths all lines stay together, and otherwise the column with a number holds the lines
strictly between the marker with this number and the next marker, described by positions alone.
-/

namespace Lectern.Latex

/-- The content lines that a layout shows. -/
def Layout.lines : Layout → List Text
  | .single lines => lines
  | .columns parts => parts.flatMap Column.lines

/-- The lines of a column are lines of the content. -/
theorem subset_of_mem_partition {lines part : List Text} {count : Nat}
    (member : part ∈ partition lines count) : part ⊆ lines := by
  rcases List.mem_append.mp member with behind | missing
  · obtain ⟨segment, inSegments, rfl⟩ := List.mem_map.mp (List.mem_of_mem_take behind)
    exact (Segment.split_subset lines).2 segment inSegments
  · rw [List.eq_of_mem_replicate missing]
    exact List.nil_subset _

/-- A layout shows lines of its content and nothing else. -/
theorem Layout.lines_ofContent_subset (content : Text) :
    (ofContent content).lines ⊆ Text.lines content := by
  intro line member
  rw [ofContent] at member
  split at member
  · exact member
  · obtain ⟨column, inColumns, inLines⟩ := List.mem_flatMap.mp member
    obtain ⟨⟨width, percent, lines⟩, inZip, rfl⟩ := List.mem_map.mp inColumns
    have inPartition := (List.of_mem_zip (List.of_mem_zip inZip).2).2
    exact subset_of_mem_partition inPartition inLines

/-- What a layout shows is made of the characters of its content. -/
theorem Layout.subset_of_mem_lines {content line : Text}
    (member : line ∈ (ofContent content).lines) : line ⊆ content :=
  Text.subset_of_mem_lines (lines_ofContent_subset content member)

/-! ## Columns by the positions of their markers -/

/-- The positions of the column markers among lines, in order. -/
def markerPositions (lines : List Text) : List Nat :=
  (List.range lines.length).filter fun position =>
    lines[position]?.any BodyLine.isColumnMarker

/-- How columns show lines. There is one for each declared width; a column holds what is strictly
between its marker and the next one, and the columns together hold, in order and once, all lines
between the first marker and the marker behind the last column that are no markers themselves. -/
structure ShowsColumns (lines : List Text) (columns : List Column) : Prop where
  widths : columns.map Column.width = declaredWidths lines
  percents : columns.map Column.percent = percents (declaredWidths lines)
  marked : columns.length ≤ (markerPositions lines).length
  between : ∀ (number : Nat) (column : Column), columns[number]? = some column →
    ∃ marker, (markerPositions lines)[number]? = some marker ∧
      column.lines = Segment.between lines marker
        ((markerPositions lines)[number + 1]?.getD lines.length)
  together : ∀ first ∈ (markerPositions lines).head?,
    columns.flatMap Column.lines =
      (Segment.between lines first
        ((markerPositions lines)[columns.length]?.getD lines.length)).filter
          fun line => !BodyLine.isColumnMarker line

/-- What holds besides where every marker declares a width: no line behind the first marker is
left out, and each column has the width of the marker that opens it. -/
structure MatchesMarkers (lines : List Text) (columns : List Column) : Prop where
  everyMarker : columns.length = (markerPositions lines).length
  together : ∀ first ∈ (markerPositions lines).head?,
    columns.flatMap Column.lines =
      (lines.drop (first + 1)).filter fun line => !BodyLine.isColumnMarker line
  ownWidth : ∀ (number marker : Nat) (column : Column), columns[number]? = some column →
    (markerPositions lines)[number]? = some marker →
    lines[marker]?.bind BodyLine.columnWidth? = some column.width

/-- What the cut into columns looks for. -/
def columnMark? (line : Text) : Option Unit :=
  if BodyLine.isColumnMarker line then some () else none

theorem isNone_columnMark? (line : Text) :
    (columnMark? line).isNone = !BodyLine.isColumnMarker line := by
  rw [columnMark?]
  cases BodyLine.isColumnMarker line <;> rfl

theorem markerPositions_cons (line : Text) (lines : List Text) :
    markerPositions (line :: lines) =
      (if BodyLine.isColumnMarker line then [0] else [])
        ++ (markerPositions lines).map (· + 1) := by
  have behind : (((List.range lines.length).map Nat.succ).filter fun position =>
      (line :: lines)[position]?.any BodyLine.isColumnMarker) =
        (markerPositions lines).map (· + 1) := by
    rw [List.filter_map]
    rfl
  rw [markerPositions, List.length_cons, List.range_succ_eq_map, List.filter_cons, behind]
  cases marker : BodyLine.isColumnMarker line <;> simp [marker]

theorem markerPositions_eq (lines : List Text) :
    markerPositions lines = Segment.positions columnMark? lines := by
  induction lines with
  | nil => rfl
  | cons line lines ih =>
    rw [markerPositions_cons, ih]
    cases marker : BodyLine.isColumnMarker line with
    | false =>
      have unmarked : columnMark? line = none := by simp [columnMark?, marker]
      rw [Segment.positions_cons_of_none unmarked]
      rfl
    | true =>
      have marked : columnMark? line = some () := by simp [columnMark?, marker]
      rw [Segment.positions_cons_of_some marked]
      rfl

/-- Only markers declare widths. -/
theorem columnWidth?_of_not_marker {line : Text} (plain : BodyLine.isColumnMarker line = false) :
    BodyLine.columnWidth? line = none := by
  simp [BodyLine.columnWidth?, plain]

/-- The declared widths are those of the markers, position by position. -/
theorem declaredWidths_eq (lines : List Text) :
    declaredWidths lines = (markerPositions lines).filterMap fun position =>
      lines[position]?.bind BodyLine.columnWidth? := by
  induction lines with
  | nil => rfl
  | cons line lines ih =>
    have behind : ((markerPositions lines).map (· + 1)).filterMap (fun position =>
        (line :: lines)[position]?.bind BodyLine.columnWidth?) = declaredWidths lines := by
      rw [ih, List.filterMap_map]
      rfl
    rw [markerPositions_cons, List.filterMap_append, behind, declaredWidths, List.filterMap_cons]
    cases marker : BodyLine.isColumnMarker line with
    | false =>
      rw [columnWidth?_of_not_marker marker]
      rfl
    | true => cases declared : BodyLine.columnWidth? line <;> simp [declared, declaredWidths]

theorem length_declaredWidths_le (lines : List Text) :
    (declaredWidths lines).length ≤ (markerPositions lines).length := by
  rw [declaredWidths_eq]
  exact List.length_filterMap_le ..

/-- Where there is a marker for each column, the columns are the first segments. -/
theorem partition_eq {lines : List Text} {count : Nat}
    (enough : count ≤ (markerPositions lines).length) :
    partition lines count = ((Segment.marked columnMark? lines).take count).map Prod.snd := by
  have noneMissing : count - (Segment.marked columnMark? lines).length = 0 := by
    rw [Segment.length_marked, ← markerPositions_eq]
    omega
  change ((Segment.marked columnMark? lines).map Prod.snd).take count
    ++ List.replicate (count - ((Segment.marked columnMark? lines).map Prod.snd).length) [] = _
  rw [List.length_map, noneMissing, List.replicate_zero, List.append_nil, List.map_take]

theorem length_percents (widths : List Nat) : (percents widths).length = widths.length := by
  rw [percents]
  split <;> exact List.length_map ..

/-- The columns of declared widths. -/
def columnsOf (lines : List Text) : List Column :=
  let widths := declaredWidths lines
  (widths.zip ((percents widths).zip (partition lines widths.length))).map
    fun (width, percent, lines) => ⟨width, percent, lines⟩

section

variable (lines : List Text)

theorem length_partition :
    (partition lines (declaredWidths lines).length).length = (declaredWidths lines).length := by
  have enough := length_declaredWidths_le lines
  rw [partition_eq enough, List.length_map, List.length_take, Segment.length_marked,
    ← markerPositions_eq]
  omega

/-- Nothing is lost where widths, percents and lines are put together. -/
theorem parts_columnsOf :
    (columnsOf lines).map Column.width = declaredWidths lines ∧
      (columnsOf lines).map Column.percent = percents (declaredWidths lines) ∧
      (columnsOf lines).map Column.lines = partition lines (declaredWidths lines).length := by
  have samePercents := length_percents (declaredWidths lines)
  have sameLines := length_partition lines
  have behind : ((declaredWidths lines).zip ((percents (declaredWidths lines)).zip
      (partition lines (declaredWidths lines).length))).map Prod.snd =
        (percents (declaredWidths lines)).zip (partition lines (declaredWidths lines).length) :=
    List.map_snd_zip (by simp [samePercents, sameLines])
  rw [columnsOf, List.map_map, List.map_map, List.map_map]
  refine ⟨List.map_fst_zip (by simp [samePercents, sameLines]), ?_, ?_⟩
  · calc
      _ = (((declaredWidths lines).zip ((percents (declaredWidths lines)).zip
            (partition lines (declaredWidths lines).length))).map Prod.snd).map Prod.fst :=
          (List.map_map ..).symm
      _ = percents (declaredWidths lines) := by
          rw [behind, List.map_fst_zip (by omega)]
  · calc
      _ = (((declaredWidths lines).zip ((percents (declaredWidths lines)).zip
            (partition lines (declaredWidths lines).length))).map Prod.snd).map Prod.snd :=
          (List.map_map ..).symm
      _ = partition lines (declaredWidths lines).length := by
          rw [behind, List.map_snd_zip (by omega)]

/-- The lines of the columns are the first segments behind markers. -/
theorem map_lines_columnsOf :
    (columnsOf lines).map Column.lines =
      ((Segment.marked columnMark? lines).take (declaredWidths lines).length).map Prod.snd := by
  rw [(parts_columnsOf lines).2.2, partition_eq (length_declaredWidths_le lines)]

theorem length_columnsOf : (columnsOf lines).length = (declaredWidths lines).length := by
  rw [← (parts_columnsOf lines).1, List.length_map]

theorem stopAt_columnMark? (number : Nat) :
    Segment.stopAt columnMark? lines number =
      (markerPositions lines)[number]?.getD lines.length := by
  rw [Segment.stopAt, markerPositions_eq]

/-- The lines of a column are those behind its marker. -/
theorem between_columnsOf {number : Nat} {column : Column}
    (here : (columnsOf lines)[number]? = some column) :
    ∃ marker, (markerPositions lines)[number]? = some marker ∧
      column.lines = Segment.between lines marker
        ((markerPositions lines)[number + 1]?.getD lines.length) := by
  have inColumns : ((columnsOf lines).map Column.lines)[number]? = some column.lines := by
    rw [List.getElem?_map, here, Option.map_some]
  rw [map_lines_columnsOf, List.getElem?_map, Option.map_eq_some_iff] at inColumns
  obtain ⟨segment, inSegments, same⟩ := inColumns
  have inMarked : (Segment.marked columnMark? lines)[number]? = some segment := by
    rw [List.getElem?_take] at inSegments
    split at inSegments
    · exact inSegments
    · cases inSegments
  rw [Segment.getElem?_marked, Option.map_eq_some_iff] at inMarked
  obtain ⟨⟨mark, marker⟩, inMarks, rfl⟩ := inMarked
  refine ⟨marker, ?_, ?_⟩
  · rw [markerPositions_eq, Segment.positions, List.getElem?_map, inMarks, Option.map_some]
  · rw [← same, stopAt_columnMark?]

/-- The columns together hold what is behind the first marker. -/
theorem together_columnsOf (columned : declaredWidths lines ≠ []) {first : Nat}
    (isFirst : first ∈ (markerPositions lines).head?) :
    (columnsOf lines).flatMap Column.lines =
      (Segment.between lines first
        ((markerPositions lines)[(columnsOf lines).length]?.getD lines.length)).filter
          fun line => !BodyLine.isColumnMarker line := by
  obtain ⟨count, isLength⟩ : ∃ count, (declaredWidths lines).length = count + 1 :=
    Nat.exists_eq_succ_of_ne_zero (by simpa using columned)
  have start : Segment.stopAt columnMark? lines 0 = first := by
    rw [stopAt_columnMark?, ← List.head?_eq_getElem?, isFirst, Option.getD_some]
  rw [List.flatMap_def, map_lines_columnsOf, ← List.flatMap_def, length_columnsOf, isLength,
    Segment.flatMap_take_marked, start, stopAt_columnMark?]
  simp only [isNone_columnMark?]

theorem showsColumns_columnsOf (columned : declaredWidths lines ≠ []) :
    ShowsColumns lines (columnsOf lines) where
  widths := (parts_columnsOf lines).1
  percents := (parts_columnsOf lines).2.1
  marked := by
    rw [length_columnsOf]
    exact length_declaredWidths_le lines
  between _ _ here := between_columnsOf lines here
  together _ isFirst := together_columnsOf lines columned isFirst

theorem mem_markerPositions {position : Nat} :
    position ∈ markerPositions lines ↔
      ∃ line, lines[position]? = some line ∧ BodyLine.isColumnMarker line := by
  rw [markerPositions, List.mem_filter, List.mem_range, Option.any_eq_true]
  constructor
  · exact fun ⟨_, marker⟩ => marker
  · intro ⟨line, here, marker⟩
    exact ⟨(List.getElem?_eq_some_iff.mp here).1, line, here, marker⟩

/-- Where every marker declares a width, the widths are those of the markers one by one. -/
theorem map_declaredWidths
    (declared : ∀ line ∈ lines, BodyLine.isColumnMarker line →
      (BodyLine.columnWidth? line).isSome) :
    (declaredWidths lines).map some = (markerPositions lines).map fun position =>
      lines[position]?.bind BodyLine.columnWidth? := by
  rw [declaredWidths_eq, List.map_filterMap_some_eq_filter_map_isSome, List.filter_eq_self]
  intro width member
  obtain ⟨position, isMarker, rfl⟩ := List.mem_map.mp member
  obtain ⟨line, here, marker⟩ := (mem_markerPositions lines).mp isMarker
  rw [here]
  exact declared line (List.mem_of_getElem? here) marker

theorem matchesMarkers_columnsOf (columned : declaredWidths lines ≠ [])
    (declared : ∀ line ∈ lines, BodyLine.isColumnMarker line →
      (BodyLine.columnWidth? line).isSome) :
    MatchesMarkers lines (columnsOf lines) := by
  have widths := map_declaredWidths lines declared
  have everyMarker : (columnsOf lines).length = (markerPositions lines).length := by
    have lengths := congrArg List.length widths
    rwa [List.length_map, List.length_map, ← length_columnsOf] at lengths
  refine ⟨everyMarker, ?_, ?_⟩
  · intro first isFirst
    have noMarker : (markerPositions lines)[(columnsOf lines).length]? = none := by
      rw [everyMarker]
      exact List.getElem?_eq_none (Nat.le_refl _)
    rw [together_columnsOf lines columned isFirst, noMarker, Option.getD_none, Segment.between,
      List.take_length]
  · intro number marker column inColumns isMarker
    have width : ((declaredWidths lines).map some)[number]? = some (some column.width) := by
      rw [← (parts_columnsOf lines).1, List.map_map, List.getElem?_map, inColumns]
      rfl
    rw [widths, List.getElem?_map, isMarker, Option.map_some] at width
    exact Option.some.inj width

end

/-- Content with fewer than two declared widths keeps its lines together. Other content has one
column for each declared width, which holds what is strictly between its marker and the next one;
the markers are counted with and without widths, so a width belongs to the marker of its column
where every marker declares one. -/
theorem ofContent_byMarkers (content : Text) :
    ((declaredWidths (Text.lines content)).length < 2 →
      Layout.ofContent content = .single (Text.lines content)) ∧
    (2 ≤ (declaredWidths (Text.lines content)).length →
      ∃ columns, Layout.ofContent content = .columns columns ∧
        ShowsColumns (Text.lines content) columns ∧
        ((∀ line ∈ Text.lines content, BodyLine.isColumnMarker line →
            (BodyLine.columnWidth? line).isSome) →
          MatchesMarkers (Text.lines content) columns)) := by
  constructor
  · intro few
    rw [Layout.ofContent]
    exact if_pos few
  · intro enough
    have columned : declaredWidths (Text.lines content) ≠ [] := by
      intro none
      rw [none] at enough
      cases enough
    refine ⟨columnsOf (Text.lines content), ?_, showsColumns_columnsOf _ columned,
      matchesMarkers_columnsOf _ columned⟩
    rw [Layout.ofContent]
    exact if_neg (Nat.not_lt.mpr enough)

/-- Content with a line in front of two columns. -/
def twoColumns : Text := "in front\n### Column(width=1)\nleft\n### column(width=3)\nright"

/-- Content with a column marker that stands alone. -/
def oneColumn : Text := "in front\n### Column(width=1)\nleft"

theorem ofContent_twoColumns :
    ((declaredWidths (Text.lines oneColumn)).length < 2 ∧
      Layout.ofContent oneColumn = .single (Text.lines oneColumn)) ∧
    (2 ≤ (declaredWidths (Text.lines twoColumns)).length ∧
      (∀ line ∈ Text.lines twoColumns, BodyLine.isColumnMarker line →
        (BodyLine.columnWidth? line).isSome) ∧
      ∃ columns, Layout.ofContent twoColumns = .columns columns ∧
        ShowsColumns (Text.lines twoColumns) columns ∧
        MatchesMarkers (Text.lines twoColumns) columns) := by
  have few : (declaredWidths (Text.lines oneColumn)).length < 2 := by decide +kernel
  have enough : 2 ≤ (declaredWidths (Text.lines twoColumns)).length := by decide +kernel
  have declared : ∀ line ∈ Text.lines twoColumns, BodyLine.isColumnMarker line →
      (BodyLine.columnWidth? line).isSome := by decide +kernel
  obtain ⟨columns, layout, shows, matching⟩ := (ofContent_byMarkers twoColumns).2 enough
  exact ⟨⟨few, (ofContent_byMarkers oneColumn).1 few⟩,
    enough, declared, columns, layout, shows, matching declared⟩

/-- A marker without a width opens a column that has the width of a later marker. -/
example : Layout.ofContent
    "### Column(width=1)\nleft\n### Column\nmiddle\n### column(width=3)\nright" =
      .columns [⟨1, 25, ["left"]⟩, ⟨3, 75, ["middle"]⟩] := by decide +kernel

end Lectern.Latex
