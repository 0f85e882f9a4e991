import Mathlib.Data.List.Basic
import Lectern.Segment

/-!
# Segments by position

`Segment.marked` cuts a list by recursion. Here the same cut is described by positions alone: a
segment holds the items strictly between the position of its mark and the position of the next
mark, or the end. `marked_eq_byPosition` says that the two agree.
-/

namespace Lectern.Segment

variable {α β : Type}

/-- The readings of the marked items with the positions of these, in order. -/
def marks (mark? : α → Option β) (items : List α) : List (β × Nat) :=
  items.zipIdx.filterMap fun (item, position) => (mark? item).map fun mark => (mark, position)

/-- The first of some positions, or `stop` if there is none. -/
def firstOr (stop : Nat) : List (β × Nat) → Nat
  | [] => stop
  | (_, position) :: _ => position

/-- Each mark with its position and that of the next mark; behind the last one comes `stop`. -/
def spans (stop : Nat) : List (β × Nat) → List (β × Nat × Nat)
  | [] => []
  | (mark, start) :: more => (mark, start, firstOr stop more) :: spans stop more

/-- The items strictly between two positions. -/
def between (items : List α) (start stop : Nat) : List α := (items.take stop).drop (start + 1)

/-- Each mark with the items strictly between it and the next mark, or the end. -/
def byPosition (mark? : α → Option β) (items : List α) : List (β × List α) :=
  (spans items.length (marks mark? items)).map fun (mark, start, stop) =>
    (mark, between items start stop)

section Split

variable {mark? : α → Option β} {item : α} {mark : β}

theorem split_cons_of_some (marked : mark? item = some mark) (rest : List α) :
    split mark? (item :: rest) =
      ([], (mark, (split mark? rest).1) :: (split mark? rest).2) := by
  simp [split, marked]

theorem split_cons_of_none (unmarked : mark? item = none) (rest : List α) :
    split mark? (item :: rest) = (item :: (split mark? rest).1, (split mark? rest).2) := by
  simp [split, unmarked]

/-- Unmarked items in front change no segment. -/
theorem split_append {lead : List α} (unmarked : ∀ item ∈ lead, mark? item = none)
    (rest : List α) :
    split mark? (lead ++ rest) = (lead ++ (split mark? rest).1, (split mark? rest).2) := by
  induction lead with
  | nil => rfl
  | cons item lead ih =>
    rw [List.cons_append, split_cons_of_none (unmarked item (by simp)),
      ih fun other member => unmarked other (by simp [member])]
    rfl

/-- Segments are made of the items of the list. -/
theorem split_subset (items : List α) :
    (split mark? items).1 ⊆ items ∧
      ∀ segment ∈ (split mark? items).2, segment.2 ⊆ items := by
  induction items with
  | nil => simp [split]
  | cons item rest ih =>
    obtain ⟨before, segments⟩ := ih
    cases reading : mark? item with
    | some mark =>
      rw [split_cons_of_some reading]
      refine ⟨List.nil_subset _, ?_⟩
      intro segment member
      rcases List.mem_cons.mp member with rfl | behind
      · exact List.subset_cons_of_subset item before
      · exact List.subset_cons_of_subset item (segments segment behind)
    | none =>
      rw [split_cons_of_none reading]
      refine ⟨List.cons_subset_cons item before, ?_⟩
      intro segment member
      exact List.subset_cons_of_subset item (segments segment member)

/-- The items of a segment are unmarked, and so are those before the first segment. -/
theorem unmarked_of_mem_split (items : List α) :
    (∀ item ∈ (split mark? items).1, mark? item = none) ∧
      ∀ segment ∈ (split mark? items).2, ∀ item ∈ segment.2, mark? item = none := by
  induction items with
  | nil => simp [split]
  | cons item rest ih =>
    obtain ⟨before, segments⟩ := ih
    cases reading : mark? item with
    | some mark =>
      rw [split_cons_of_some reading]
      refine ⟨by simp, ?_⟩
      intro segment member
      rcases List.mem_cons.mp member with rfl | behind
      · exact before
      · exact segments segment behind
    | none =>
      rw [split_cons_of_none reading]
      refine ⟨?_, segments⟩
      intro other member
      rcases List.mem_cons.mp member with rfl | behind
      · exact reading
      · exact before other behind

/-- Every segment is opened by an item of the list. -/
theorem exists_marked_of_mem_split {items : List α} {segment : β × List α}
    (member : segment ∈ (split mark? items).2) : ∃ item ∈ items, mark? item = some segment.1 := by
  induction items with
  | nil => simp [split] at member
  | cons item rest ih =>
    cases reading : mark? item with
    | some mark =>
      rw [split_cons_of_some reading] at member
      rcases List.mem_cons.mp member with rfl | behind
      · exact ⟨item, List.mem_cons_self .., reading⟩
      · obtain ⟨other, inRest, opens⟩ := ih behind
        exact ⟨other, List.mem_cons_of_mem _ inRest, opens⟩
    | none =>
      rw [split_cons_of_none reading] at member
      obtain ⟨other, inRest, opens⟩ := ih member
      exact ⟨other, List.mem_cons_of_mem _ inRest, opens⟩

/-- A change of items that keeps their readings changes the items of segments and no more. -/
theorem split_map {change : α → α} (kept : ∀ item, mark? (change item) = mark? item)
    (items : List α) :
    split mark? (items.map change) =
      ((split mark? items).1.map change,
        (split mark? items).2.map fun (mark, body) => (mark, body.map change)) := by
  induction items with
  | nil => rfl
  | cons item rest ih =>
    cases reading : mark? item with
    | none =>
      rw [List.map_cons, split_cons_of_none ((kept item).trans reading),
        split_cons_of_none reading, ih]
      rfl
    | some mark =>
      rw [List.map_cons, split_cons_of_some ((kept item).trans reading),
        split_cons_of_some reading, ih]
      rfl

end Split

section ByPosition

variable {mark? : α → Option β}

/-- The mark one place further on. -/
def shift (mark : β × Nat) : β × Nat := (mark.1, mark.2 + 1)

theorem marks_cons (item : α) (rest : List α) :
    marks mark? (item :: rest) =
      (((mark? item).map fun mark => (mark, 0)).toList) ++ (marks mark? rest).map shift := by
  have behind : ((rest.zipIdx 1).filterMap fun (item, position) =>
      (mark? item).map fun mark => (mark, position)) = (marks mark? rest).map shift := by
    rw [marks, List.map_filterMap, List.zipIdx_succ, List.filterMap_map]
    apply List.filterMap_congr
    rintro ⟨item, position⟩ -
    cases reading : mark? item <;> simp [reading, shift]
  rw [marks, List.zipIdx_cons, List.filterMap_cons]
  cases reading : mark? item <;> simp [reading, behind]

theorem firstOr_map_shift (stop : Nat) (marks : List (β × Nat)) :
    firstOr (stop + 1) (marks.map shift) = firstOr stop marks + 1 := by
  cases marks <;> rfl

theorem spans_map_shift (stop : Nat) (marks : List (β × Nat)) :
    spans (stop + 1) (marks.map shift) =
      (spans stop marks).map fun (mark, start, stop) => (mark, start + 1, stop + 1) := by
  induction marks with
  | nil => rfl
  | cons mark marks ih => simp [spans, shift, firstOr_map_shift, ih]

theorem between_cons_succ (item : α) (rest : List α) (start stop : Nat) :
    between (item :: rest) (start + 1) (stop + 1) = between rest start stop := by
  simp [between]

/-- The segments behind one more item are those of the rest. -/
theorem map_between_cons (item : α) (rest : List α) :
    ((spans (rest.length + 1) ((marks mark? rest).map shift)).map fun (mark, start, stop) =>
      (mark, between (item :: rest) start stop)) = byPosition mark? rest := by
  rw [spans_map_shift, byPosition, List.map_map]
  apply List.map_congr_left
  rintro ⟨mark, start, stop⟩ -
  simp [between_cons_succ]

/-- What stands before the first mark reaches up to its position. -/
theorem split_fst (items : List α) :
    (split mark? items).1 = items.take (firstOr items.length (marks mark? items)) := by
  induction items with
  | nil => rfl
  | cons item rest ih =>
    rw [marks_cons]
    cases reading : mark? item with
    | none =>
      rw [split_cons_of_none reading]
      simp [firstOr_map_shift, ih]
    | some mark =>
      rw [split_cons_of_some reading]
      simp [firstOr]

/-- Cutting by recursion and by positions gives the same segments. -/
theorem marked_eq_byPosition (items : List α) : marked mark? items = byPosition mark? items := by
  induction items with
  | nil => rfl
  | cons item rest ih =>
    rw [byPosition, List.length_cons, marks_cons]
    cases reading : mark? item with
    | none =>
      have same : marked mark? (item :: rest) = marked mark? rest := by
        rw [marked, split_cons_of_none reading, marked]
      rw [same, ih]
      simp [map_between_cons]
    | some mark =>
      have behind : between (item :: rest) 0 (firstOr rest.length (marks mark? rest) + 1) =
          (split mark? rest).1 := by
        rw [split_fst]
        simp [between]
      rw [marked, split_cons_of_some reading]
      simp only [Option.map_some, Option.toList_some, List.singleton_append, spans,
        firstOr_map_shift, List.map_cons, map_between_cons, behind]
      rw [← ih, marked]

/-! ## Runs of segments -/

/-- The positions of the marked items, in order. -/
def positions (mark? : α → Option β) (items : List α) : List Nat :=
  (marks mark? items).map Prod.snd

/-- Where the items before the mark with this number end: at the mark, or at the end of the list. -/
def stopAt (mark? : α → Option β) (items : List α) (number : Nat) : Nat :=
  (positions mark? items)[number]?.getD items.length

theorem positions_cons_of_none {item : α} (unmarked : mark? item = none) (rest : List α) :
    positions mark? (item :: rest) = (positions mark? rest).map (· + 1) := by
  simp [positions, marks_cons, unmarked, shift]

theorem positions_cons_of_some {item : α} {mark : β} (marked : mark? item = some mark)
    (rest : List α) :
    positions mark? (item :: rest) = 0 :: (positions mark? rest).map (· + 1) := by
  simp [positions, marks_cons, marked, shift]

theorem stopAt_cons_of_none {item : α} (unmarked : mark? item = none) (rest : List α)
    (number : Nat) : stopAt mark? (item :: rest) number = stopAt mark? rest number + 1 := by
  rw [stopAt, stopAt, positions_cons_of_none unmarked]
  cases found : (positions mark? rest)[number]? <;> simp [found]

theorem stopAt_cons_zero {item : α} {mark : β} (marked : mark? item = some mark)
    (rest : List α) : stopAt mark? (item :: rest) 0 = 0 := by
  simp [stopAt, positions_cons_of_some marked]

theorem stopAt_cons_succ {item : α} {mark : β} (marked : mark? item = some mark)
    (rest : List α) (number : Nat) :
    stopAt mark? (item :: rest) (number + 1) = stopAt mark? rest number + 1 := by
  rw [stopAt, stopAt, positions_cons_of_some marked]
  cases found : (positions mark? rest)[number]? <;> simp [found]

theorem getElem?_spans (stop : Nat) (marks : List (β × Nat)) (number : Nat) :
    (spans stop marks)[number]? =
      marks[number]?.map fun (mark, start) =>
        (mark, start, (marks[number + 1]?.map Prod.snd).getD stop) := by
  induction marks generalizing number with
  | nil => rfl
  | cons mark more ih =>
    cases number with
    | zero => cases more <;> rfl
    | succ number => exact ih number

theorem length_spans (stop : Nat) (marks : List (β × Nat)) :
    (spans stop marks).length = marks.length := by
  induction marks with
  | nil => rfl
  | cons mark more ih => rw [spans, List.length_cons, List.length_cons, ih]

/-- There is one segment for each mark. -/
theorem length_marked (items : List α) :
    (marked mark? items).length = (positions mark? items).length := by
  rw [marked_eq_byPosition, byPosition, List.length_map, length_spans, positions, List.length_map]

/-- The segment with this number holds what is strictly between its mark and the next one. -/
theorem getElem?_marked (items : List α) (number : Nat) :
    (marked mark? items)[number]? =
      (marks mark? items)[number]?.map fun (mark, start) =>
        (mark, between items start (stopAt mark? items (number + 1))) := by
  rw [marked_eq_byPosition, byPosition, List.getElem?_map, getElem?_spans, stopAt, positions,
    List.getElem?_map, Option.map_map]
  rfl

/-- The items before the first mark and those of the first segments are the unmarked items up to
the mark behind them. -/
theorem split_append_flatMap_take (items : List α) (count : Nat) :
    (split mark? items).1 ++ ((marked mark? items).take count).flatMap Prod.snd =
      (items.take (stopAt mark? items count)).filter fun item => (mark? item).isNone := by
  induction items generalizing count with
  | nil => simp [split, marked]
  | cons item rest ih =>
    rw [marked]
    cases reading : mark? item with
    | none =>
      rw [split_cons_of_none reading, stopAt_cons_of_none reading, List.take_succ_cons,
        List.filter_cons_of_pos (by simp [reading]), ← ih count]
      rfl
    | some mark =>
      rw [split_cons_of_some reading]
      cases count with
      | zero => simp [stopAt_cons_zero reading]
      | succ count =>
        rw [stopAt_cons_succ reading, List.take_succ_cons, List.take_succ_cons,
          List.filter_cons_of_neg (by simp [reading]), ← ih count]
        rfl

/-- The items of the first segments are the unmarked items between the first mark and the mark
behind these segments. -/
theorem flatMap_take_marked (items : List α) (count : Nat) :
    ((marked mark? items).take (count + 1)).flatMap Prod.snd =
      (between items (stopAt mark? items 0) (stopAt mark? items (count + 1))).filter
        fun item => (mark? item).isNone := by
  induction items with
  | nil => simp [split, marked, between]
  | cons item rest ih =>
    rw [marked]
    cases reading : mark? item with
    | none =>
      rw [split_cons_of_none reading, stopAt_cons_of_none reading, stopAt_cons_of_none reading,
        between_cons_succ]
      exact ih
    | some mark =>
      rw [split_cons_of_some reading, stopAt_cons_zero reading, stopAt_cons_succ reading,
        List.take_succ_cons, List.flatMap_cons]
      exact split_append_flatMap_take rest count

end ByPosition

end Lectern.Segment
