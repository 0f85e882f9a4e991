/-!
# Segments of a list

A marked list falls into the part before the first mark and one segment per mark: the mark's
reading, and the items behind it up to the next mark. Slides are cut into columns in this way, and
reading a deck comes to the same cut of its lines.
-/

namespace Lectern.Segment

variable {α β : Type}

/-- The items before the first mark, and each mark with the items that follow it. -/
def split (mark? : α → Option β) : List α → List α × List (β × List α)
  | [] => ([], [])
  | item :: rest =>
    let (before, segments) := split mark? rest
    match mark? item with
    | some mark => ([], (mark, before) :: segments)
    | none => (item :: before, segments)

/-- The segments alone; what stands before the first mark is dropped. -/
def marked (mark? : α → Option β) (items : List α) : List (β × List α) := (split mark? items).2

end Lectern.Segment
