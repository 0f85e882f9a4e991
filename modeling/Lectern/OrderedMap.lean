import Lectern.Text.Basic

/-!
# Ordered maps

A finite map is the list of its entries in strictly rising order of keys. Each map has one
representation, so two maps with the same look-ups are equal, and the entries are already in the
order in which reports and walks need them.
-/

namespace Lectern

/-- Entries in strictly rising order of keys. -/
structure OrderedMap (κ ν : Type) [Ord κ] where
  entries : List (κ × ν)
  rising : entries.Pairwise fun a b => compare a.1 b.1 = .lt

namespace OrderedMap

variable {κ ν : Type} [Ord κ]

instance [DecidableEq κ] [DecidableEq ν] : DecidableEq (OrderedMap κ ν) := fun a b =>
  decidable_of_iff (a.entries = b.entries) (by cases a; cases b; simp)

/-- The map without entries. -/
def empty : OrderedMap κ ν := ⟨[], .nil⟩

instance : Inhabited (OrderedMap κ ν) := ⟨empty⟩

/-- The value of the entry with this key. -/
def find [DecidableEq κ] (key : κ) : List (κ × ν) → Option ν
  | [] => none
  | (k, value) :: rest => if key = k then some value else find key rest

/-- The value at a key. -/
def get? [DecidableEq κ] (map : OrderedMap κ ν) (key : κ) : Option ν := find key map.entries

/-- The keys in rising order. -/
def keys (map : OrderedMap κ ν) : List κ := map.entries.map Prod.fst

/-- Puts an entry at its place, for the one with its key if there is one. -/
def place (key : κ) (value : ν) : List (κ × ν) → List (κ × ν)
  | [] => [(key, value)]
  | (k, v) :: rest =>
    match compare key k with
    | .lt => (key, value) :: (k, v) :: rest
    | .eq => (key, value) :: rest
    | .gt => (k, v) :: place key value rest

theorem mem_place {key : κ} {value : ν} {e : κ × ν} {entries : List (κ × ν)}
    (h : e ∈ place key value entries) : e = (key, value) ∨ e ∈ entries := by
  induction entries with
  | nil => simpa [place] using h
  | cons head rest ih =>
    obtain ⟨k, v⟩ := head
    rw [place] at h
    split at h <;> grind

theorem place_rising [Std.TransOrd κ] [Std.LawfulEqOrd κ] (key : κ) (value : ν)
    {entries : List (κ × ν)} (rising : entries.Pairwise fun a b => compare a.1 b.1 = .lt) :
    (place key value entries).Pairwise fun a b => compare a.1 b.1 = .lt := by
  induction entries with
  | nil => simp [place]
  | cons head rest ih =>
    obtain ⟨k, v⟩ := head
    have above := (List.pairwise_cons.mp rising).1
    have restRising := (List.pairwise_cons.mp rising).2
    rw [place]
    split
    · rename_i below
      refine List.pairwise_cons.mpr ⟨fun e he => ?_, rising⟩
      rcases List.mem_cons.mp he with rfl | he
      · exact below
      · exact Std.TransCmp.lt_trans below (above e he)
    · rename_i same
      have equal : key = k := Std.LawfulEqCmp.eq_of_compare same
      exact List.pairwise_cons.mpr ⟨fun e he => equal ▸ above e he, restRising⟩
    · rename_i beyond
      refine List.pairwise_cons.mpr ⟨fun e he => ?_, ih restRising⟩
      rcases mem_place he with rfl | he
      · exact Std.OrientedCmp.lt_of_gt beyond
      · exact above e he

@[simp] theorem get?_empty [DecidableEq κ] (key : κ) :
    (empty : OrderedMap κ ν).get? key = none := rfl

theorem find_place [Std.LawfulEqOrd κ] [DecidableEq κ] (key other : κ) (value : ν)
    (entries : List (κ × ν)) :
    find other (place key value entries) =
      if other = key then some value else find other entries := by
  induction entries with
  | nil => simp [place, find]
  | cons head rest ih =>
    obtain ⟨k, v⟩ := head
    rw [place]
    split
    · rfl
    · rename_i same
      obtain rfl : key = k := Std.LawfulEqCmp.eq_of_compare same
      by_cases h : other = key <;> simp [find, h]
    · rename_i beyond
      have differs : key ≠ k := fun same => by
        subst same
        have same : compare key key = .eq := Std.ReflCmp.compare_self
        rw [same] at beyond
        cases beyond
      by_cases h : other = k
      · subst h
        simp [find, differs.symm]
      · simp [find, h, ih]

variable [Std.TransOrd κ] [Std.LawfulEqOrd κ]

/-- The map with one more entry; the entry with the same key, if any, gives way. -/
def insert (map : OrderedMap κ ν) (key : κ) (value : ν) : OrderedMap κ ν :=
  ⟨place key value map.entries, place_rising key value map.rising⟩

/-- The entries inserted one after another, so that the last of several with one key stays. -/
def ofList (entries : List (κ × ν)) : OrderedMap κ ν :=
  entries.foldl (fun map (key, value) => map.insert key value) empty

/-- An insertion is seen at its key and nowhere else. -/
theorem get?_insert [DecidableEq κ] (map : OrderedMap κ ν) (key other : κ) (value : ν) :
    (map.insert key value).get? other = if other = key then some value else map.get? other :=
  find_place key other value map.entries

end OrderedMap
end Lectern
