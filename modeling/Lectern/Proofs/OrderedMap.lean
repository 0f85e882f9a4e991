import Mathlib.Data.List.Induction
import Mathlib.Data.List.Sort
import Lectern.OrderedMap

/-!
# Lists and ordered maps

`ofList` collects keys: the keys of the map are those of the list, each once and in rising order.
A list of bindings with distinct keys is forgotten only as an order, so every order of the entries
of a map gives back the map. Of several bindings of one key the last one counts.
-/

namespace Lectern.OrderedMap

variable {κ ν : Type}

/-- The last entry with this key has this value. -/
def LastBinds (entries : List (κ × ν)) (key : κ) (value : ν) : Prop :=
  ∃ before after, entries = before ++ (key, value) :: after ∧ ∀ entry ∈ after, entry.1 ≠ key

/-- A search from the end finds the last entry with a key. -/
theorem map_find?_reverse_eq_some_iff [DecidableEq κ] {entries : List (κ × ν)} {key : κ}
    {value : ν} :
    (entries.reverse.find? fun entry => entry.1 = key).map Prod.snd = some value ↔
      LastBinds entries key value := by
  constructor
  · intro read
    obtain ⟨⟨same, _⟩, found, rfl⟩ := Option.map_eq_some_iff.mp read
    obtain ⟨isKey, after, before, reversed, others⟩ := List.find?_eq_some_iff_append.mp found
    obtain rfl : same = key := by simpa using isKey
    refine ⟨before.reverse, after.reverse, ?_, ?_⟩
    · have forwards := congrArg List.reverse reversed
      simpa using forwards
    · intro entry member
      simpa using others entry (List.mem_reverse.mp member)
  · rintro ⟨before, after, rfl, others⟩
    apply Option.map_eq_some_iff.mpr
    refine ⟨(key, value), List.find?_eq_some_iff_append.mpr ?_, rfl⟩
    refine ⟨by simp, after.reverse, before.reverse, by simp, ?_⟩
    intro entry member
    simpa using others entry (List.mem_reverse.mp member)

/-- A value is found at its entry. -/
theorem mem_of_find_eq_some [DecidableEq κ] {key : κ} {value : ν} {entries : List (κ × ν)}
    (found : find key entries = some value) : (key, value) ∈ entries := by
  induction entries with
  | nil => cases found
  | cons head rest ih =>
    obtain ⟨k, v⟩ := head
    rw [find] at found
    split at found
    · rename_i same
      obtain rfl := Option.some.inj found
      rw [same]
      exact List.mem_cons_self ..
    · exact List.mem_cons_of_mem _ (ih found)

variable [Ord κ]

/-- The keys of a map are in strictly rising order. -/
theorem keys_rising (map : OrderedMap κ ν) :
    map.keys.Pairwise fun a b => compare a b = .lt :=
  List.pairwise_map.mpr map.rising

/-- Entries cannot stand before each other. -/
theorem eq_of_below [Std.OrientedOrd κ] {a b : κ × ν}
    (below : compare a.1 b.1 = .lt) (above : compare b.1 a.1 = .lt) : a = b := by
  rw [Std.OrientedCmp.gt_of_lt below] at above
  cases above

variable [Std.LawfulEqOrd κ]

/-! ## Placing an entry -/

theorem keys_nodup (map : OrderedMap κ ν) : map.keys.Nodup := by
  refine (keys_rising map).imp ?_
  rintro a b below rfl
  have self : compare a a = .eq := Std.ReflCmp.compare_self
  rw [self] at below
  cases below

theorem entries_nodup (map : OrderedMap κ ν) : map.entries.Nodup := (keys_nodup map).of_map _

/-- Every entry of a map is found at its key. -/
theorem get?_eq_some_iff [DecidableEq κ] {map : OrderedMap κ ν} {key : κ} {value : ν} :
    map.get? key = some value ↔ (key, value) ∈ map.entries := by
  refine ⟨mem_of_find_eq_some, ?_⟩
  rw [get?]
  have rising := map.rising
  generalize map.entries = entries at rising ⊢
  intro member
  induction entries with
  | nil => cases member
  | cons head rest ih =>
    rw [List.pairwise_cons] at rising
    rcases List.mem_cons.mp member with rfl | behind
    · exact if_pos rfl
    · have differs : key ≠ head.1 := by
        rintro rfl
        have self : compare head.1 head.1 = .eq := Std.ReflCmp.compare_self
        rw [rising.1 _ behind] at self
        cases self
      rw [find, if_neg differs]
      exact ih rising.2 behind

theorem mem_keys_place {key other : κ} {value : ν} {entries : List (κ × ν)} :
    other ∈ (place key value entries).map Prod.fst ↔
      other = key ∨ other ∈ entries.map Prod.fst := by
  induction entries with
  | nil => simp [place]
  | cons head rest ih =>
    obtain ⟨k, v⟩ := head
    rw [place]
    split
    · simp
    · rename_i same
      obtain rfl : key = k := Std.LawfulEqCmp.eq_of_compare same
      simp
    · rw [List.map_cons, List.mem_cons, ih]
      simp only [List.map_cons, List.mem_cons]
      exact or_left_comm

theorem place_perm {key : κ} (value : ν) {entries : List (κ × ν)}
    (absent : key ∉ entries.map Prod.fst) :
    (place key value entries).Perm ((key, value) :: entries) := by
  induction entries with
  | nil => exact List.Perm.refl _
  | cons head rest ih =>
    obtain ⟨k, v⟩ := head
    have absentBehind : key ∉ rest.map Prod.fst := fun member => absent (by simp [member])
    rw [place]
    split
    · exact List.Perm.refl _
    · rename_i same
      obtain rfl : key = k := Std.LawfulEqCmp.eq_of_compare same
      exact absurd (by simp) absent
    · exact ((ih absentBehind).cons (k, v)).trans (List.Perm.swap ..)

variable [Std.TransOrd κ]

/-! ## Collecting a list -/

theorem mem_keys_insert {map : OrderedMap κ ν} {key other : κ} {value : ν} :
    other ∈ (map.insert key value).keys ↔ other = key ∨ other ∈ map.keys :=
  mem_keys_place

theorem mem_keys_foldl (list : List (κ × ν)) (map : OrderedMap κ ν) {key : κ} :
    key ∈ (list.foldl (fun map (key, value) => map.insert key value) map).keys ↔
      key ∈ map.keys ∨ key ∈ list.map Prod.fst := by
  induction list generalizing map with
  | nil => simp
  | cons entry list ih =>
    rw [List.foldl_cons, ih, mem_keys_insert, List.map_cons, List.mem_cons]
    tauto

/-- The keys of a collected map are those of the list. -/
theorem mem_keys_ofList {list : List (κ × ν)} {key : κ} :
    key ∈ (ofList list).keys ↔ key ∈ list.map Prod.fst := by
  rw [ofList, mem_keys_foldl]
  simp [empty, keys]

/-- A collected map has no entries but those of the list. -/
theorem mem_of_mem_ofList {list : List (κ × ν)} {entry : κ × ν}
    (member : entry ∈ (ofList list).entries) : entry ∈ list := by
  have general : ∀ map : OrderedMap κ ν,
      entry ∈ (list.foldl (fun map (key, value) => map.insert key value) map).entries →
        entry ∈ map.entries ∨ entry ∈ list := by
    clear member
    induction list with
    | nil => exact fun map inMap => .inl inMap
    | cons first list ih =>
      intro map inMap
      rcases ih _ inMap with inserted | behind
      · rcases mem_place inserted with rfl | kept
        · exact .inr (List.mem_cons_self ..)
        · exact .inl kept
      · exact .inr (List.mem_cons_of_mem _ behind)
  rcases general empty member with inEmpty | inList
  · cases inEmpty
  · exact inList

/-- Of several entries with one key, a collected map has the last. -/
theorem get?_ofList_eq_some_iff [DecidableEq κ] {list : List (κ × ν)} {key : κ} {value : ν} :
    (ofList list).get? key = some value ↔ LastBinds list key value := by
  have searched : (ofList list).get? key =
      (list.reverse.find? fun entry => entry.1 = key).map Prod.snd := by
    induction list using List.reverseRecOn with
    | nil => rfl
    | append_singleton list entry ih =>
      have inserted : ofList (list ++ [entry]) = (ofList list).insert entry.1 entry.2 := by
        rw [ofList, List.foldl_append]
        rfl
      rw [inserted, get?_insert, ih, List.reverse_append, List.reverse_singleton,
        List.singleton_append, List.find?_cons]
      by_cases same : entry.1 = key
      · simp [same]
      · simp [same, Ne.symm same]
  rw [searched, map_find?_reverse_eq_some_iff]

theorem foldl_perm {list : List (κ × ν)} (map : OrderedMap κ ν)
    (distinct : (map.keys ++ list.map Prod.fst).Nodup) :
    (list.foldl (fun map (key, value) => map.insert key value) map).entries.Perm
      (map.entries ++ list) := by
  induction list generalizing map with
  | nil => simp
  | cons entry list ih =>
    obtain ⟨key, value⟩ := entry
    have moved : (map.keys ++ key :: list.map Prod.fst).Perm
        (key :: (map.keys ++ list.map Prod.fst)) := List.perm_middle
    have absent : key ∉ map.keys ∧ key ∉ list.map Prod.fst := by
      have := (List.nodup_cons.mp (moved.nodup distinct)).1
      simpa using this
    have placed : (map.insert key value).entries.Perm ((key, value) :: map.entries) :=
      place_perm value absent.1
    have keys : ((map.insert key value).keys ++ list.map Prod.fst).Nodup :=
      ((placed.map Prod.fst).append_right _).nodup_iff.mpr (moved.nodup distinct)
    exact (ih _ keys).trans ((placed.append_right list).trans List.perm_middle.symm)

/-- The entries of a map, in any order, give back the map. -/
theorem ofList_of_perm {list : List (κ × ν)} {map : OrderedMap κ ν}
    (order : list.Perm map.entries) : ofList list = map := by
  have distinct : (list.map Prod.fst).Nodup := (order.map Prod.fst).nodup_iff.mpr map.keys_nodup
  have collected : (ofList list).entries.Perm map.entries :=
    (foldl_perm empty (by simpa [empty, keys] using distinct)).trans (by simpa [empty] using order)
  have same : (ofList list).entries = map.entries :=
    collected.eq_of_pairwise (fun _ _ _ _ => eq_of_below) (ofList list).rising map.rising
  cases map
  cases equal : ofList list
  simpa [equal] using same

/-- Maps with the same look-ups are equal. -/
theorem eq_of_get? [DecidableEq κ] {a b : OrderedMap κ ν} (same : ∀ key, a.get? key = b.get? key) :
    a = b := by
  have order : a.entries.Perm b.entries := by
    refine (List.perm_ext_iff_of_nodup a.entries_nodup b.entries_nodup).mpr ?_
    rintro ⟨key, value⟩
    rw [← get?_eq_some_iff, ← get?_eq_some_iff, same]
  rw [← ofList_of_perm order, ofList_of_perm (List.Perm.refl a.entries)]

/-- Entries in rising order are determined by what they are. -/
theorem eq_of_rising {a b : List (κ × ν)} (risingA : a.Pairwise fun x y => compare x.1 y.1 = .lt)
    (risingB : b.Pairwise fun x y => compare x.1 y.1 = .lt)
    (same : ∀ entry, entry ∈ a ↔ entry ∈ b) : a = b := by
  have order : a.Perm b :=
    (List.perm_ext_iff_of_nodup (entries_nodup ⟨a, risingA⟩) (entries_nodup ⟨b, risingB⟩)).mpr same
  exact order.eq_of_pairwise (fun _ _ _ _ => eq_of_below) risingA risingB

/-- Maps with the same entries of a kind have them in the same order. -/
theorem filter_entries_eq {a b : OrderedMap κ ν} {kind : κ × ν → Bool}
    (same : ∀ entry, kind entry → (entry ∈ a.entries ↔ entry ∈ b.entries)) :
    a.entries.filter kind = b.entries.filter kind := by
  refine eq_of_rising (a.rising.filter _) (b.rising.filter _) fun entry => ?_
  rw [List.mem_filter, List.mem_filter]
  exact and_congr_left (same entry)

/-- Insertions at different keys can be exchanged. -/
theorem insert_comm [DecidableEq κ] (map : OrderedMap κ ν) {key other : κ} (differs : key ≠ other)
    (value next : ν) :
    (map.insert key value).insert other next = (map.insert other next).insert key value := by
  apply eq_of_get?
  intro wanted
  simp only [get?_insert]
  split_ifs with first second
  · exact absurd (second.symm.trans first) differs
  · rfl
  · rfl
  · rfl

end Lectern.OrderedMap
