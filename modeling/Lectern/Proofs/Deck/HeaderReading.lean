import Lectern.Proofs.Deck.ParamsReading
import Lectern.Proofs.Deck.Segmentation

/-!
# Reading header blocks

The block ends at the first three dashes behind its opening line, wherever these are, so a block
whose values have none is read back entry by entry, and no value that is ever read has any. No line
of a written block is a scene marker.
-/

namespace Lectern

/-! ## Marks and lines -/

namespace Text

variable {mark : Text}

/-- Written lines without the mark stand before a cut. -/
theorem cutAtText_ofLines_append (noFeed : '\n' ∉ mark) (nonempty : mark ≠ [])
    {written : List Text} (free : ∀ line ∈ written, ¬ mark <:+: line) (rest : Text) :
    cutAtText mark (ofLines written ++ rest) =
      (cutAtText mark rest).map fun parts => (ofLines written ++ parts.1, parts.2) := by
  induction written with
  | nil => simp
  | cons line more ih =>
    have freeBehind : ∀ other ∈ more, ¬ mark <:+: other :=
      fun other member => free other (List.mem_cons_of_mem _ member)
    rw [ofLines_cons, List.append_assoc, List.cons_append,
      cutAtText_append_cons noFeed nonempty (free line (List.mem_cons_self ..)), ih freeBehind,
      Option.map_map]
    simp [Function.comp_def]

theorem isBlank_eq_false_of_isAlpha {c : Char} (letter : c.isAlpha) : isBlank c = false := by
  have inRange : ('A'.val ≤ c.val ∧ c.val ≤ 'Z'.val) ∨ ('a'.val ≤ c.val ∧ c.val ≤ 'z'.val) := by
    rcases Bool.or_eq_true_iff.mp letter with upper | lower
    · exact .inl (of_decide_eq_true upper)
    · obtain ⟨first, last⟩ := Bool.and_eq_true_iff.mp lower
      exact .inr ⟨of_decide_eq_true first, of_decide_eq_true last⟩
  have bounds : 65 ≤ c.toNat ∧ c.toNat ≤ 122 := by
    rcases inRange with ⟨first, last⟩ | ⟨first, last⟩
    · have above : 65 ≤ c.toNat := UInt32.le_iff_toNat_le.mp first
      have below : c.toNat ≤ 90 := UInt32.le_iff_toNat_le.mp last
      omega
    · have above : 97 ≤ c.toNat := UInt32.le_iff_toNat_le.mp first
      have below : c.toNat ≤ 122 := UInt32.le_iff_toNat_le.mp last
      omega
  simp [isBlank]
  omega

/-- A mark that stands in a part between line feeds stands in the text. -/
theorem infix_of_mem_splitOn (noFeed : '\n' ∉ mark) {text part : Text}
    (member : part ∈ text.splitOn '\n') (occurs : mark <:+: part) : mark <:+: text := by
  have joined : (text.splitOn '\n').flatMap (fun line => line ++ ['\n']) = text ++ '\n' :: [] :=
    ofLines_splitOn text
  have inLine : mark <:+: part ++ ['\n'] := occurs.trans (List.prefix_append _ _).isInfix
  have inLines : part ++ ['\n'] <:+: text ++ '\n' :: [] := by
    rw [← joined]
    exact List.infix_of_mem_flatten (List.mem_map_of_mem member)
  rcases infix_append_cons noFeed (inLine.trans inLines) with inside | atEnd
  · exact inside
  · exact atEnd.trans List.nil_infix

end Text

/-! ## Entries -/

namespace Header

theorem entrySource_eq (key value : Text) :
    entrySource key value = (key ++ [' ', '=', ' ']) ++ '"' :: (value ++ ['"']) := by
  simp [entrySource]

theorem PlainEntry.isAlpha {entry : Text × Text} (plain : PlainEntry entry) {c : Char}
    (member : c ∈ entry.1) : c.isAlpha := List.all_eq_true.mp plain.letters c member

/-- An entry is read back, whatever quotes and equals signs its value has. -/
theorem PlainEntry.binding? {entry : Text × Text} (plain : PlainEntry entry) :
    Params.binding? (entrySource entry.1 entry.2) = some entry := by
  have trimmed : Text.trim entry.1 = entry.1 := Text.trim_eq_self
    (fun _ first => Text.isBlank_eq_false_of_isAlpha (plain.isAlpha (List.mem_of_mem_head? first)))
    (fun _ last => Text.isBlank_eq_false_of_isAlpha
      (plain.isAlpha (List.mem_of_mem_getLast? last)))
  have noEquals : '=' ∉ entry.1 ++ [' '] := by
    intro member
    have inKey : '=' ∈ entry.1 := by simpa using member
    exact absurd (plain.isAlpha inKey) (by decide)
  have split : entrySource entry.1 entry.2 =
      (entry.1 ++ [' ']) ++ '=' :: ' ' :: '"' :: (entry.2 ++ ['"']) := by
    simp [entrySource]
  rw [split, Params.binding?_append noEquals, Text.trim_concat_of_blank (by decide), trimmed,
    Text.trim_cons_of_blank (by decide), Text.trim_quoted, Params.stripQuotes_quoted]

theorem PlainEntry.noFeed_entrySource {entry : Text × Text} (plain : PlainEntry entry) :
    '\n' ∉ entrySource entry.1 entry.2 := by
  have notInKey : '\n' ∉ entry.1 := fun member => absurd (plain.isAlpha member) (by decide)
  simp [entrySource_eq, notInKey, plain.noFeed]

/-- Three dashes stand in an entry only if they stand in its value: the quotes keep the two
apart. -/
theorem PlainEntry.noDashes_entrySource {entry : Text × Text} (plain : PlainEntry entry)
    (free : ¬ ("---" : Text) <:+: entry.2) :
    ¬ ("---" : Text) <:+: entrySource entry.1 entry.2 := by
  have noQuote : '"' ∉ ("---" : Text) := by decide
  rw [entrySource_eq]
  intro occurs
  rcases Text.infix_append_cons noQuote occurs with inKey | behind
  · have dash : '-' ∈ entry.1 := by
      have member : '-' ∈ entry.1 ++ [' ', '=', ' '] := inKey.subset (by decide)
      simpa using member
    exact absurd (plain.isAlpha dash) (by decide)
  · rcases Text.infix_append_cons noQuote behind with inValue | atEnd
    · exact free inValue
    · exact absurd atEnd (by decide)

/-! ## Blocks -/

theorem afterOpening?_dashes (rest : Text) :
    afterOpening? (("---" : Text) ++ rest) true = some rest := by
  simp [afterOpening?]

/-- What stands between the dashes binds its entries line by line, trimmed or not. -/
theorem filterMap_lines_trim (block : Text) :
    (Text.lines (Text.trim block)).filterMap Params.binding? =
      (block.splitOn '\n').filterMap Params.binding? := by
  rw [Params.readsTrimmed_binding?.filterMap_lines,
    Params.readsTrimmed_binding?.filterMap_splitOn_trim]

theorem block_append (entries : List (Text × Text)) (rest : Text) :
    block entries ++ rest = ("---" : Text) ++ (Text.ofLines
      ([] :: entries.map fun entry => entrySource entry.1 entry.2) ++
        (("---" : Text) ++ '\n' :: rest)) := by
  rw [block]
  generalize ("---" : Text) = dashes
  simp

/-- The entries of a block are read back in order if no value has three dashes. -/
theorem entries?_block {entries : List (Text × Text)} (plain : ∀ entry ∈ entries, PlainEntry entry)
    (free : ∀ entry ∈ entries, ¬ ("---" : Text) <:+: entry.2) (rest : Text) :
    entries? (block entries ++ rest) = some entries := by
  have noFeed : '\n' ∉ ("---" : Text) := by decide
  have nonempty : ("---" : Text) ≠ [] := by decide
  let lines := entries.map fun entry => entrySource entry.1 entry.2
  -- The line feed behind the opening dashes is an empty first line of the block.
  have linesFree : ∀ line ∈ [] :: lines, ¬ ("---" : Text) <:+: line := by
    intro line member
    rcases List.mem_cons.mp member with rfl | inLines
    · simp
    · obtain ⟨entry, inEntries, rfl⟩ := List.mem_map.mp inLines
      exact (plain entry inEntries).noDashes_entrySource (free entry inEntries)
  have linesNoFeed : ∀ line ∈ [] :: lines, '\n' ∉ line := by
    intro line member
    rcases List.mem_cons.mp member with rfl | inLines
    · exact List.not_mem_nil
    · obtain ⟨entry, inEntries, rfl⟩ := List.mem_map.mp inLines
      exact (plain entry inEntries).noFeed_entrySource
  have read : lines.filterMap Params.binding? = entries := by
    rw [List.filterMap_map]
    exact (List.filterMap_congr fun entry member => (plain entry member).binding?).trans
      List.filterMap_some
  rw [entries?, block_append, afterOpening?_dashes, Option.bind_eq_bind, Option.bind_some,
    Text.cutAtText_ofLines_append noFeed nonempty linesFree, Text.cutAtText_start nonempty,
    Option.map_some, Option.bind_eq_bind, Option.bind_some]
  dsimp only
  rw [filterMap_lines_trim, Text.splitOn_ofLines_append linesNoFeed, List.splitOn_nil,
    List.filterMap_append, List.filterMap_cons_none rfl, read, List.filterMap_cons_none rfl,
    List.filterMap_nil, List.append_nil]

/-- No value that is read from a header has three dashes: the first three behind the opening line
end the block. -/
theorem noDashes_of_entries?_eq_some {source : Text} {entries : List (Text × Text)}
    (read : entries? source = some entries) :
    ∀ entry ∈ entries, ¬ ("---" : Text) <:+: entry.2 := by
  obtain ⟨opened, -, found⟩ := Option.bind_eq_some_iff.mp read
  obtain ⟨⟨block, rest⟩, cut, bound⟩ := Option.bind_eq_some_iff.mp found
  obtain rfl := Option.some.inj bound
  intro entry member occurs
  rw [filterMap_lines_trim] at member
  obtain ⟨line, inBlock, bound⟩ := List.mem_filterMap.mp member
  have inLine := occurs.trans (Params.of_binding?_eq_some bound).2.2.2
  have nonempty : ("---" : Text) ≠ [] := by decide
  -- A value is a part of its line, the line is a part of the block, and the block is cut free of
  -- dashes.
  exact Text.free_of_cutAtText_eq_some nonempty cut
    (Text.infix_of_mem_splitOn (by decide) inBlock inLine)

theorem PlainEntry.unmarked {entry : Text × Text} (plain : PlainEntry entry) :
    ¬ Scene.mark <+: entrySource entry.1 entry.2 := by
  obtain ⟨more, mark⟩ : ∃ more, Scene.mark = '#' :: more := ⟨_, rfl⟩
  intro start
  rw [mark, entrySource_eq] at start
  cases key : entry.1 with
  | nil =>
    rw [key] at start
    exact absurd (List.cons_prefix_cons.mp start).1 (by decide)
  | cons c letters =>
    rw [key] at start
    obtain rfl := (List.cons_prefix_cons.mp start).1
    have member : '#' ∈ entry.1 := by simp [key]
    exact absurd (plain.isAlpha member) (by decide)

/-- No line of a block is a scene marker. -/
theorem pieces_block {entries : List (Text × Text)} (plain : ∀ entry ∈ entries, PlainEntry entry)
    (rest : Text) : (Scene.pieces (block entries ++ rest) true).2 = (Scene.pieces rest true).2 := by
  have linePlain : ∀ line ∈ ("---" : Text) ::
      (entries.map fun entry => entrySource entry.1 entry.2) ++ [("---" : Text)],
      '\n' ∉ line ∧ ¬ Scene.mark <+: line := by
    intro line member
    rw [List.cons_append, List.mem_cons, List.mem_append, List.mem_singleton] at member
    rcases member with rfl | inLines | rfl
    · decide
    · obtain ⟨entry, inEntries, rfl⟩ := List.mem_map.mp inLines
      exact ⟨(plain entry inEntries).noFeed_entrySource, (plain entry inEntries).unmarked⟩
    · decide
  rw [block, Scene.pieces_ofLines (fun line member => (linePlain line member).1)
    (fun line member => (linePlain line member).2)]

/-! ## Fields -/

/-- A field has the value of the last entry with its key, or a default if no entry has it. -/
def FieldFrom (entries : List (Text × Text)) (key default value : Text) : Prop :=
  OrderedMap.LastBinds entries key value ∨ (∀ entry ∈ entries, entry.1 ≠ key) ∧ value = default

/-- The fields of the header are those of the entries. -/
structure TakenFrom (header : Header) (entries : List (Text × Text)) : Prop where
  title : FieldFrom entries "title" "Untitled" header.title
  author : FieldFrom entries "author" "Unknown" header.author
  style : FieldFrom entries "style" [] header.style

theorem fieldFrom_getD (entries : List (Text × Text)) (key default : Text) :
    FieldFrom entries key default ((lastValue? key entries).getD default) := by
  cases last : lastValue? key entries with
  | some value => exact .inl (OrderedMap.map_find?_reverse_eq_some_iff.mp last)
  | none =>
    refine .inr ⟨fun entry member => ?_, rfl⟩
    have differs := List.find?_eq_none.mp (Option.map_eq_none_iff.mp last) entry
    simpa using differs (List.mem_reverse.mpr member)

theorem takenFrom_ofEntries (entries : List (Text × Text)) :
    (ofEntries entries).TakenFrom entries where
  title := fieldFrom_getD entries "title" "Untitled"
  author := fieldFrom_getD entries "author" "Unknown"
  style := fieldFrom_getD entries "style" []

/-- A block of plain entries is read back exactly if no value has three dashes, and then the
header has the last value of each key. -/
theorem readsBlock_iff {entries : List (Text × Text)} (plain : ∀ entry ∈ entries, PlainEntry entry)
    (following : Text) :
    (entries? (block entries ++ following) = some entries ↔
      ∀ entry ∈ entries, ¬ ("---" : Text) <:+: entry.2) ∧
    ((∀ entry ∈ entries, ¬ ("---" : Text) <:+: entry.2) →
      (parse (block entries ++ following)).TakenFrom entries) := by
  refine ⟨⟨noDashes_of_entries?_eq_some, fun free => entries?_block plain free following⟩, ?_⟩
  intro free
  rw [parse, entries?_block plain free, Option.getD_some]
  exact takenFrom_ofEntries entries

/-- Quotes, equals signs, single dashes and outer spaces belong to the value; the second title
counts. -/
theorem readsBlock_secondTitle :
    let entries : List (Text × Text) :=
      [("title", " a - b "), ("date", "x = \"--\""), ("title", "\"T\"-=\"")]
    entries? (block entries ++ ("# Scene: A\n" : Text)) = some entries ∧
      (parse (block entries ++ ("# Scene: A\n" : Text))).TakenFrom entries := by
  intro entries
  have plain : ∀ entry ∈ entries, PlainEntry entry := by
    intro entry member
    simp only [entries, List.mem_cons, List.not_mem_nil, or_false] at member
    rcases member with rfl | rfl | rfl <;> exact ⟨by decide, by decide⟩
  have free : ∀ entry ∈ entries, ¬ ("---" : Text) <:+: entry.2 := by decide
  obtain ⟨readBack, taken⟩ := readsBlock_iff plain "# Scene: A\n"
  exact ⟨readBack.mpr free, taken free⟩

/-- Three dashes in a title end the block in the middle of its line, and the author is lost. -/
theorem not_readsBlock_dashedTitle :
    let entries : List (Text × Text) := [("title", "a --- b"), ("author", "A")]
    (∀ entry ∈ entries, PlainEntry entry) ∧
      entries? (block entries) = some [(("title" : Text), ("a" : Text))] := by
  intro entries
  refine ⟨?_, by decide +kernel⟩
  intro entry member
  simp only [entries, List.mem_cons, List.not_mem_nil, or_false] at member
  rcases member with rfl | rfl <;> exact ⟨by decide, by decide⟩

/-! ## Blocks of three entries -/

/-- The entries of a written block. -/
def entries (header : Header) : List (Text × Text) :=
  [("title", header.title), ("author", header.author), ("style", header.style)]

theorem source_eq_block (header : Header) : header.source = block header.entries := rfl

theorem Writable.plain {header : Header} (writable : header.Writable) :
    ∀ entry ∈ header.entries, PlainEntry entry := by
  have letters : ∀ key ∈ [("title" : Text), "author", "style"], key.all Char.isAlpha := by decide
  intro entry member
  simp only [entries, List.mem_cons, List.not_mem_nil, or_false] at member
  rcases member with rfl | rfl | rfl
  · exact ⟨letters "title" (by simp), writable.title.1⟩
  · exact ⟨letters "author" (by simp), writable.author.1⟩
  · exact ⟨letters "style" (by simp), writable.style.1⟩

theorem Writable.noDashes {header : Header} (writable : header.Writable) :
    ∀ entry ∈ header.entries, ¬ ("---" : Text) <:+: entry.2 := by
  intro entry member
  simp only [entries, List.mem_cons, List.not_mem_nil, or_false] at member
  rcases member with rfl | rfl | rfl
  · exact writable.title.2
  · exact writable.author.2
  · exact writable.style.2

/-- A written block is read back. -/
theorem parse_source {header : Header} (writable : header.Writable) (rest : Text) :
    parse (header.source ++ rest) = header := by
  have titled : lastValue? "title" header.entries = some header.title := rfl
  have authored : lastValue? "author" header.entries = some header.author := rfl
  have styled : lastValue? "style" header.entries = some header.style := rfl
  rw [source_eq_block, parse, entries?_block writable.plain writable.noDashes, Option.getD_some,
    ofEntries, titled, authored, styled]
  rfl

/-- No line of a written block is a scene marker. -/
theorem pieces_source {header : Header} (writable : header.Writable) (rest : Text) :
    (Scene.pieces (header.source ++ rest) true).2 = (Scene.pieces rest true).2 := by
  rw [source_eq_block, pieces_block writable.plain]

end Header

end Lectern
