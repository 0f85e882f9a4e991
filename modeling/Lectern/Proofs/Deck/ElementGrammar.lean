import Lectern.Proofs.Deck.ParamsReading
import Lectern.Proofs.Text.Word

/-!
# The grammar of element headers

An element header is two number signs, a type word, and perhaps a list in parentheses that ends the
line, with blanks between these parts. The list goes from the first parenthesis to the last, so a
line is read in one way only. The parameters are those that the tokens of the list bind, where the
last binding of a key counts.
-/

namespace Lectern

/-! ## Parameters -/

namespace Params

/-- The value that a text stands for: a double quote in front and one behind are taken off, each
where it is there. -/
def Unquoted (written value : Text) : Prop :=
  ∃ opening closing, written = opening ++ (value ++ closing) ∧
    (opening = ['"'] ∨ opening = [] ∧ written.head? ≠ some '"') ∧
    (closing = ['"'] ∨ closing = [] ∧ value.getLast? ≠ some '"')

/-- The token binds the key to the value: they stand around its first equals sign. -/
def Binds (token key value : Text) : Prop :=
  ∃ left right, token = left ++ '=' :: right ∧ '=' ∉ left ∧ Text.trim left = key ∧
    Unquoted (Text.trim right) value

/-- The last token that binds the key binds it to the value. -/
def LastToken (tokens : List Text) (key value : Text) : Prop :=
  ∃ before token after, tokens = before ++ token :: after ∧ Binds token key value ∧
    ∀ later ∈ after, ∀ other, ¬ Binds later key other

/-- The parameters that a list has; there are none without a list. -/
def OfList (params : Params) : Option Text → Prop
  | none => params = .empty
  | some list => ∀ key value, params.get? key = some value ↔ LastToken (list.splitOn ',') key value

end Params

/-! ## Header lines -/

namespace ElementHeader

/-- What may stand behind the type word: nothing, or blanks and a list in parentheses. -/
inductive ListPart : Text → Option Text → Prop where
  | absent : ListPart [] none
  | list {gap : Text} (blank : ∀ c ∈ gap, Text.isBlank c) (inner : Text) :
    ListPart (gap ++ '(' :: (inner ++ [')'])) (some inner)

/-- A trimmed line that is an element header with this type word and list. -/
inductive Written : Text → Text → Option Text → Prop where
  | header {gap word behind : Text} {list : Option Text} (blank : ∀ c ∈ gap, Text.isBlank c)
    (nonempty : word ≠ []) (isWord : ∀ c ∈ word, Text.isWordChar c)
    (maximal : ∀ c ∈ behind.head?, Text.isWordChar c = false) (listed : ListPart behind list) :
    Written ('#' :: '#' :: (gap ++ (word ++ behind))) word list

/-- How a line is read as an element header. -/
structure ReadByGrammar (line : Text) : Prop where
  accepted : (ofLine? line).isSome ↔ ∃ word list, Written (Text.trim line) word list
  read : ∀ header, ofLine? line = some header →
    ∃ list, Written (Text.trim line) header.typeName list ∧ header.params.OfList list
  unique : ∀ word list other otherList, Written (Text.trim line) word list →
    Written (Text.trim line) other otherList → word = other ∧ list = otherList

end ElementHeader

/-! ## Bindings of tokens -/

namespace Params

/-- What is left of a text without the double quote it ends with, if it has one. -/
theorem dropClosing_eq_iff {opened value : Text} :
    (if opened.getLast? = some '"' then opened.dropLast else opened) = value ↔
      ∃ closing, opened = value ++ closing ∧
        (closing = ['"'] ∨ closing = [] ∧ value.getLast? ≠ some '"') := by
  split
  · rename_i quoted
    constructor
    · rintro rfl
      exact ⟨['"'], (List.dropLast_append_getLast? _ quoted).symm, .inl rfl⟩
    · rintro ⟨closing, rfl, rfl | ⟨rfl, noQuote⟩⟩
      · exact List.dropLast_concat
      · rw [List.append_nil] at quoted
        exact absurd quoted noQuote
  · rename_i noQuote
    constructor
    · rintro rfl
      exact ⟨[], (List.append_nil _).symm, .inr ⟨rfl, noQuote⟩⟩
    · rintro ⟨closing, rfl, rfl | ⟨rfl, -⟩⟩
      · exact absurd List.getLast?_concat noQuote
      · exact List.append_nil value

theorem stripQuotes_of_head?_ne {written : Text} (noQuote : written.head? ≠ some '"') :
    stripQuotes written =
      if written.getLast? = some '"' then written.dropLast else written := by
  rw [stripQuotes]
  rintro rest rfl
  exact noQuote rfl

theorem unquoted_iff {written value : Text} :
    Unquoted written value ↔ stripQuotes written = value := by
  constructor
  · rintro ⟨opening, closing, rfl, rfl | ⟨rfl, noQuote⟩, closes⟩
    · exact dropClosing_eq_iff.mpr ⟨closing, rfl, closes⟩
    · rw [List.nil_append] at noQuote ⊢
      rw [stripQuotes_of_head?_ne noQuote]
      exact dropClosing_eq_iff.mpr ⟨closing, rfl, closes⟩
  · intro read
    by_cases quoted : written.head? = some '"'
    · obtain ⟨rest, rfl⟩ := List.head?_eq_some_iff.mp quoted
      obtain ⟨closing, rfl, closes⟩ := dropClosing_eq_iff.mp read
      exact ⟨['"'], closing, rfl, .inl rfl, closes⟩
    · rw [stripQuotes_of_head?_ne quoted] at read
      obtain ⟨closing, rfl, closes⟩ := dropClosing_eq_iff.mp read
      exact ⟨[], closing, rfl, .inr ⟨rfl, quoted⟩, closes⟩

theorem binding?_eq_some_iff {token key value : Text} :
    binding? token = some (key, value) ↔ Binds token key value := by
  constructor
  · intro read
    obtain ⟨⟨left, right⟩, cut, same⟩ := Option.map_eq_some_iff.mp read
    obtain ⟨rfl, rfl⟩ := Prod.mk.inj same
    obtain ⟨whole, noEquals⟩ := Text.eq_of_cutAt_eq_some cut
    exact ⟨left, right, whole, noEquals, rfl, unquoted_iff.mpr rfl⟩
  · rintro ⟨left, right, rfl, noEquals, rfl, unquoted⟩
    rw [binding?_append noEquals, unquoted_iff.mp unquoted]

/-- The last binding of a key comes from the last token that binds it. -/
theorem lastBinds_iff {tokens : List Text} {key value : Text} :
    OrderedMap.LastBinds (tokens.filterMap binding?) key value ↔ LastToken tokens key value := by
  constructor
  · rintro ⟨before, after, bindings, others⟩
    obtain ⟨lead, rest, rfl, -, behind⟩ := List.filterMap_eq_append_iff.mp bindings
    obtain ⟨unbound, token, later, rfl, -, binds, same⟩ := List.filterMap_eq_cons_iff.mp behind
    refine ⟨lead ++ unbound, token, later, by simp, binding?_eq_some_iff.mp binds, ?_⟩
    intro other member value bindsToo
    have bound : (key, value) ∈ later.filterMap binding? :=
      List.mem_filterMap.mpr ⟨other, member, binding?_eq_some_iff.mpr bindsToo⟩
    exact others _ (same ▸ bound) rfl
  · rintro ⟨before, token, after, rfl, binds, others⟩
    refine ⟨before.filterMap binding?, after.filterMap binding?, ?_, ?_⟩
    · rw [List.filterMap_append, List.filterMap_cons_some (binding?_eq_some_iff.mpr binds)]
    · rintro ⟨other, value⟩ member rfl
      obtain ⟨later, inAfter, read⟩ := List.mem_filterMap.mp member
      exact others later inAfter value (binding?_eq_some_iff.mp read)

/-- Of a list, the last token that binds a key counts. -/
theorem ofList_ofText (list : Option Text) : (ofText (list.getD [])).OfList list := by
  cases list with
  | none => rfl
  | some list =>
    intro key value
    exact OrderedMap.get?_ofList_eq_some_iff.trans lastBinds_iff

end Params

/-! ## Reading and writing header lines -/

namespace ElementHeader

/-- The list opens at the first character that is no blank. -/
theorem ListPart.trimStart_eq {behind : Text} {list : Option Text} (listed : ListPart behind list) :
    Text.trimStart behind = (list.elim [] fun inner => '(' :: (inner ++ [')'])) := by
  cases listed with
  | absent => rfl
  | list blank inner =>
    apply Text.trimStart_append blank
    intro c first
    obtain rfl : '(' = c := by simpa using first
    decide

/-- What stands behind a type word is read in one way. -/
theorem ListPart.unique {behind : Text} {list other : Option Text} (first : ListPart behind list)
    (second : ListPart behind other) : list = other := by
  have same := first.trimStart_eq.symm.trans second.trimStart_eq
  cases list <;> cases other <;> simp_all

theorem ListPart.list?_eq {behind : Text} {list : Option Text} (listed : ListPart behind list)
    (noFeed : ∀ inner ∈ list, '\n' ∉ inner) : list? behind = some (list.getD []) := by
  rw [list?, listed.trimStart_eq]
  cases list with
  | none => rfl
  | some inner =>
    have closed : '\n' ∉ inner ++ [')'] := by simp [noFeed inner rfl]
    simp [closed]

/-- A list that is read stands behind a type word, unless blanks end the line. -/
theorem listPart_of_list?_eq_some {behind inner : Text} (read : list? behind = some inner)
    (noBlankLast : ∀ c ∈ behind.getLast?, Text.isBlank c = false) :
    ∃ list, ListPart behind list ∧ list.getD [] = inner := by
  have whole : behind.takeWhile Text.isBlank ++ Text.trimStart behind = behind :=
    List.takeWhile_append_dropWhile
  have blank : ∀ c ∈ behind.takeWhile Text.isBlank, Text.isBlank c :=
    fun c => List.mem_takeWhile_imp
  rw [list?] at read
  split at read
  · rename_i empty
    obtain rfl := Option.some.inj read
    rw [empty, List.append_nil] at whole
    cases last : behind.getLast? with
    | none =>
      obtain rfl := List.getLast?_eq_none_iff.mp last
      exact ⟨none, .absent, rfl⟩
    | some c =>
      have isBlank := blank c (whole.symm ▸ List.mem_of_getLast? last)
      rw [noBlankLast c last] at isBlank
      cases isBlank
  · rename_i opened started
    split at read
    · rename_i closed
      obtain rfl := Option.some.inj read
      refine ⟨some opened.dropLast, ?_, rfl⟩
      have written := ListPart.list blank opened.dropLast
      rwa [List.dropLast_append_getLast? _ closed.1, ← started, whole] at written
    · cases read
  · cases read

/-- The word of a header line is the first run of word characters behind its marks. -/
theorem written_iff {text word : Text} {list : Option Text} :
    Written text word list ↔ ∃ rest, text = '#' :: '#' :: rest ∧ word ≠ [] ∧
      (Text.trimStart rest).takeWhile Text.isWordChar = word ∧
      ListPart ((Text.trimStart rest).dropWhile Text.isWordChar) list := by
  constructor
  · rintro ⟨blank, nonempty, isWord, maximal, listed⟩
    rename_i gap behind
    have noBlank : ∀ c ∈ (word ++ behind).head?, Text.isBlank c = false := by
      obtain ⟨c, more, rfl⟩ := List.exists_cons_of_ne_nil nonempty
      intro d first
      obtain rfl : c = d := by simpa using first
      exact Text.not_blank_of_isWordChar (isWord c (by simp))
    obtain ⟨named, left⟩ := Text.takeWhile_dropWhile_append isWord maximal
    refine ⟨gap ++ (word ++ behind), rfl, nonempty, ?_⟩
    rw [Text.trimStart_append blank noBlank, named, left]
    exact ⟨rfl, listed⟩
  · rintro ⟨rest, rfl, nonempty, rfl, listed⟩
    have maximal : ∀ c ∈ ((Text.trimStart rest).dropWhile Text.isWordChar).head?,
        Text.isWordChar c = false := by
      intro c first
      have stops := List.head?_dropWhile_not Text.isWordChar (Text.trimStart rest)
      rw [Option.mem_def.mp first] at stops
      simpa using stops
    have blank : ∀ c ∈ rest.takeWhile Text.isBlank, Text.isBlank c :=
      fun c => List.mem_takeWhile_imp
    have written := Written.header blank nonempty (fun c => List.mem_takeWhile_imp) maximal listed
    rwa [List.takeWhile_append_dropWhile, Text.trimStart, List.takeWhile_append_dropWhile]
      at written

theorem Written.subset {text word inner : Text} (written : Written text word (some inner)) :
    inner ⊆ text := by
  cases written with
  | header _ _ _ _ listed =>
    cases listed with
    | list =>
      intro c member
      simp [member]

theorem Written.unique {text word other : Text} {list otherList : Option Text}
    (first : Written text word list) (second : Written text other otherList) :
    word = other ∧ list = otherList := by
  obtain ⟨rest, rfl, -, named, listed⟩ := written_iff.mp first
  obtain ⟨same, whole, -, namedToo, listedToo⟩ := written_iff.mp second
  obtain rfl : rest = same := by simpa using whole
  exact ⟨named.symm.trans namedToo, listed.unique listedToo⟩

/-- A line that is an element header is read as one. -/
theorem Written.ofLine?_eq {line word : Text} {list : Option Text}
    (written : Written (Text.trim line) word list) (noFeed : ∀ inner ∈ list, '\n' ∉ inner) :
    ofLine? line = some ⟨word, list.getD []⟩ := by
  obtain ⟨rest, whole, nonempty, named, listed⟩ := written_iff.mp written
  simp only [ofLine?, whole, named, if_neg nonempty, listed.list?_eq noFeed, Option.map_some]

/-- Every line that is read as an element header is one. -/
theorem written_of_ofLine?_eq_some {line : Text} {header : ElementHeader}
    (read : ofLine? line = some header) :
    ∃ list, Written (Text.trim line) header.typeName list ∧ list.getD [] = header.list := by
  rw [ofLine?] at read
  split at read
  · rename_i rest marked
    dsimp only at read
    split at read
    · cases read
    · rename_i nonempty
      obtain ⟨inner, listed, rfl⟩ := Option.map_eq_some_iff.mp read
      have atEnd : (Text.trimStart rest).dropWhile Text.isWordChar <:+ Text.trim line := by
        rw [marked]
        exact ((List.dropWhile_suffix _).trans (List.dropWhile_suffix _)).trans
          ((List.suffix_cons '#' rest).trans (List.suffix_cons '#' _))
      have noBlankLast : ∀ c ∈ ((Text.trimStart rest).dropWhile Text.isWordChar).getLast?,
          Text.isBlank c = false := by
        intro c last
        apply Text.not_blank_of_getLast?_trim
        obtain ⟨lead, whole⟩ := atEnd
        rw [← whole, List.getLast?_append, Option.mem_def.mp last]
        rfl
      obtain ⟨list, part, same⟩ := listPart_of_list?_eq_some listed noBlankLast
      exact ⟨list, written_iff.mpr ⟨rest, marked, nonempty, rfl, part⟩, same⟩
  · cases read

/-- Element headers are recognised by their grammar, on every line. -/
theorem readByGrammar {line : Text} (noFeed : '\n' ∉ line) : ReadByGrammar line where
  accepted := by
    constructor
    · intro isHeader
      obtain ⟨header, read⟩ := Option.isSome_iff_exists.mp isHeader
      obtain ⟨list, written, -⟩ := written_of_ofLine?_eq_some read
      exact ⟨header.typeName, list, written⟩
    · rintro ⟨word, list, written⟩
      have noFeedInList : ∀ inner ∈ list, '\n' ∉ inner := by
        rintro inner rfl inside
        exact noFeed (Text.trim_subset line (written.subset inside))
      rw [written.ofLine?_eq noFeedInList]
      rfl
  read := by
    intro header read
    obtain ⟨list, written, same⟩ := written_of_ofLine?_eq_some read
    refine ⟨list, written, ?_⟩
    rw [params, ← same]
    exact Params.ofList_ofText list
  unique := fun _ _ _ _ first second => first.unique second

/-- A header line with a parenthesis in its list and a key that is bound twice. -/
def crowdedLine : Text := "\t##Slide (title=\"a)b\", lang=DE, draft, lang = \"EN\") "

theorem readByGrammar_crowdedLine :
    '\n' ∉ crowdedLine ∧ ReadByGrammar crowdedLine ∧
      (ofLine? crowdedLine).map params = some ⟨[("lang", "EN"), ("title", "a)b")], by decide⟩ :=
  ⟨by decide, readByGrammar (by decide), by decide +kernel⟩

end ElementHeader
end Lectern
