import Lectern.Proofs.Text.Trim
import Lectern.Text.Lines

/-!
# Lines and line feeds

`lines` against the parts between line feeds. The two differ in the carriage return that a line
feed takes with it, and in the empty part behind a last line feed. Neither difference reaches a
trimmed text, nor a reader that ignores blanks around a line.
-/

namespace Lectern.Text

/-- The line without the carriage return at its end, if it has one. -/
def dropReturn (line : Text) : Text :=
  if line.getLast? = some '\r' then line.dropLast else line

theorem dropReturn_cons {line : Text} (nonempty : line ≠ []) (c : Char) :
    dropReturn (c :: line) = c :: dropReturn line := by
  obtain ⟨d, more, rfl⟩ := List.exists_cons_of_ne_nil nonempty
  simp only [dropReturn, List.getLast?_cons_cons]
  split <;> rfl

theorem dropReturn_cons_of_ne {c : Char} (noReturn : c ≠ '\r') (line : Text) :
    dropReturn (c :: line) = c :: dropReturn line := by
  by_cases empty : line = []
  · subst empty
    simp [dropReturn, noReturn]
  · exact dropReturn_cons empty c

/-- A line differs from its form without a return by at most that return. -/
theorem eq_dropReturn_or (line : Text) :
    dropReturn line = line ∨ line = dropReturn line ++ ['\r'] := by
  by_cases last : line.getLast? = some '\r'
  · right
    rw [dropReturn, if_pos last, List.dropLast_append_getLast? _ last]
  · left
    rw [dropReturn, if_neg last]

theorem dropReturn_subset (line : Text) : dropReturn line ⊆ line := by
  rw [dropReturn]
  split
  · exact List.dropLast_subset line
  · exact List.Subset.refl line

/-- Trimming does not see the return at the end of a line. -/
@[simp] theorem trim_dropReturn (line : Text) : trim (dropReturn line) = trim line := by
  rcases eq_dropReturn_or line with same | longer
  · rw [same]
  · conv_rhs => rw [longer, trim_concat_of_blank (by decide)]

/-- A character that ends no line joins the line behind it. -/
theorem lines_cons {c : Char} {rest : Text} (noFeed : c ≠ '\n')
    (noReturn : c = '\r' → rest.head? ≠ some '\n') :
    lines (c :: rest) = (c :: (lines rest).headD []) :: (lines rest).tail := by
  rw [lines]
  · cases lines rest <;> rfl
  · exact noFeed
  · rintro more rfl rfl
    exact noReturn rfl rfl

/-- A line is made of the characters of the text other than line feeds. -/
theorem mem_of_mem_lines {text line : Text} (member : line ∈ lines text) :
    ∀ c ∈ line, c ∈ text ∧ c ≠ '\n' := by
  induction text using lines.induct generalizing line with
  | case1 => simp [lines] at member
  | case2 rest ih =>
    rw [lines] at member
    rcases List.mem_cons.mp member with rfl | behind
    · simp
    · exact fun c inLine => ⟨List.mem_cons_of_mem _ (ih behind c inLine).1, (ih behind c inLine).2⟩
  | case3 rest ih =>
    rw [lines] at member
    rcases List.mem_cons.mp member with rfl | behind
    · simp
    · intro c inLine
      obtain ⟨inRest, noFeed⟩ := ih behind c inLine
      exact ⟨List.mem_cons_of_mem _ (List.mem_cons_of_mem _ inRest), noFeed⟩
  | case4 d rest noFeed noReturn empty ih =>
    have single : lines (d :: rest) = [[d]] := by
      rw [lines, empty]
      · exact noFeed
      · exact noReturn
    rw [single] at member
    obtain rfl := List.mem_singleton.mp member
    intro c inLine
    obtain rfl := List.mem_singleton.mp inLine
    exact ⟨List.mem_cons_self .., noFeed⟩
  | case5 d rest noFeed noReturn first more behind ih =>
    have longer : lines (d :: rest) = (d :: first) :: more := by
      rw [lines, behind]
      · exact noFeed
      · exact noReturn
    rw [longer] at member
    intro c inLine
    rcases List.mem_cons.mp member with rfl | inMore
    · rcases List.mem_cons.mp inLine with rfl | inFirst
      · exact ⟨List.mem_cons_self .., noFeed⟩
      · obtain ⟨inRest, other⟩ := ih (by simp [behind]) c inFirst
        exact ⟨List.mem_cons_of_mem _ inRest, other⟩
    · obtain ⟨inRest, other⟩ := ih (by simp [behind, inMore]) c inLine
      exact ⟨List.mem_cons_of_mem _ inRest, other⟩

theorem subset_of_mem_lines {text line : Text} (member : line ∈ lines text) : line ⊆ text :=
  fun c inLine => (mem_of_mem_lines member c inLine).1

theorem noFeed_of_mem_lines {text line : Text} (member : line ∈ lines text) : '\n' ∉ line :=
  fun inLine => (mem_of_mem_lines member '\n' inLine).2 rfl

/-- A line feed ends the line before it and takes one return with it. -/
theorem lines_append_newline {line : Text} (noFeed : '\n' ∉ line) (rest : Text) :
    lines (line ++ '\n' :: rest) = dropReturn line :: lines rest := by
  induction line with
  | nil => rfl
  | cons c line ih =>
    have differs : c ≠ '\n' := fun same => noFeed (by simp [same])
    have noFeedBehind : '\n' ∉ line := fun member => noFeed (by simp [member])
    by_cases nonempty : line = []
    · subst nonempty
      by_cases isReturn : c = '\r'
      · subst isReturn
        rfl
      · rw [List.cons_append, lines_cons differs (fun same => absurd same isReturn)]
        simp [lines, dropReturn, isReturn]
    · have notFirst : (line ++ '\n' :: rest).head? ≠ some '\n' := by
        obtain ⟨d, more, rfl⟩ := List.exists_cons_of_ne_nil nonempty
        rintro same
        exact noFeedBehind (by simp [Option.some.inj same])
      rw [List.cons_append, lines_cons differs (fun _ => notFirst), ih noFeedBehind,
        dropReturn_cons nonempty]
      rfl

/-- A text without line feeds is one line, or none where it is empty. -/
theorem lines_of_noFeed {line : Text} (noFeed : '\n' ∉ line) :
    lines line = if line = [] then [] else [line] := by
  induction line with
  | nil => rfl
  | cons c line ih =>
    have differs : c ≠ '\n' := fun same => noFeed (by simp [same])
    have noFeedBehind : '\n' ∉ line := fun member => noFeed (by simp [member])
    have notFirst : line.head? ≠ some '\n' := fun same =>
      noFeedBehind (List.mem_of_mem_head? same)
    rw [lines_cons differs (fun _ => notFirst), ih noFeedBehind]
    by_cases empty : line = [] <;> simp [empty]

theorem joinLines_cons {lines : List Text} (nonempty : lines ≠ []) (line : Text) :
    joinLines (line :: lines) = line ++ '\n' :: joinLines lines := by
  simp [joinLines, List.intercalate_cons_of_ne_nil nonempty]

theorem joinLines_concat {lines : List Text} (nonempty : lines ≠ []) (line : Text) :
    joinLines (lines ++ [line]) = joinLines lines ++ '\n' :: line := by
  induction lines with
  | nil => exact absurd rfl nonempty
  | cons first more ih =>
    by_cases single : more = []
    · subst single
      simp [joinLines]
    · rw [List.cons_append, joinLines_cons (by simp), joinLines_cons single, ih single,
        List.append_assoc, List.cons_append]

/-- A last empty line is not seen by trimming. -/
theorem trim_joinLines_concat_nil (lines : List Text) :
    trim (joinLines (lines ++ [[]])) = trim (joinLines lines) := by
  by_cases empty : lines = []
  · subst empty
    rfl
  · rw [joinLines_concat empty, trim_concat_of_blank (by decide)]

/-- The return at the end of the last line is not seen by trimming. -/
theorem trim_joinLines_concat_dropReturn (lines : List Text) (line : Text) :
    trim (joinLines (lines ++ [dropReturn line])) = trim (joinLines (lines ++ [line])) := by
  rcases eq_dropReturn_or line with same | longer
  · rw [same]
  · by_cases empty : lines = []
    · subst empty
      simp [joinLines]
    · conv_rhs => rw [longer, joinLines_concat empty, ← List.cons_append, ← List.append_assoc,
        trim_concat_of_blank (by decide)]
      rw [joinLines_concat empty]

/-! ## Texts in lines -/

/-- A part between separators is made of the other characters of the text. -/
theorem mem_of_mem_splitOn {separator : Char} {text part : Text}
    (member : part ∈ text.splitOn separator) : ∀ c ∈ part, c ∈ text ∧ c ≠ separator := by
  induction text generalizing part with
  | nil =>
    rw [List.splitOn_nil, List.mem_singleton] at member
    simp [member]
  | cons d rest ih =>
    rw [List.splitOn_cons_eq_if_modifyHead] at member
    obtain ⟨first, more, parts⟩ := List.exists_cons_of_ne_nil (List.splitOn_ne_nil separator rest)
    rw [parts] at member ih
    intro c inPart
    split at member
    · rcases List.mem_cons.mp member with rfl | inside
      · cases inPart
      · obtain ⟨inRest, other⟩ := ih inside c inPart
        exact ⟨List.mem_cons_of_mem _ inRest, other⟩
    · rename_i differs
      rcases List.mem_cons.mp member with rfl | inside
      · rcases List.mem_cons.mp inPart with rfl | inFirst
        · exact ⟨List.mem_cons_self .., by simpa using differs⟩
        · obtain ⟨inRest, other⟩ := ih (List.mem_cons_self ..) c inFirst
          exact ⟨List.mem_cons_of_mem _ inRest, other⟩
      · obtain ⟨inRest, other⟩ := ih (List.mem_cons_of_mem _ inside) c inPart
        exact ⟨List.mem_cons_of_mem _ inRest, other⟩

theorem subset_of_mem_splitOn {separator : Char} {text part : Text}
    (member : part ∈ text.splitOn separator) : part ⊆ text :=
  fun c inPart => (mem_of_mem_splitOn member c inPart).1

theorem absent_of_mem_splitOn {separator : Char} {text part : Text}
    (member : part ∈ text.splitOn separator) : separator ∉ part :=
  fun inPart => (mem_of_mem_splitOn member separator inPart).2 rfl

/-- What has no separator joins the first part. -/
theorem splitOn_append_of_absent {separator : Char} {lead : Text} (absent : separator ∉ lead)
    (text : Text) :
    (lead ++ text).splitOn separator = (text.splitOn separator).modifyHead (lead ++ ·) := by
  obtain ⟨first, more, parts⟩ := List.exists_cons_of_ne_nil (List.splitOn_ne_nil separator text)
  rw [parts, List.modifyHead_cons]
  induction lead with
  | nil => exact parts
  | cons c lead ih =>
    rw [List.mem_cons, not_or] at absent
    rw [List.cons_append, List.splitOn_cons_eq_if_modifyHead, ih absent.2]
    simp [Ne.symm absent.1]

/-- A character that is no line feed joins the last line. -/
theorem splitOn_concat {c : Char} (noFeed : c ≠ '\n') (text : Text) :
    ∃ lead last, text.splitOn '\n' = lead ++ [last] ∧
      (text ++ [c]).splitOn '\n' = lead ++ [last ++ [c]] := by
  induction text with
  | nil =>
    refine ⟨[], [], List.splitOn_nil _, ?_⟩
    exact List.splitOn_eq_singleton (by simpa using Ne.symm noFeed)
  | cons d text ih =>
    obtain ⟨lead, last, parts, longer⟩ := ih
    rw [List.cons_append, List.splitOn_cons_eq_if_modifyHead, List.splitOn_cons_eq_if_modifyHead,
      parts, longer]
    split
    · exact ⟨[] :: lead, last, rfl, rfl⟩
    · cases lead with
      | nil => exact ⟨[], d :: last, rfl, rfl⟩
      | cons first more => exact ⟨(d :: first) :: more, last, rfl, rfl⟩

/-- Lines with a line feed behind each. -/
def ofLines (lines : List Text) : Text := lines.flatMap fun line => line ++ ['\n']

@[simp] theorem ofLines_nil : ofLines [] = [] := rfl

@[simp] theorem ofLines_cons (line : Text) (more : List Text) :
    ofLines (line :: more) = line ++ '\n' :: ofLines more := by
  simp [ofLines]

@[simp] theorem ofLines_append (first second : List Text) :
    ofLines (first ++ second) = ofLines first ++ ofLines second := by
  simp [ofLines]

theorem ofLines_eq_joinLines {lines : List Text} (nonempty : lines ≠ []) :
    ofLines lines = joinLines lines ++ ['\n'] := by
  induction lines with
  | nil => exact absurd rfl nonempty
  | cons line more ih =>
    by_cases last : more = []
    · subst last
      simp [joinLines]
    · rw [ofLines_cons, ih last, joinLines_cons last, List.append_assoc, List.cons_append]

/-- A text with a line feed behind it is made of its parts between line feeds. -/
theorem ofLines_splitOn (text : Text) : ofLines (text.splitOn '\n') = text ++ ['\n'] := by
  have joined : joinLines (text.splitOn '\n') = text := List.intercalate_splitOn '\n'
  rw [ofLines_eq_joinLines (List.splitOn_ne_nil '\n' text), joined]

/-- Written lines are read back, each without its return. -/
theorem lines_ofLines_append {written : List Text} (noFeed : ∀ line ∈ written, '\n' ∉ line)
    (rest : Text) : lines (ofLines written ++ rest) = written.map dropReturn ++ lines rest := by
  induction written with
  | nil => rfl
  | cons line more ih =>
    rw [ofLines_cons, List.append_assoc, List.cons_append,
      lines_append_newline (noFeed line (by simp)),
      ih fun other member => noFeed other (by simp [member])]
    rfl

/-- Written lines are the first parts between line feeds. -/
theorem splitOn_ofLines_append {written : List Text} (noFeed : ∀ line ∈ written, '\n' ∉ line)
    (rest : Text) : (ofLines written ++ rest).splitOn '\n' = written ++ rest.splitOn '\n' := by
  induction written with
  | nil => rfl
  | cons line more ih =>
    rw [ofLines_cons, List.append_assoc, List.cons_append,
      List.splitOn_append_cons_self_of_not_mem (noFeed line (by simp)),
      ih fun other member => noFeed other (by simp [member])]
    rfl

theorem dropReturn_eq_self {line : Text} (last : line.getLast? ≠ some '\r') :
    dropReturn line = line := if_neg last

/-- Where no return stands in front of a line feed or at the end, no line has one to drop. -/
theorem map_dropReturn_of_joinLines {lines : List Text}
    (noPair : ¬ ['\r', '\n'] <:+: joinLines lines)
    (noLast : (joinLines lines).getLast? ≠ some '\r') : lines.map dropReturn = lines := by
  induction lines with
  | nil => rfl
  | cons line more ih =>
    by_cases last : more = []
    · subst last
      rw [show joinLines [line] = line by simp [joinLines]] at noLast
      rw [List.map_singleton, dropReturn_eq_self noLast]
    · rw [joinLines_cons last] at noPair noLast
      have noReturn : line.getLast? ≠ some '\r' := by
        intro ends
        obtain ⟨start, rfl⟩ := List.getLast?_eq_some_iff.mp ends
        exact noPair ⟨start, joinLines more, by simp⟩
      have noPairBehind : ¬ ['\r', '\n'] <:+: joinLines more := fun occurs =>
        noPair (occurs.trans ⟨line ++ ['\n'], [], by simp⟩)
      have noLastBehind : (joinLines more).getLast? ≠ some '\r' := by
        intro ends
        exact noLast (by simp [List.getLast?_append, List.getLast?_cons, ends])
      rw [List.map_cons, dropReturn_eq_self noReturn, ih noPairBehind noLastBehind]

theorem map_dropReturn_splitOn {text : Text} (noPair : ¬ ['\r', '\n'] <:+: text)
    (noLast : text.getLast? ≠ some '\r') :
    (text.splitOn '\n').map dropReturn = text.splitOn '\n' := by
  have joined : joinLines (text.splitOn '\n') = text := List.intercalate_splitOn '\n'
  exact map_dropReturn_of_joinLines (by rwa [joined]) (by rwa [joined])

/-! ## Lines of trimmed texts -/

/-- Every line of the second text is a line of the first one, up to blanks around it. -/
def LinesAmong (text part : Text) : Prop :=
  ∀ line ∈ part.splitOn '\n', ∃ original ∈ text.splitOn '\n', trim original = trim line

theorem linesAmong_cons {c : Char} (blank : isBlank c) (text : Text) :
    LinesAmong (c :: text) text := by
  intro line member
  rw [List.splitOn_cons_eq_if_modifyHead]
  obtain ⟨first, more, parts⟩ := List.exists_cons_of_ne_nil (List.splitOn_ne_nil '\n' text)
  rw [parts] at member ⊢
  split
  · exact ⟨line, List.mem_cons_of_mem _ member, rfl⟩
  · rcases List.mem_cons.mp member with rfl | behind
    · exact ⟨c :: line, List.mem_cons_self .., trim_cons_of_blank blank line⟩
    · exact ⟨line, List.mem_cons_of_mem _ behind, rfl⟩

theorem linesAmong_concat {c : Char} (blank : isBlank c) (text : Text) :
    LinesAmong (text ++ [c]) text := by
  intro line member
  by_cases isFeed : c = '\n'
  · subst isFeed
    rw [List.splitOn_append_cons_self]
    exact ⟨line, List.mem_append_left _ member, rfl⟩
  · obtain ⟨lead, last, parts, longer⟩ := splitOn_concat isFeed text
    rw [parts] at member
    rw [longer]
    rcases List.mem_append.mp member with inside | atEnd
    · exact ⟨line, List.mem_append_left _ inside, rfl⟩
    · obtain rfl := List.mem_singleton.mp atEnd
      exact ⟨line ++ [c], by simp, trim_concat_of_blank blank line⟩

theorem LinesAmong.refl (text : Text) : LinesAmong text text :=
  fun line member => ⟨line, member, rfl⟩

theorem LinesAmong.trans {first second third : Text} (left : LinesAmong first second)
    (right : LinesAmong second third) : LinesAmong first third := by
  intro line member
  obtain ⟨middle, inSecond, same⟩ := right line member
  obtain ⟨original, inFirst, sameAgain⟩ := left middle inSecond
  exact ⟨original, inFirst, sameAgain.trans same⟩

/-- Trimming a text shortens its first and last lines and drops blank ones. -/
theorem linesAmong_trim (text : Text) : LinesAmong text (trim text) :=
  trim_preserves (P := LinesAmong text)
    (fun blank whole => whole.trans (linesAmong_cons blank _))
    (fun blank whole => whole.trans (linesAmong_concat blank _)) (LinesAmong.refl text)

/-! ## Readers that ignore blanks -/

variable {α : Type}

/-- The reader does not see blanks around a line. -/
structure IgnoresBlanks (read : Text → α) : Prop where
  front : ∀ {c : Char} (line : Text), isBlank c → read (c :: line) = read line
  behind : ∀ {c : Char} (line : Text), isBlank c → read (line ++ [c]) = read line

namespace IgnoresBlanks

variable {read : Text → α}

theorem padded (ignores : IgnoresBlanks read) {before behind : Text}
    (blankBefore : isBlankText before) (blankBehind : isBlankText behind) (line : Text) :
    read (before ++ line ++ behind) = read line := by
  have started : read (before ++ line) = read line := by
    induction before with
    | nil => rfl
    | cons c before ih =>
      obtain ⟨blank, blanks⟩ : isBlank c ∧ isBlankText before := by
        simpa [isBlankText] using blankBefore
      rw [List.cons_append, ignores.front _ blank, ih blanks]
  rw [← started]
  induction behind using List.reverseRecOn with
  | nil => rw [List.append_nil]
  | append_singleton behind c ih =>
    obtain ⟨blanks, blank⟩ : isBlankText behind ∧ isBlank c := by
      simpa [isBlankText] using blankBehind
    rw [← List.append_assoc, ignores.behind _ blank, ih blanks]

/-- What is made of two such readings ignores blanks too. -/
theorem combine {β γ : Type} {other : Text → β} (ignores : IgnoresBlanks read)
    (ignoresToo : IgnoresBlanks other) (join : α → β → γ) :
    IgnoresBlanks fun line => join (read line) (other line) where
  front line blank := by rw [ignores.front line blank, ignoresToo.front line blank]
  behind line blank := by rw [ignores.behind line blank, ignoresToo.behind line blank]

theorem dropReturn (ignores : IgnoresBlanks read) (line : Text) :
    read (dropReturn line) = read line := by
  rcases eq_dropReturn_or line with same | longer
  · rw [same]
  · conv_rhs => rw [longer, ignores.behind _ (by decide)]

/-- The parts between line feeds are the lines of a text, with at most an empty part behind. -/
theorem map_splitOn (ignores : IgnoresBlanks read) (text : Text) :
    ∃ below, (text.splitOn '\n').map read =
      (lines text).map read ++ List.replicate below (read []) := by
  have joined : joinLines (text.splitOn '\n') = text := List.intercalate_splitOn '\n'
  have noFeed : ∀ part ∈ text.splitOn '\n', '\n' ∉ part := fun _ => absent_of_mem_splitOn
  have nonempty : text.splitOn '\n' ≠ [] := List.splitOn_ne_nil '\n' text
  generalize text.splitOn '\n' = parts at joined noFeed nonempty ⊢
  subst joined
  induction parts with
  | nil => exact absurd rfl nonempty
  | cons part more ih =>
    have partNoFeed := noFeed part (List.mem_cons_self ..)
    by_cases last : more = []
    · subst last
      have single : joinLines [part] = part := by simp [joinLines]
      rw [single, lines_of_noFeed partNoFeed]
      split
      · rename_i isEmpty
        exact ⟨1, by simp [isEmpty]⟩
      · exact ⟨0, by simp⟩
    · obtain ⟨below, same⟩ :=
        ih (fun other member => noFeed other (List.mem_cons_of_mem _ member)) last
      refine ⟨below, ?_⟩
      rw [joinLines_cons last, lines_append_newline partNoFeed, List.map_cons, List.map_cons,
        ignores.dropReturn, same, List.cons_append]

/-- A trimmed text has lost lines that read as an empty one, above and below, and no others. -/
theorem map_splitOn_trim (ignores : IgnoresBlanks read) (text : Text) :
    ∃ above below, (text.splitOn '\n').map read = List.replicate above (read []) ++
      ((trim text).splitOn '\n').map read ++ List.replicate below (read []) := by
  refine trim_preserves (P := fun part => ∃ above below, (text.splitOn '\n').map read =
    List.replicate above (read []) ++ (part.splitOn '\n').map read ++
      List.replicate below (read [])) ?_ ?_ ⟨0, 0, by simp⟩
  · rintro c part blank ⟨above, below, same⟩
    rw [List.splitOn_cons_eq_if_modifyHead] at same
    obtain ⟨first, more, parts⟩ := List.exists_cons_of_ne_nil (List.splitOn_ne_nil '\n' part)
    rw [parts] at same ⊢
    split at same
    · refine ⟨above + 1, below, ?_⟩
      rw [same, List.replicate_succ']
      simp
    · refine ⟨above, below, ?_⟩
      rw [same, List.modifyHead_cons, List.map_cons, List.map_cons, ignores.front _ blank]
  · rintro c part blank ⟨above, below, same⟩
    by_cases isFeed : c = '\n'
    · subst isFeed
      refine ⟨above, below + 1, ?_⟩
      rw [same, List.splitOn_append_cons_self, List.replicate_succ]
      simp
    · obtain ⟨lead, last, parts, longer⟩ := splitOn_concat isFeed part
      refine ⟨above, below, ?_⟩
      rw [same, parts, longer, List.map_append, List.map_append, List.map_singleton,
        List.map_singleton, ignores.behind _ blank]

end IgnoresBlanks

/-! ## Readers of trimmed lines -/

variable {read : Text → Option α}

/-- The reader does not see blanks around a line, and finds nothing in an empty one. -/
structure ReadsTrimmed (read : Text → Option α) : Prop extends IgnoresBlanks read where
  empty : read [] = none

namespace ReadsTrimmed

/-- Such a reader finds the same in `lines` as in the parts between line feeds. -/
theorem filterMap_lines (reads : ReadsTrimmed read) (text : Text) :
    (lines text).filterMap read = (text.splitOn '\n').filterMap read := by
  obtain ⟨below, same⟩ := reads.map_splitOn text
  have found := congrArg (List.filterMap id) same
  simpa [reads.empty, List.filterMap_map] using found.symm

/-- Such a reader finds the same in a trimmed text. -/
theorem filterMap_splitOn_trim (reads : ReadsTrimmed read) (text : Text) :
    ((trim text).splitOn '\n').filterMap read = (text.splitOn '\n').filterMap read := by
  obtain ⟨above, below, same⟩ := reads.map_splitOn_trim text
  have found := congrArg (List.filterMap id) same
  simpa [reads.empty, List.filterMap_map] using found.symm

end ReadsTrimmed
end Lectern.Text
