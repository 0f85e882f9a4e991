import Lectern.Latex.Markup
import Lectern.Proofs.Text.Lines

/-!
# Environment tokens

The places of a LaTeX text where an environment starts or ends and where a list has an item. A
backslash takes all letters behind it as the name of its command, so a token is known from the text
at its backslash, and a line feed ends whatever stands in front of it.
-/

namespace Lectern.Latex

/-- What opens or closes an environment, or starts an item. -/
inductive Token where
  | opens (name : Text)
  | closes (name : Text)
  | item
  deriving DecidableEq

namespace Token

/-- Whether the character can stand in the name of an environment. -/
def isNameChar (c : Char) : Bool := c != '\x7d' && c != '\n'

/-- The name in braces that the text starts with. -/
def name? : Text → Option Text
  | '\x7b' :: rest =>
    if (rest.dropWhile isNameChar).head? = some '\x7d' then some (rest.takeWhile isNameChar)
    else none
  | _ => none

/-- The token of a command with the text behind its name. -/
def ofCommand? (command after : Text) : Option Token :=
  if command = ("begin" : Text) then (name? after).map opens
  else if command = ("end" : Text) then (name? after).map closes
  else if command = ("item" : Text) then some item
  else none

/-- The token that the text starts with. -/
def first? : Text → Option Token
  | '\\' :: rest => ofCommand? (rest.takeWhile Char.isAlpha) (rest.dropWhile Char.isAlpha)
  | _ => none

end Token

/-- The tokens of a text, in order. -/
def tokens : Text → List Token
  | [] => []
  | c :: rest => (Token.first? (c :: rest)).toList ++ tokens rest

/-! ## Line feeds -/

namespace Token

theorem name?_append_newline (text rest : Text) : name? (text ++ '\n' :: rest) = name? text := by
  cases text with
  | nil => rfl
  | cons c text =>
    have stops : isNameChar '\n' = false := by decide
    obtain ⟨sameName, sameRest⟩ := Text.takeWhile_append_cons_of_neg stops text rest
    by_cases brace : c = '\x7b'
    · subst brace
      have sameEnd : ((text ++ '\n' :: rest).dropWhile isNameChar).head? = some '\x7d' ↔
          (text.dropWhile isNameChar).head? = some '\x7d' := by
        rw [sameRest]
        cases text.dropWhile isNameChar <;> simp
      simp [name?, sameName, sameEnd]
    · simp [name?, brace]

theorem first?_append_newline (text rest : Text) :
    first? (text ++ '\n' :: rest) = first? text := by
  cases text with
  | nil => rfl
  | cons c text =>
    have stops : Char.isAlpha '\n' = false := by decide
    obtain ⟨sameCommand, sameRest⟩ := Text.takeWhile_append_cons_of_neg stops text rest
    by_cases backslash : c = '\\'
    · subst backslash
      simp [first?, sameCommand, sameRest, ofCommand?, name?_append_newline]
    · simp [first?, backslash]

end Token

/-- No token reaches over a line feed. -/
theorem tokens_append_newline (text rest : Text) :
    tokens (text ++ '\n' :: rest) = tokens text ++ tokens rest := by
  induction text with
  | nil => rfl
  | cons c text ih =>
    have same := Token.first?_append_newline (c :: text) rest
    rw [List.cons_append] at same
    rw [List.cons_append, tokens, tokens, ih, same, List.append_assoc]

/-- The tokens of joined lines are those of the lines. -/
theorem tokens_joinLines (lines : List Text) :
    tokens (Text.joinLines lines) = lines.flatMap tokens := by
  induction lines with
  | nil => rfl
  | cons line more ih =>
    by_cases last : more = []
    · subst last
      simp [Text.joinLines]
    · rw [Text.joinLines_cons last, tokens_append_newline, ih, List.flatMap_cons]

/-! ## Silent texts -/

/-- A text that has no token, whatever stands behind it. -/
def Silent (text : Text) : Prop := ∀ rest, tokens (text ++ rest) = tokens rest

/-- The name of a command that makes no token. -/
def IsOtherCommand (name : Text) : Prop :=
  name.all Char.isAlpha ∧ name ∉ [("begin" : Text), "end", "item"]

instance (name : Text) : Decidable (IsOtherCommand name) := inferInstanceAs (Decidable (_ ∧ _))

namespace Silent

theorem nil : Silent [] := fun _ => rfl

theorem append {first second : Text} (silentFirst : Silent first) (silentSecond : Silent second) :
    Silent (first ++ second) := by
  intro rest
  rw [List.append_assoc, silentFirst, silentSecond]

theorem tokens_eq {text : Text} (silent : Silent text) : tokens text = [] := by
  have alone := silent []
  rwa [List.append_nil] at alone

/-- A text without backslashes is silent. -/
theorem of_noBackslash {text : Text} (noBackslash : '\\' ∉ text) : Silent text := by
  intro rest
  induction text with
  | nil => rfl
  | cons c text ih =>
    have differs : c ≠ '\\' := fun same => noBackslash (by simp [same])
    have noBackslashBehind : '\\' ∉ text := fun member => noBackslash (by simp [member])
    have noToken : Token.first? (c :: (text ++ rest)) = none := by simp [Token.first?, differs]
    rw [List.cons_append, tokens, noToken, ih noBackslashBehind]
    rfl

/-- The blanks in front of a line of a frame. -/
theorem frameIndent : Silent ("  " : Text) := of_noBackslash (by decide)

/-- The blanks in front of a line of a column. -/
theorem columnIndent : Silent ("    " : Text) := of_noBackslash (by decide)

/-- A command of another name is silent together with a character that ends its name. -/
theorem command {name : Text} (other : IsOtherCommand name) {stop : Char}
    (stops : stop.isAlpha = false ∧ stop ≠ '\\') : Silent ('\\' :: (name ++ [stop])) := by
  obtain ⟨letters, noToken⟩ := other
  obtain ⟨noLetter, noBackslash⟩ := stops
  have nameSilent : '\\' ∉ name ++ [stop] := by
    intro member
    rcases List.mem_append.mp member with inName | atEnd
    · exact absurd (List.all_eq_true.mp letters _ inName) (by decide)
    · exact noBackslash (List.mem_singleton.mp atEnd).symm
  intro rest
  have nothing : Token.first? ('\\' :: (name ++ [stop] ++ rest)) = none := by
    have named : (name ++ [stop] ++ rest).takeWhile Char.isAlpha = name := by
      rw [List.append_assoc, List.takeWhile_append_of_pos (List.all_eq_true.mp letters),
        List.singleton_append, List.takeWhile_cons_of_neg (by simp [noLetter]), List.append_nil]
    simp only [List.mem_cons, List.not_mem_nil, or_false, not_or] at noToken
    simp only [Token.first?, Token.ofCommand?, named, if_neg noToken.1, if_neg noToken.2.1,
      if_neg noToken.2.2]
  rw [List.cons_append, tokens, nothing, of_noBackslash nameSilent]
  rfl

/-- A command of another name with a silent argument is silent. -/
theorem command_argument {name argument : Text} (other : IsOtherCommand name)
    (silent : Silent argument) : Silent (Latex.command name argument) := by
  have opened : Silent ('\\' :: (name ++ ['\x7b'])) := command other (by decide)
  have closed : Silent ['\x7d'] := .of_noBackslash (by decide)
  have same : Latex.command name argument =
      ('\\' :: (name ++ ['\x7b'])) ++ argument ++ ['\x7d'] := by
    simp [Latex.command, braced]
  rw [same]
  exact (opened.append silent).append closed

/-- A silent text is silent as a comment. -/
theorem comment {text : Text} (silent : Silent text) : Silent (Latex.comment text) := by
  have mark : Silent ("% " : Text) := .of_noBackslash (by decide)
  exact mark.append silent

end Silent

/-! ## Commands with tokens -/

/-- The token of a command whose name is known. -/
theorem first?_command {name : Text} (letters : name.all Char.isAlpha) {stop : Char}
    (stops : stop.isAlpha = false) (rest : Text) :
    Token.first? ('\\' :: (name ++ stop :: rest)) = Token.ofCommand? name (stop :: rest) := by
  have noLetter : ¬ stop.isAlpha = true := by simp [stops]
  have inName := List.all_eq_true.mp letters
  rw [Token.first?, List.takeWhile_append_of_pos inName, List.dropWhile_append_of_pos inName,
    List.takeWhile_cons_of_neg noLetter, List.dropWhile_cons_of_neg noLetter, List.append_nil]

/-- A name that an environment can have. -/
def IsEnvironmentName (name : Text) : Prop := '\\' ∉ name ∧ name.all Token.isNameChar

instance (name : Text) : Decidable (IsEnvironmentName name) := inferInstanceAs (Decidable (_ ∧ _))

theorem name?_braced {name : Text} (isName : IsEnvironmentName name) (rest : Text) :
    Token.name? ('\x7b' :: (name ++ '\x7d' :: rest)) = some name := by
  have stops : ¬ Token.isNameChar '\x7d' = true := by decide
  have inName := List.all_eq_true.mp isName.2
  rw [Token.name?, List.takeWhile_append_of_pos inName, List.dropWhile_append_of_pos inName,
    List.takeWhile_cons_of_neg stops, List.dropWhile_cons_of_neg stops, List.append_nil]
  simp

/-- The start of an environment is one token, whatever stands behind it. -/
theorem tokens_opening {name : Text} (isName : IsEnvironmentName name) (rest : Text) :
    tokens (opening name ++ rest) = .opens name :: tokens rest := by
  have text : opening name ++ rest =
      '\\' :: (("begin" : Text) ++ '\x7b' :: (name ++ '\x7d' :: rest)) := by
    simp [opening, command, braced]
  have behind : ("begin" : Text) ++ '\x7b' :: (name ++ '\x7d' :: rest) =
      (("begin" : Text) ++ '\x7b' :: (name ++ ['\x7d'])) ++ rest := by simp
  have noBackslash : '\\' ∉ ("begin" : Text) ++ '\x7b' :: (name ++ ['\x7d']) := by
    simp [isName.1]
  have letters : List.all ("begin" : Text) Char.isAlpha := by decide
  have stops : Char.isAlpha '\x7b' = false := by decide
  have token : Token.ofCommand? "begin" ('\x7b' :: (name ++ '\x7d' :: rest)) =
      some (.opens name) := by
    rw [Token.ofCommand?, if_pos rfl, name?_braced isName, Option.map_some]
  rw [text, tokens, first?_command letters stops, token, behind, Silent.of_noBackslash noBackslash]
  rfl

/-- The start of an item is one token. -/
theorem tokens_item (rest : Text) : tokens (("\\item " : Text) ++ rest) = .item :: tokens rest := by
  have letters : List.all ("item" : Text) Char.isAlpha := by decide
  have text : ("\\item " : Text) ++ rest = '\\' :: (("item" : Text) ++ ' ' :: rest) := by simp
  have behind : ("item" : Text) ++ ' ' :: rest = ("item " : Text) ++ rest := by simp
  have silent : Silent ("item " : Text) := .of_noBackslash (by decide)
  have stops : Char.isAlpha ' ' = false := by decide
  rw [text, tokens, first?_command letters stops, behind, silent]
  rfl

end Lectern.Latex
