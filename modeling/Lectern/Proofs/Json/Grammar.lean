import Lectern.Text.Basic

/-!
# Value texts

What a written value is, apart from any reader. A text is written between quotes, with escapes for
some or all of its characters (`Spelled`); what stands between quotes may be well-formed without
standing for characters, where half a surrogate pair is alone (`Unquoted`). Lists and objects share
one layout (`Entries`): entries behind one another, a comma in front of each but the first, and
spaces anywhere between. From it come the values of any depth (`Wellformed`) and the objects that
are given by what their keys stand for (`ObjectOf`).
-/

namespace Lectern.Json

/-- Nothing but characters that may stand between tokens. -/
def Spaces (text : Text) : Prop := ∀ c ∈ text, c = ' ' ∨ c = '\n' ∨ c = '\t' ∨ c = '\r'

theorem spaces_nil : Spaces [] := by simp [Spaces]

theorem spaces_space : Spaces [' '] := by simp [Spaces]

/-! ## Texts -/

/-- A digit to the base sixteen, in either case, with its value. -/
def HexDigit (c : Char) (value : Nat) : Prop :=
  value < 16 ∧ (c = Nat.digitChar value ∨ c = (Nat.digitChar value).toUpper)

/-- Four digits with the code unit that they write. -/
inductive HexUnit : Text → Nat → Prop
  | mk {first second third last : Char} {a b c d : Nat} (isFirst : HexDigit first a)
      (isSecond : HexDigit second b) (isThird : HexDigit third c) (isLast : HexDigit last d) :
      HexUnit [first, second, third, last] (16 * (16 * (16 * a + b) + c) + d)

/-- The letters of the escapes of two characters, with the characters that they stand for. -/
def shortEscapes : List (Char × Char) :=
  [('"', '"'), ('\\', '\\'), ('/', '/'), ('b', '\x08'), ('f', '\x0c'), ('n', '\n'), ('r', '\r'),
    ('t', '\t')]

/-- Whether a character may stand for itself between quotes. -/
def IsPlain (c : Char) : Prop := c ≠ '"' ∧ c ≠ '\\' ∧ 0x20 ≤ c.toNat

/-- The ways to write a character between quotes: as itself, as a short escape, as an escaped code
unit, or as the two escaped halves of a surrogate pair. -/
inductive Spells : Char → Text → Prop
  | plain {c : Char} (isPlain : IsPlain c) : Spells c [c]
  | short {letter c : Char} (known : (letter, c) ∈ shortEscapes) : Spells c ['\\', letter]
  | unit {c : Char} {digits : Text} (isUnit : HexUnit digits c.toNat) :
      Spells c ('\\' :: 'u' :: digits)
  | pair {c : Char} {high low : Text} {upper lower : Nat} (upperBits : upper < 0x400)
      (lowerBits : lower < 0x400) (code : c.toNat = 0x10000 + 0x400 * upper + lower)
      (isHigh : HexUnit high (0xD800 + upper)) (isLow : HexUnit low (0xDC00 + lower)) :
      Spells c ('\\' :: 'u' :: (high ++ '\\' :: 'u' :: low))

/-- A text with a way to write it between quotes. -/
inductive Spelled : Text → Text → Prop
  | nil : Spelled [] []
  | cons {c : Char} {piece value body : Text} (spells : Spells c piece)
      (others : Spelled value body) : Spelled (c :: value) (piece ++ body)

/-- What may stand between quotes, whether or not the escaped code units make up characters. -/
inductive Unquoted : Text → Prop
  | nil : Unquoted []
  | plain {c : Char} {rest : Text} (isPlain : IsPlain c) (others : Unquoted rest) :
      Unquoted (c :: rest)
  | short {letter c : Char} {rest : Text} (known : (letter, c) ∈ shortEscapes)
      (others : Unquoted rest) : Unquoted ('\\' :: letter :: rest)
  | unit {digits rest : Text} {unit : Nat} (isUnit : HexUnit digits unit)
      (others : Unquoted rest) : Unquoted ('\\' :: 'u' :: (digits ++ rest))

instance : DecidablePred IsPlain := fun c =>
  inferInstanceAs (Decidable (c ≠ '"' ∧ c ≠ '\\' ∧ 0x20 ≤ c.toNat))

/-- A text of characters that may stand for themselves is a way to write it. -/
theorem spelled_plain {value : Text} (isPlain : value.all fun c => IsPlain c) :
    Spelled value value := by
  induction value with
  | nil => exact .nil
  | cons c value ih =>
    rw [List.all_cons, Bool.and_eq_true, decide_eq_true_iff] at isPlain
    exact .cons (.plain isPlain.1) (ih isPlain.2)

/-- The ways to write a text. -/
def WritesText (value written : Text) : Prop :=
  ∃ body, Spelled value body ∧ written = '"' :: (body ++ ['"'])

/-- The ways to write a text that may be missing. -/
def WritesOptionalText : Option Text → Text → Prop
  | none, written => written = "null"
  | some value, written => WritesText value written

/-- The way to write a truth value. -/
def WritesBool (value : Bool) (written : Text) : Prop :=
  written = if value then "true" else "false"

/-! ## Numbers -/

/-- At least one digit, and nothing else. -/
def IsDigits (text : Text) : Prop := text ≠ [] ∧ ∀ c ∈ text, c.isDigit

/-- Digits that start with a zero only where they are no more than that zero. -/
def IsInteger (text : Text) : Prop := IsDigits text ∧ (text.head? = some '0' → text = ['0'])

/-- A point with the places behind it, or nothing. -/
def IsFraction (text : Text) : Prop := text = [] ∨ ∃ places, IsDigits places ∧ text = '.' :: places

/-- The letter of an exponent, a sign or none, and digits; or nothing. -/
def IsExponent (text : Text) : Prop :=
  text = [] ∨ ∃ letter sign digits, (letter = 'e' ∨ letter = 'E') ∧
    (sign = [] ∨ sign = ['+'] ∨ sign = ['-']) ∧ IsDigits digits ∧
      text = letter :: (sign ++ digits)

/-- A number of any size and precision. -/
def IsNumber (text : Text) : Prop :=
  ∃ sign integer fraction exponent, (sign = [] ∨ sign = ['-']) ∧ IsInteger integer ∧
    IsFraction fraction ∧ IsExponent exponent ∧
      text = sign ++ (integer ++ (fraction ++ exponent))

/-! ## Lists and objects -/

/-- What stands in front of an entry: spaces, and a comma among them unless the entry is the
first. -/
inductive Leads : Bool → Text → Prop
  | first {spaces : Text} (isSpaces : Spaces spaces) : Leads true spaces
  | further {before behind : Text} (isSpaces : Spaces before) (isSpacesBehind : Spaces behind) :
      Leads false (before ++ ',' :: behind)

/-- The entries of a list or an object from one of them on, up to the closing bracket. -/
inductive Entries {ε : Type} (close : Char) (Written : ε → Text → Prop) :
    Bool → List ε → Text → Prop
  | done {isFirst : Bool} {spaces : Text} (isSpaces : Spaces spaces) :
      Entries close Written isFirst [] (spaces ++ [close])
  | entry {isFirst : Bool} {lead written others : Text} {entry : ε} {rest : List ε}
      (leads : Leads isFirst lead) (isWritten : Written entry written)
      (behind : Entries close Written false rest others) :
      Entries close Written isFirst (entry :: rest) (lead ++ (written ++ others))

/-- A member of an object: a key, written between quotes as `IsKey` says, a colon, and a value as
it is written. -/
inductive Member (IsKey : Text → Text → Prop) : Text × Text → Text → Prop
  | mk {key body before behind value : Text} (isKey : IsKey key body) (isSpaces : Spaces before)
      (isSpacesBehind : Spaces behind) :
      Member IsKey (key, value) ('"' :: (body ++ '"' :: (before ++ ':' :: (behind ++ value))))

/-- The written values. -/
inductive Wellformed : Text → Prop
  | null : Wellformed "null"
  | bool (value : Bool) : Wellformed (if value then "true" else "false")
  | number {text : Text} (isNumber : IsNumber text) : Wellformed text
  | text {body : Text} (isUnquoted : Unquoted body) : Wellformed ('"' :: (body ++ ['"']))
  | list {items : List Text} {inner : Text} (layout : Entries ']' Eq true items inner)
      (values : ∀ item ∈ items, Wellformed item) : Wellformed ('[' :: inner)
  | object {members : List (Text × Text)} {inner : Text}
      (layout : Entries '\x7d' (Member fun _ => Unquoted) true members inner)
      (values : ∀ member ∈ members, Wellformed member.2) : Wellformed ('\x7b' :: inner)

/-- An object, given by the texts that its keys stand for and its values as they are written. -/
def ObjectOf (members : List (Text × Text)) (text : Text) : Prop :=
  ∃ inner, text = '\x7b' :: inner ∧ Entries '\x7d' (Member Spelled) true members inner

/-- The parts of an object with one member. -/
theorem ObjectOf.exists_of_singleton {key value text : Text}
    (object : ObjectOf [(key, value)] text) :
    ∃ lead body before gap last, Spaces lead ∧ Spelled key body ∧ Spaces before ∧ Spaces gap ∧
      Spaces last ∧ text = '\x7b' :: (lead ++ ('"' :: (body ++ '"' :: (before ++ ':' ::
        (gap ++ value))) ++ (last ++ ['\x7d']))) := by
  obtain ⟨inner, rfl, layout⟩ := object
  obtain _ | ⟨leads, isMember, behind⟩ := layout
  obtain ⟨isSpaces⟩ := leads
  obtain ⟨spelled, isSpacesKey, isSpacesColon⟩ := isMember
  obtain ⟨isSpacesLast⟩ := behind
  exact ⟨_, _, _, _, _, isSpaces, spelled, isSpacesKey, isSpacesColon, isSpacesLast, rfl⟩

/-! ## Named values -/

/-- The values behind a key, as they are written. -/
def valuesOf (members : List (Text × Text)) (key : Text) : List Text :=
  (members.filter (·.1 = key)).map Prod.snd

/-- What members say about a key: nothing where the key is missing, or a value where it stands once
with that value. -/
def Names {α : Type} (Writes : α → Text → Prop) (members : List (Text × Text)) (key : Text) :
    Option α → Prop
  | none => valuesOf members key = []
  | some value => ∃ written, valuesOf members key = [written] ∧ Writes value written

/-- What members say about the key of a section: they name it with what is given, or it is missing
and nothing is given. -/
def NamesSection {α : Type} (Writes : α → Text → Prop) (members : List (Text × Text)) (key : Text)
    (nothing given : α) : Prop :=
  ∃ named : Option α, Names Writes members key named ∧ given = named.getD nothing

theorem valuesOf_cons (entry : Text × Text) (members : List (Text × Text)) (key : Text) :
    valuesOf (entry :: members) key =
      if entry.1 = key then entry.2 :: valuesOf members key else valuesOf members key := by
  simp only [valuesOf, List.filter_cons, decide_eq_true_eq]
  split <;> rfl

theorem mem_valuesOf {members : List (Text × Text)} {key written : Text} :
    written ∈ valuesOf members key ↔ (key, written) ∈ members := by
  simp [valuesOf]

end Lectern.Json
