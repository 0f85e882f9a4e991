/-!
# Texts

A text is the list of its characters, so that every recogniser is a function on lists and every
law is stated by append and membership. This module holds the operations that know nothing of
decks: decimal numbers, joining, cutting at a mark, and the leftmost match of a recogniser.
Character classes have modules of their own.
-/

namespace Lectern

/-- A text is the list of its characters. -/
abbrev Text := List Char

/-- A string literal may stand where a text is expected. -/
instance : Coe String Text := ⟨String.toList⟩

namespace Text

/-- The decimal digits of a number. -/
def ofNat (n : Nat) : Text := Nat.toDigits 10 n

/-- Lines joined by line feeds. -/
def joinLines (lines : List Text) : Text := ['\n'].intercalate lines

/-- The parts before and after the first `mark`; `none` if there is no such character. -/
def cutAt (mark : Char) : Text → Option (Text × Text)
  | [] => none
  | c :: rest =>
    if c = mark then some ([], rest)
    else (cutAt mark rest).map fun (before, after) => (c :: before, after)

/-- The parts before and after the first occurrence of `mark`. -/
def cutAtText (mark : Text) : Text → Option (Text × Text)
  | [] => if mark = [] then some ([], []) else none
  | c :: rest =>
    match mark.isPrefixOf? (c :: rest) with
    | some after => some ([], after)
    | none => (cutAtText mark rest).map fun (before, after) => (c :: before, after)

/-- Whether `part` occurs somewhere in the text. -/
def mentions (part text : Text) : Bool := (cutAtText part text).isSome

/-- Every `mark` replaced by `image`, all else kept. -/
def replaceChar (mark : Char) (image : Text) (text : Text) : Text :=
  text.flatMap fun c => if c = mark then image else [c]

/-- The answer of the recogniser at the first position where it gives one. -/
def firstMatch {α : Type} (recognise : Text → Option α) : Text → Option α
  | [] => recognise []
  | c :: rest =>
    match recognise (c :: rest) with
    | some found => some found
    | none => firstMatch recognise rest

/-- The rest after `start`, which is given in lower case and matched in any ASCII case. -/
def dropCaseless (start : Text) (text : Text) : Option Text :=
  if (text.take start.length).map Char.toLower = start then some (text.drop start.length) else none

/-- Equality up to the case of ASCII letters. -/
def equalIgnoringCase (a b : Text) : Bool := a.map Char.toLower = b.map Char.toLower

/-- Whether `a` comes before `b` or equals it, by code points. -/
def atMost (a b : Text) : Bool := compare a b != .gt

/-- The number of bytes that UTF-8 needs for the text. -/
def byteLength (text : Text) : Nat := text.foldr (fun c length => c.utf8Size + length) 0

/-- The bytes of the UTF-8 form. -/
def utf8 (text : Text) : List UInt8 := text.flatMap String.utf8EncodeChar

/-- Every byte of the UTF-8 form is counted. -/
theorem length_utf8 (text : Text) : (utf8 text).length = byteLength text := by
  induction text with
  | nil => rfl
  | cons c rest ih =>
    have step : byteLength (c :: rest) = c.utf8Size + byteLength rest := rfl
    rw [step, ← ih, utf8, List.flatMap_cons, List.length_append, String.length_utf8EncodeChar]
    rfl

/-- The UTF-8 form. -/
def toBytes (text : Text) : ByteArray := (String.ofList text).toUTF8

/-- The text whose UTF-8 form the bytes are, if there is one. -/
def ofBytes? (bytes : ByteArray) : Option Text := (String.fromUTF8? bytes).map String.toList

end Text
end Lectern
