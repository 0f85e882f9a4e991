import Lectern.Json.Problem
import Lectern.Text.Digit

/-!
# Reading value texts

A reader takes a value off the front of a text. Readers decode while they read and stop at the
first problem, so wrong content early in a text hides a broken form behind it. Values that
nobody asks for are skipped; skipping accepts every well-formed value.
-/

namespace Lectern.Json

/-- Takes a value off the front of a text. -/
abbrev Reader (α : Type) := StateT Text (Except Problem) α

namespace Reader

/-- Stops at what was read last. -/
def fail {α : Type} (cause : Cause) : Reader α := fun unread => .error ⟨cause, unread, 0⟩

/-- Stops at the first byte in front. -/
def failAhead {α : Type} (cause : Cause) : Reader α := fun unread => .error ⟨cause, unread, 1⟩

/-- The character in front. -/
def peek : Reader (Option Char) := fun unread => .ok (unread.head?, unread)

/-- Drops the character in front. -/
def advance : Reader Unit := fun unread => .ok ((), unread.tail)

/-- Whether a character may stand between tokens. -/
def isSpace (c : Char) : Bool := c == ' ' || c == '\n' || c == '\t' || c == '\r'

/-- The first character that is no space; the spaces before it are dropped. -/
def peekToken : Reader (Option Char) := fun unread =>
  let rest := unread.dropWhile isSpace
  .ok (rest.head?, rest)

/-- Reads the characters of a word. -/
def word : List Char → Reader Unit
  | [] => pure ()
  | c :: rest => do
    match ← peek with
    | none => fail .endInValue
    | some found =>
      if found = c then
        advance
        word rest
      else failAhead .expectedWord

/-! ## Texts -/

/-- Where a text scanner stands: between characters, behind a backslash, inside four hexadecimal
digits, or on the way to the second half of a surrogate pair. -/
inductive Scan where
  | plain
  | escape
  | hex (high : Option Nat) (value count : Nat)
  | pairBackslash (high : Nat)
  | pairLetter (high : Nat)

/-- The character that a one-letter escape stands for. -/
def shortEscape? : Char → Option Char
  | '"' => some '"'
  | '\\' => some '\\'
  | '/' => some '/'
  | 'b' => some '\x08'
  | 'f' => some '\x0c'
  | 'n' => some '\n'
  | 'r' => some '\r'
  | 't' => some '\t'
  | _ => none

/-- The value of a hexadecimal digit. -/
def hexValue? (c : Char) : Option Nat :=
  if c.isDigit then some (c.toNat - '0'.toNat)
  else if 'a' ≤ c ∧ c ≤ 'f' then some (c.toNat - 'a'.toNat + 10)
  else if 'A' ≤ c ∧ c ≤ 'F' then some (c.toNat - 'A'.toNat + 10)
  else none

/-- The problem with a character that is no hexadecimal digit, behind `count` digits. The four
bytes of the escape are read at once; where there are less, the text ends too early. -/
def hexProblem (count : Nat) (unread : Text) : Problem :=
  if count + Text.byteLength unread < 4 then ⟨.endInText, [], 0⟩
  else ⟨.badEscape, unread, 4 - count⟩

/-- Whether a code unit is the first half of a surrogate pair. -/
def isHighSurrogate (unit : Nat) : Bool := 0xD800 ≤ unit && unit ≤ 0xDBFF

/-- Whether a code unit is the second half of a surrogate pair. -/
def isLowSurrogate (unit : Nat) : Bool := 0xDC00 ≤ unit && unit ≤ 0xDFFF

/-- The character of a surrogate pair. -/
def pairChar (high low : Nat) : Char :=
  Char.ofNat (0x10000 + (high - 0xD800) * 0x400 + (low - 0xDC00))

/-- Puts a character in front of the text that a scan gives. -/
def prepend (c : Char) (scanned : Except Problem (Text × Text)) : Except Problem (Text × Text) :=
  scanned.map fun (value, unread) => (c :: value, unread)

/-- The text up to its closing quote, and what follows the quote. -/
def scanText : Scan → Text → Except Problem (Text × Text)
  | _, [] => .error ⟨.endInText, [], 0⟩
  | .plain, c :: rest =>
    if c = '"' then .ok ([], rest)
    else if c = '\\' then scanText .escape rest
    else if c.toNat < 0x20 then .error ⟨.controlCharacter, rest, 0⟩
    else prepend c (scanText .plain rest)
  | .escape, c :: rest =>
    match shortEscape? c with
    | some meant => prepend meant (scanText .plain rest)
    | none =>
      if c = 'u' then scanText (.hex none 0 0) rest else .error ⟨.badEscape, c :: rest, 1⟩
  | .hex high value count, c :: rest =>
    match hexValue? c with
    | none => .error (hexProblem count (c :: rest))
    | some digit =>
      let unit := 16 * value + digit
      if count < 3 then scanText (.hex high unit (count + 1)) rest
      else
        match high with
        | none =>
          if isLowSurrogate unit then .error ⟨.loneSurrogate, rest, 0⟩
          else if isHighSurrogate unit then scanText (.pairBackslash unit) rest
          else prepend (Char.ofNat unit) (scanText .plain rest)
        | some high =>
          if isLowSurrogate unit then prepend (pairChar high unit) (scanText .plain rest)
          else .error ⟨.loneSurrogate, rest, 0⟩
  | .pairBackslash high, c :: rest =>
    if c = '\\' then scanText (.pairLetter high) rest
    else .error ⟨.unfinishedPair, c :: rest, 1⟩
  | .pairLetter high, c :: rest =>
    if c = 'u' then scanText (.hex (some high) 0 0) rest
    else .error ⟨.unfinishedPair, c :: rest, 1⟩

/-- The rest of a text behind its opening quote. -/
def textBody : Reader Text := scanText .plain

/-- Where a scanner stands that passes over a text. -/
inductive Pass where
  | plain
  | escape
  | hex (count : Nat)

/-- What follows the closing quote. Escaped code units are not paired up here, and a control
character is noticed before it is read. -/
def passText : Pass → Text → Except Problem Text
  | _, [] => .error ⟨.endInText, [], 0⟩
  | .plain, c :: rest =>
    if c = '"' then .ok rest
    else if c = '\\' then passText .escape rest
    else if c.toNat < 0x20 then .error ⟨.controlCharacter, c :: rest, 0⟩
    else passText .plain rest
  | .escape, c :: rest =>
    if (shortEscape? c).isSome then passText .plain rest
    else if c = 'u' then passText (.hex 0) rest
    else .error ⟨.badEscape, c :: rest, 1⟩
  | .hex count, c :: rest =>
    if (hexValue? c).isNone then .error (hexProblem count (c :: rest))
    else if count < 3 then passText (.hex (count + 1)) rest
    else passText .plain rest

/-- Passes over a text behind its opening quote. -/
def skipText : Reader Unit := fun unread => (passText .plain unread).map fun rest => ((), rest)

/-! ## Numbers -/

/-- The digits in front. -/
def digits : Reader Text := fun unread =>
  .ok (unread.takeWhile Char.isDigit, unread.dropWhile Char.isDigit)

/-- Reads at least one digit. -/
def someDigits : Reader Unit := do
  if (← digits) = [] then failAhead .badNumber

/-- Passes over the integer part of a number: a zero with no digit behind it, or other digits. -/
def skipInteger : Reader Unit := do
  match ← peek with
  | some '0' =>
    advance
    if (← peek).any Char.isDigit then failAhead .badNumber
  | _ => someDigits

/-- Whether an exponent follows. -/
def exponentAhead : Reader Bool := do
  let c ← peek
  pure (c = some 'e' || c = some 'E')

/-- Takes the sign of an exponent and says whether it is a minus. -/
def exponentSign : Reader Bool := do
  match ← peek with
  | some '+' => advance; pure false
  | some '-' => advance; pure true
  | _ => pure false

/-- Passes over a point with the places behind it, if there is one. -/
def skipFraction : Reader Unit := do
  if (← peek) = some '.' then
    advance
    someDigits

/-- Passes over an exponent, if there is one. -/
def skipExponent : Reader Unit := do
  if ← exponentAhead then
    advance
    let _ ← exponentSign
    someDigits

/-- Passes over a number behind its sign. -/
def skipNumber : Reader Unit := do
  skipInteger
  skipFraction
  skipExponent

/-- Integers from this bound on are read as floating point. -/
def integerBound : Nat := UInt64.size

/-- Adds digits to a number as long as it stays below the bound, and gives the digits left. -/
def accumulate (bound : Nat) : Nat → Text → Nat × Text
  | value, [] => (value, [])
  | value, digit :: rest =>
    let next := 10 * value + (digit.toNat - '0'.toNat)
    if next < bound then accumulate bound next rest else (value, digit :: rest)

/-- Brings the exponent of a tiny number into the range of one division, 308 places at a time;
a number that has become zero is done. -/
def scaleDown : Nat → Rat → Int → Rat
  | 0, _, _ => 0
  | more + 1, value, exponent =>
    if value = 0 then 0
    else if -308 ≤ exponent then
      Binary64.round (value / Binary64.round ((10 : Rat) ^ (-exponent)))
    else
      scaleDown more (Binary64.round (value / Binary64.round ((10 : Rat) ^ (308 : Int))))
        (exponent + 308)

/-- The floating-point number with these digits and this exponent. -/
def floatOf (negative : Bool) (significand : Nat) (exponent : Int) : Reader Found := do
  let value := Binary64.round significand
  if exponent < 0 then pure (.float negative (scaleDown 4 value exponent))
  else if significand = 0 then pure (.float negative 0)
  else if 308 < exponent then fail .numberTooLarge
  else
    let scaled := Binary64.round (value * Binary64.round ((10 : Rat) ^ exponent))
    if Binary64.overflow ≤ scaled then fail .numberTooLarge else pure (.float negative scaled)

/-- Exponents from this bound on lead out of the range of binary64, whatever the digits. -/
def exponentBound : Nat := UInt32.size / 2

/-- Reads the digits of an exponent up to the one that leads to the bound; gives the size and
whether there is such a digit. -/
def exponentSize : Reader (Nat × Bool) := fun unread =>
  let (size, left) := accumulate exponentBound 0 (unread.takeWhile Char.isDigit)
  .ok ((size, left ≠ []), left ++ unread.dropWhile Char.isDigit)

/-- Reads an exponent behind its letter and gives the number. An exponent that is out of range is
noticed at the digit that makes it so. -/
def exponentPart (negative : Bool) (significand : Nat) (start : Int) : Reader Found := do
  advance
  let below ← exponentSign
  match ← peek with
  | none => fail .endInValue
  | some c =>
    if c.isDigit then
      let (size, isLonger) ← exponentSize
      if !isLonger then
        floatOf negative significand (if below then start - size else start + size)
      else if significand ≠ 0 ∧ !below then failAhead .numberTooLarge
      else
        let _ ← digits
        pure (.float negative 0)
    else failAhead .badNumber

/-- Reads what may follow the digits of a number that is no integer. -/
def floatEnd (negative : Bool) (significand : Nat) (exponent : Int) : Reader Found := do
  if ← exponentAhead then exponentPart negative significand exponent
  else floatOf negative significand exponent

/-- Reads the places behind a point. Places that no longer fit are ignored. -/
def fractionPart (negative : Bool) (significand : Nat) (start : Int) : Reader Found := do
  advance
  let places ← digits
  let (value, ignored) := accumulate integerBound significand places
  if places = [] then
    match ← peek with
    | none => failAhead .endInValue
    | some _ => failAhead .badNumber
  else floatEnd negative value (start - (places.length - ignored.length))

/-- Reads what follows the integer part of a number. -/
def numberEnd (negative : Bool) (significand : Nat) (exponent : Int) : Reader Found := do
  match ← peek with
  | some '.' => fractionPart negative significand exponent
  | some 'e' | some 'E' => exponentPart negative significand exponent
  | _ =>
    if exponent ≠ 0 ∨ (negative ∧ (significand = 0 ∨ integerBound / 2 < significand)) then
      floatOf negative significand exponent
    else pure (.integer negative significand)

/-- Reads a number behind its sign. -/
def number (negative : Bool) : Reader Found := do
  match ← peek with
  | none => fail .endInValue
  | some '0' =>
    advance
    if (← peek).any Char.isDigit then failAhead .badNumber else numberEnd negative 0 0
  | some _ =>
    let places ← digits
    if places = [] then failAhead .badNumber
    else
      let (value, left) := accumulate integerBound 0 places
      numberEnd negative value left.length

/-! ## Values that are not asked for -/

/-- Reads a colon. -/
def colon : Reader Unit := do
  match ← peekToken with
  | none => failAhead .endInObject
  | some ':' => advance
  | some _ => failAhead .expectedColon

/-- Passes over a key and its colon, and then over the value. -/
def skipMember (value : Reader Unit) : Reader Unit := do
  match ← peekToken with
  | none => failAhead .endInObject
  | some '"' => advance; skipText
  | some _ => failAhead .keyNotText
  colon
  value

/-- A pair of brackets with entries between: how an entry is passed over when values are, which
character closes them, and the problem where they are cut off or something else than a comma
follows an entry. -/
structure Brackets where
  entry : Reader Unit → Reader Unit
  close : Char
  cutOff : Cause
  noComma : Cause

namespace Brackets

/-- The brackets of a list. -/
def list : Brackets := ⟨id, ']', .endInList, .expectedListComma⟩

/-- The braces of an object. -/
def object : Brackets := ⟨skipMember, '\x7d', .endInObject, .expectedObjectComma⟩

/-- Passes over what follows the opening bracket, given how entries up to the end are passed
over. -/
def opened (brackets : Brackets) (entries : Reader Unit) : Reader Unit := do
  match ← peekToken with
  | none => failAhead brackets.cutOff
  | some c => if c = brackets.close then advance else entries

/-- Passes over what follows an entry, given how further entries up to the end are passed over. -/
def further (brackets : Brackets) (entries : Reader Unit) : Reader Unit := do
  match ← peekToken with
  | none => failAhead brackets.cutOff
  | some c =>
    if c = ',' then
      advance
      entries
    else if c = brackets.close then advance
    else failAhead brackets.noComma

end Brackets

mutual

/-- Passes over a value. The first argument bounds the nesting and the number of entries. -/
def skipValueWithin : Nat → Reader Unit
  | 0 => fail .expectedValue
  | depth + 1 => do
    match ← peekToken with
    | none => fail .endInValue
    | some 'n' => word "null"
    | some 't' => word "true"
    | some 'f' => word "false"
    | some '"' => advance; skipText
    | some '-' => advance; skipNumber
    | some '[' => advance; Brackets.list.opened (skipEntriesWithin .list depth)
    | some '\x7b' => advance; Brackets.object.opened (skipEntriesWithin .object depth)
    | some c => if c.isDigit then skipNumber else failAhead .expectedValue

/-- Passes over the entries between brackets up to their end. -/
def skipEntriesWithin (brackets : Brackets) : Nat → Reader Unit
  | 0 => fail .expectedValue
  | depth + 1 => do
    brackets.entry (skipValueWithin depth)
    brackets.further (skipEntriesWithin brackets depth)

end

/-- Passes over a value. -/
def skipValue : Reader Unit := fun unread => skipValueWithin (2 * unread.length + 2) unread

/-! ## Values that are asked for -/

/-- Says what stands in front instead of what is expected. -/
def mismatch {α : Type} (expected : Text) : Reader α := do
  let found : Found ←
    match ← peek with
    | some 'n' => word "null"; pure .null
    | some 't' => word "true"; pure (.bool true)
    | some 'f' => word "false"; pure (.bool false)
    | some '-' => advance; number true
    | some '"' => advance; pure (.text (← textBody))
    | some '[' => pure .list
    | some '\x7b' => pure .object
    | some c => if c.isDigit then number false else failAhead .expectedValue
    | none => failAhead .expectedValue
  fail (.invalidType found expected)

/-- Reads a text. -/
def text : Reader Text := do
  match ← peekToken with
  | none => failAhead .endInValue
  | some '"' => advance; textBody
  | some _ => mismatch "a string"

/-- Reads a text, or `null` for none. -/
def optionalText : Reader (Option Text) := do
  match ← peekToken with
  | some 'n' => word "null"; pure none
  | _ => pure (some (← text))

/-- Reads a truth value. -/
def bool : Reader Bool := do
  match ← peekToken with
  | none => failAhead .endInValue
  | some 't' => word "true"; pure true
  | some 'f' => word "false"; pure false
  | some _ => mismatch "a boolean"

/-! ## Records -/

/-- A field of a record: its key, and how its value is read into the record. -/
structure Field (σ : Type) where
  key : Text
  read : σ → Reader σ

/-- Reads the key of the next member; `none` where the object ends. -/
def nextKey (first : Bool) : Reader (Option Text) := do
  match ← peekToken with
  | none => failAhead .endInObject
  | some '\x7d' => pure none
  | some ',' =>
    if first then failAhead .keyNotText
    else
      advance
      match ← peekToken with
      | none => failAhead .endInValue
      | some '"' => advance; pure (some (← textBody))
      | some '\x7d' => failAhead .trailingComma
      | some _ => failAhead .keyNotText
  | some c =>
    if !first then failAhead .expectedObjectComma
    else if c = '"' then
      advance
      pure (some (← textBody))
    else failAhead .keyNotText

/-- Stops at a key that came before. Spaces behind the key, and the end of the object if it follows
there, are still read. -/
def repeatedField {α : Type} (key : Text) : Reader α := do
  if (← peekToken) = some '\x7d' then advance
  fail (.duplicateField key)

/-- Reads the members of a record. Each known key may come once; other members are skipped. -/
def members {σ : Type} (fields : List (Field σ)) : Nat → Bool → List Text → σ → Reader σ
  | 0, _, _, _ => fail .endInObject
  | more + 1, first, seen, record => do
    match ← nextKey first with
    | none =>
      advance
      pure record
    | some key =>
      match fields.find? (·.key = key) with
      | none =>
        colon
        skipValue
        members fields more false seen record
      | some field =>
        if key ∈ seen then repeatedField key
        else
          colon
          members fields more false (key :: seen) (← field.read record)

/-- Whether a list has one more item; stands in front of that item then. -/
def nextItem (first : Bool) : Reader Bool := do
  match ← peekToken with
  | none => failAhead .endInList
  | some ']' => pure false
  | some ',' =>
    if first then pure true
    else
      advance
      match ← peekToken with
      | none => failAhead .endInValue
      | some ']' => failAhead .trailingComma
      | some _ => pure true
  | some _ => if first then pure true else failAhead .expectedListComma

/-- Reads the end of a list that may hold no more items. -/
def listEnd : Reader Unit := do
  match ← peekToken with
  | none => failAhead .endInList
  | some ']' => advance
  | some ',' =>
    advance
    match ← peekToken with
    | some ']' => failAhead .trailingComma
    | _ => failAhead .trailingCharacters
  | some _ => failAhead .trailingCharacters

/-- Reads the fields of a record from the items of a list, in order; missing items leave their
fields as they are. -/
def items {σ : Type} : List (Field σ) → Bool → σ → Reader σ
  | [], _, record => do
    listEnd
    pure record
  | field :: rest, first, record => do
    if ← nextItem first then items rest false (← field.read record)
    else
      listEnd
      pure record

/-- Reads a record, from an object or from a list of its fields. -/
def record {σ : Type} (name : Text) (fields : List (Field σ)) (start : σ) : Reader σ := do
  match ← peekToken with
  | none => failAhead .endInValue
  | some '[' =>
    advance
    items fields true start
  | some '\x7b' =>
    advance
    fun unread => members fields (unread.length + 1) true [] start unread
  | some _ => mismatch name

/-- Reads one of several words: as a text, or as the key of an object whose value is `null`. -/
def variant {α : Type} (known : List (Text × α)) : Reader α := do
  let ofName := fun (name : Text) =>
    match known.lookup name with
    | some value => (pure value : Reader α)
    | none => fail (.unknownVariant name (known.map Prod.fst))
  match ← peekToken with
  | none => failAhead .endInValue
  | some '"' =>
    advance
    ofName (← textBody)
  | some '\x7b' =>
    advance
    let value ←
      match ← peekToken with
      | none => failAhead .endInObject
      | some '"' => advance; ofName (← textBody)
      | some _ => failAhead .keyNotText
    colon
    match ← peekToken with
    | none => failAhead .endInValue
    | some 'n' => word "null"
    | some _ => mismatch "unit"
    match ← peekToken with
    | none => failAhead .endInObject
    | some '\x7d' =>
      advance
      pure value
    | some _ => fail .expectedValue
  | some _ => failAhead .expectedValue

/-- Reads a text that holds one value and nothing else. -/
def whole {α : Type} (reader : Reader α) (source : Text) : Except Problem α := do
  let (value, unread) ← reader source
  match unread.dropWhile isSpace with
  | [] => .ok value
  | rest => .error ⟨.trailingCharacters, rest, 1⟩

end Reader
end Lectern.Json
