import Mathlib.Tactic.SplitIfs
import Lectern.Json.Basic
import Lectern.Json.Reader
import Lectern.Proofs.Json.Grammar

/-!
# Written texts

Scanning a text undoes any way to write it: each piece is scanned to the character that it spells,
and cannot end the text (`scanText_spells`), so what is spelled out between quotes is read back up
to the closing quote, whatever follows (`scanText_spelled`). The writer picks one of these ways
(`spelled_escaped`). Passing over a text ends at the same quote, and halves of surrogate pairs may
then be alone (`passText_unquoted`).
-/

namespace Lectern.Json

open Reader

variable {c : Char} {digits : Text} {unit : Nat}

theorem hexValue?_of_hexDigit {value : Nat} (isDigit : HexDigit c value) :
    hexValue? c = some value := by
  have both : ∀ value < 16, hexValue? (Nat.digitChar value) = some value ∧
      hexValue? (Nat.digitChar value).toUpper = some value := by decide
  obtain ⟨small, rfl | rfl⟩ := isDigit
  · exact (both value small).1
  · exact (both value small).2

theorem shortEscape?_of_mem {letter : Char} (known : (letter, c) ∈ shortEscapes) :
    shortEscape? letter = some c := by
  have all : ∀ escape ∈ shortEscapes, shortEscape? escape.1 = some escape.2 := by decide
  exact all (letter, c) known

/-! ## Scanning -/

theorem scanText_plain (isPlain : IsPlain c) (rest : Text) :
    scanText .plain (c :: rest) = prepend c (scanText .plain rest) := by
  obtain ⟨noQuote, noBackslash, noControl⟩ := isPlain
  rw [scanText, if_neg noQuote, if_neg noBackslash, if_neg (by omega)]

theorem scanText_short {letter : Char} (known : (letter, c) ∈ shortEscapes) (rest : Text) :
    scanText .plain ('\\' :: letter :: rest) = prepend c (scanText .plain rest) := by
  have opened : scanText .plain ('\\' :: letter :: rest) = scanText .escape (letter :: rest) := rfl
  rw [opened, scanText, shortEscape?_of_mem known]

/-- One of the first three digits of a code unit. -/
theorem scanText_digit {digit count : Nat} (isDigit : HexDigit c digit) (more : count < 3)
    (high : Option Nat) (value : Nat) (rest : Text) :
    scanText (.hex high value count) (c :: rest) =
      scanText (.hex high (16 * value + digit) (count + 1)) rest := by
  rw [scanText, hexValue?_of_hexDigit isDigit]
  exact if_pos more

/-- A code unit is scanned up to its last digit, which decides what becomes of it. -/
theorem scanText_unit (isUnit : HexUnit digits unit) (high : Option Nat) (rest : Text) :
    ∃ value digit last, HexDigit last digit ∧ 16 * value + digit = unit ∧
      scanText (.hex high 0 0) (digits ++ rest) = scanText (.hex high value 3) (last :: rest) := by
  obtain ⟨isFirst, isSecond, isThird, isLast⟩ := isUnit
  refine ⟨_, _, _, isLast, rfl, ?_⟩
  rw [List.cons_append, List.cons_append, List.cons_append, List.singleton_append,
    scanText_digit isFirst (by omega), scanText_digit isSecond (by omega),
    scanText_digit isThird (by omega), Nat.mul_zero, Nat.zero_add]

theorem scanText_charUnit (isUnit : HexUnit digits unit) (noLow : isLowSurrogate unit = false)
    (noHigh : isHighSurrogate unit = false) (rest : Text) :
    scanText (.hex none 0 0) (digits ++ rest) =
      prepend (Char.ofNat unit) (scanText .plain rest) := by
  obtain ⟨value, digit, last, isLast, rfl, scanned⟩ := scanText_unit isUnit none rest
  rw [scanned, scanText, hexValue?_of_hexDigit isLast]
  simp [noLow, noHigh]

theorem scanText_highUnit (isUnit : HexUnit digits unit) (noLow : isLowSurrogate unit = false)
    (isHigh : isHighSurrogate unit) (rest : Text) :
    scanText (.hex none 0 0) (digits ++ rest) = scanText (.pairBackslash unit) rest := by
  obtain ⟨value, digit, last, isLast, rfl, scanned⟩ := scanText_unit isUnit none rest
  rw [scanned, scanText, hexValue?_of_hexDigit isLast]
  simp [noLow, isHigh]

theorem scanText_lowUnit (isUnit : HexUnit digits unit) (isLow : isLowSurrogate unit) (high : Nat)
    (rest : Text) :
    scanText (.hex (some high) 0 0) (digits ++ rest) =
      prepend (pairChar high unit) (scanText .plain rest) := by
  obtain ⟨value, digit, last, isLast, rfl, scanned⟩ := scanText_unit isUnit (some high) rest
  rw [scanned, scanText, hexValue?_of_hexDigit isLast]
  simp [isLow]

/-- No character is half a surrogate pair. -/
theorem noSurrogate_toNat (c : Char) :
    isLowSurrogate c.toNat = false ∧ isHighSurrogate c.toNat = false := by
  have valid : c.toNat < 0xD800 ∨ 0xDFFF < c.toNat ∧ c.toNat < 0x110000 := c.valid
  constructor
  · rw [isLowSurrogate, Bool.and_eq_false_iff, decide_eq_false_iff_not, decide_eq_false_iff_not]
    omega
  · rw [isHighSurrogate, Bool.and_eq_false_iff, decide_eq_false_iff_not, decide_eq_false_iff_not]
    omega

/-- A piece is scanned to the character that it spells, and the scan goes on behind it. -/
theorem scanText_spells {piece : Text} (spells : Spells c piece) (rest : Text) :
    scanText .plain (piece ++ rest) = prepend c (scanText .plain rest) := by
  cases spells with
  | plain isPlain => exact scanText_plain isPlain rest
  | short known => exact scanText_short known rest
  | unit isUnit =>
    obtain ⟨noLow, noHigh⟩ := noSurrogate_toNat c
    have scanned := scanText_charUnit isUnit noLow noHigh rest
    rw [Char.ofNat_toNat] at scanned
    exact scanned
  | pair upperBits lowerBits code isHighUnit isLowUnit =>
    rename_i high low upper lower
    have isHigh : isHighSurrogate (0xD800 + upper) = true := by simp [isHighSurrogate]; omega
    have noLow : isLowSurrogate (0xD800 + upper) = false := by simp [isLowSurrogate]; omega
    have isLow : isLowSurrogate (0xDC00 + lower) = true := by simp [isLowSurrogate]; omega
    have meant : pairChar (0xD800 + upper) (0xDC00 + lower) = c := by
      rw [pairChar, Nat.add_sub_cancel_left, Nat.add_sub_cancel_left, Nat.mul_comm upper, ← code,
        Char.ofNat_toNat]
    calc scanText .plain ('\\' :: 'u' :: (high ++ '\\' :: 'u' :: low) ++ rest)
        = scanText (.hex none 0 0) (high ++ ('\\' :: 'u' :: (low ++ rest))) := by
          simp only [List.cons_append, List.append_assoc]
          rfl
      _ = scanText (.pairBackslash (0xD800 + upper)) ('\\' :: 'u' :: (low ++ rest)) :=
          scanText_highUnit isHighUnit noLow isHigh _
      _ = scanText (.hex (some (0xD800 + upper)) 0 0) (low ++ rest) := rfl
      _ = prepend c (scanText .plain rest) := by rw [scanText_lowUnit isLowUnit isLow, meant]

/-- A text is read back up to its closing quote. -/
theorem scanText_spelled {value body : Text} (spelled : Spelled value body) (rest : Text) :
    scanText .plain (body ++ '"' :: rest) = .ok (value, rest) := by
  induction spelled with
  | nil => rfl
  | cons spells others ih =>
    rw [List.append_assoc, scanText_spells spells, ih]
    rfl

/-! ## The writer -/

theorem eq_of_toNat {code : Nat} (same : c.toNat = code) : c = Char.ofNat code := by
  rw [← same, Char.ofNat_toNat]

theorem hexDigit_digitChar {value : Nat} (digit : value < 16) :
    HexDigit (Nat.digitChar value) value := ⟨digit, .inl rfl⟩

/-- The escape of a control character. -/
theorem hexUnit_control {code : Nat} (control : code < 0x20) :
    HexUnit ['0', '0', Nat.digitChar (code / 16), Nat.digitChar (code % 16)] code := by
  have zero : HexDigit '0' 0 := hexDigit_digitChar (by omega)
  have upper : HexDigit (Nat.digitChar (code / 16)) (code / 16) := hexDigit_digitChar (by omega)
  have lower : HexDigit (Nat.digitChar (code % 16)) (code % 16) := hexDigit_digitChar (by omega)
  have isUnit := HexUnit.mk zero zero upper lower
  have same : 16 * (16 * (16 * 0 + 0) + code / 16) + code % 16 = code := by omega
  rwa [same] at isUnit

theorem spells_escapeChar (c : Char) : Spells c (escapeChar c) := by
  rw [escapeChar]
  split_ifs with quote backslash feed carriage tab backspace formFeed control
  · subst quote
    exact .short (by decide)
  · subst backslash
    exact .short (by decide)
  · subst feed
    exact .short (by decide)
  · subst carriage
    exact .short (by decide)
  · subst tab
    exact .short (by decide)
  · obtain rfl := eq_of_toNat backspace
    exact .short (by decide)
  · obtain rfl := eq_of_toNat formFeed
    exact .short (by decide)
  · exact .unit (hexUnit_control control)
  · exact .plain ⟨quote, backslash, by omega⟩

/-- What the writer puts between quotes spells out the text. -/
theorem spelled_escaped (value : Text) : Spelled value (value.flatMap escapeChar) := by
  induction value with
  | nil => exact .nil
  | cons c value ih => exact .cons (spells_escapeChar c) ih

/-! ## Passing over texts -/

theorem passText_digit {digit count : Nat} (isDigit : HexDigit c digit) (rest : Text) :
    passText (.hex count) (c :: rest) =
      if count < 3 then passText (.hex (count + 1)) rest else passText .plain rest := by
  rw [passText, hexValue?_of_hexDigit isDigit]
  rfl

theorem passText_unit (isUnit : HexUnit digits unit) (rest : Text) :
    passText (.hex 0) (digits ++ rest) = passText .plain rest := by
  obtain ⟨isFirst, isSecond, isThird, isLast⟩ := isUnit
  rw [List.cons_append, List.cons_append, List.cons_append, List.singleton_append,
    passText_digit isFirst, if_pos (by omega), passText_digit isSecond, if_pos (by omega),
    passText_digit isThird, if_pos (by omega), passText_digit isLast, if_neg (by omega)]

/-- A text is passed over up to its closing quote. -/
theorem passText_unquoted {body : Text} (unquoted : Unquoted body) (rest : Text) :
    passText .plain (body ++ '"' :: rest) = .ok rest := by
  induction unquoted with
  | nil => rfl
  | plain isPlain others ih =>
    obtain ⟨noQuote, noBackslash, noControl⟩ := isPlain
    rw [List.cons_append, passText, if_neg noQuote, if_neg noBackslash, if_neg (by omega), ih]
  | @short letter c behind known others ih =>
    have opened : passText .plain ('\\' :: letter :: behind ++ '"' :: rest) =
        passText .escape (letter :: (behind ++ '"' :: rest)) := rfl
    rw [opened, passText, shortEscape?_of_mem known, Option.isSome_some, if_pos rfl, ih]
  | @unit digits behind unit isUnit others ih =>
    have opened : passText .plain ('\\' :: 'u' :: (digits ++ behind) ++ '"' :: rest) =
        passText (.hex 0) (digits ++ behind ++ '"' :: rest) := rfl
    rw [opened, List.append_assoc, passText_unit isUnit, ih]

end Lectern.Json
