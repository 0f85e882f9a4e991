import Lectern.Text.Blank

/-!
# Quoted texts

A text or path inside a message stands between double quotes. Quotes, backslashes, line ends,
tabs and NUL have short escapes; other controls, and blanks other than the space, are written by
their code point in hexadecimal.
-/

namespace Lectern.Text

/-- The escape of a character by its code point. -/
def codePointEscape (c : Char) : Text := "\\u\x7b" ++ Nat.toDigits 16 c.toNat ++ "\x7d"

/-- The written form of a character between double quotes. -/
def quoteChar (c : Char) : Text :=
  if c = '"' then "\\\""
  else if c = '\\' then "\\\\"
  else if c = '\n' then "\\n"
  else if c = '\r' then "\\r"
  else if c = '\t' then "\\t"
  else if c.toNat = 0 then "\\0"
  else if c.toNat < 0x20 || (0x7F ≤ c.toNat && c.toNat < 0xA0) || (c ≠ ' ' && isBlank c) then
    codePointEscape c
  else [c]

/-- The text between double quotes. -/
def quoted (text : Text) : Text := "\"" ++ text.flatMap quoteChar ++ "\""

end Lectern.Text
