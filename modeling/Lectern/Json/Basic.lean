import Lectern.Text.Basic

/-!
# Value trees

The values that reports, decks and configurations are written as. Members keep their order. The
layout puts every item and member on a line of its own, two spaces deeper than what holds it.
-/

namespace Lectern

/-- A tree of values; the members of an object keep their order. -/
inductive Json where
  | null
  | bool (value : Bool)
  | number (value : Nat)
  | text (value : Text)
  | list (items : List Json)
  | object (members : List (Text × Json))

namespace Json

/-- The written form of a character between double quotes. -/
def escapeChar (c : Char) : Text :=
  if c = '"' then "\\\""
  else if c = '\\' then "\\\\"
  else if c = '\n' then "\\n"
  else if c = '\r' then "\\r"
  else if c = '\t' then "\\t"
  else if c.toNat = 8 then "\\b"
  else if c.toNat = 12 then "\\f"
  else if c.toNat < 0x20 then
    "\\u00" ++ [Nat.digitChar (c.toNat / 16), Nat.digitChar (c.toNat % 16)]
  else [c]

/-- The written form of a text. -/
def writeText (value : Text) : Text := "\"" ++ value.flatMap escapeChar ++ "\""

/-- The start of a line at a depth. -/
def newLine (depth : Nat) : Text := '\n' :: List.replicate (2 * depth) ' '

/-- Written items between brackets, each on a line of its own one step deeper. -/
def bracketed (depth : Nat) (open_ close : Char) (items : List Text) : Text :=
  match items with
  | [] => [open_, close]
  | _ =>
    [open_] ++ newLine (depth + 1) ++ (',' :: newLine (depth + 1)).intercalate items
      ++ newLine depth ++ [close]

mutual

/-- The written form of a tree that stands at a depth. -/
def writeAt (depth : Nat) : Json → Text
  | null => "null"
  | bool true => "true"
  | bool false => "false"
  | number value => Text.ofNat value
  | text value => writeText value
  | list items => bracketed depth '[' ']' (writeItems (depth + 1) items)
  | object members => bracketed depth '\x7b' '\x7d' (writeMembers (depth + 1) members)

/-- The written forms of the items of a list. -/
def writeItems (depth : Nat) : List Json → List Text
  | [] => []
  | item :: rest => writeAt depth item :: writeItems depth rest

/-- The written forms of the members of an object. -/
def writeMembers (depth : Nat) : List (Text × Json) → List Text
  | [] => []
  | (key, value) :: rest =>
    (writeText key ++ ": " ++ writeAt depth value) :: writeMembers depth rest

end

/-- The written form of a tree. -/
def write (tree : Json) : Text := writeAt 0 tree

end Json
end Lectern
