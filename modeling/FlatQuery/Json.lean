/-
# JSON

A JSON value and its text, in which every item of a list and every member of an object has a
line of its own, indented by two spaces for each value around it.
-/

namespace FlatQuery

/-- A JSON value.  Numbers and truth values are not needed here. -/
inductive Json where
  | null
  | text (text : String)
  | list (items : List Json)
  | object (members : List (String × Json))

namespace Json

/-- The digit for a number below 16. -/
def hexDigit (n : Nat) : Char :=
  if n < 10 then Char.ofNat ('0'.toNat + n) else Char.ofNat ('a'.toNat + (n - 10))

/-- How a character is written between quotes: the quote, the backslash and the control
characters are escaped, and every other character stands for itself. -/
def escape : Char → String
  | '"' => "\\\""
  | '\\' => "\\\\"
  | '\x08' => "\\b"
  | '\x0c' => "\\f"
  | '\n' => "\\n"
  | '\r' => "\\r"
  | '\t' => "\\t"
  | c =>
    if c.toNat < 0x20 then
      "\\u00" ++ String.ofList [hexDigit (c.toNat / 16), hexDigit (c.toNat % 16)]
    else String.singleton c

/-- A text between quotes. -/
def quoted (text : String) : String :=
  "\"" ++ String.join (text.toList.map escape) ++ "\""

/-- The start of a line that is indented by a number of levels. -/
def lineStart (level : Nat) : String :=
  String.ofList ('\n' :: List.replicate (2 * level) ' ')

/-- Parts on lines of their own between two brackets, of which the closing one stands on the
given level. -/
def enclose (level : Nat) (opening closing : String) (parts : List String) : String :=
  if parts.isEmpty then opening ++ closing
  else
    opening ++ ",".intercalate (parts.map (lineStart (level + 1) ++ ·)) ++ lineStart level ++
      closing

mutual

/-- The text of a value on a level. -/
def pretty (level : Nat) : Json → String
  | null => "null"
  | text t => quoted t
  | list items => enclose level "[" "]" (prettyItems (level + 1) items)
  | object members => enclose level "\x7b" "\x7d" (prettyMembers (level + 1) members)

/-- The texts of the items of a list. -/
def prettyItems (level : Nat) : List Json → List String
  | [] => []
  | item :: items => pretty level item :: prettyItems level items

/-- The texts of the members of an object. -/
def prettyMembers (level : Nat) : List (String × Json) → List String
  | [] => []
  | (name, value) :: members =>
    (quoted name ++ ": " ++ pretty level value) :: prettyMembers level members

end

end Json

end FlatQuery
