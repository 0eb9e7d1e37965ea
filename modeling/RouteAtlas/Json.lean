/-
  RouteAtlas: JSON texts.

  The values that are written here are texts, lists and objects with their members in order.

  * `Json.encoded` writes a text: quotes, backslashes and control characters are escaped, everything
    else stands for itself;
  * `Json.render` writes a value over several lines, two spaces deeper at each level; what is empty
    stays on its line.
-/
import RouteAtlas.Text.Blank

namespace RouteAtlas

open RouteAtlas.Text

/-- A value of a JSON text. -/
inductive Json where
  | text (value : String)
  | list (items : List Json)
  | object (members : List (String × Json))
  deriving Inhabited

namespace Json

/-! ## Texts -/

/-- A digit of a hexadecimal number. -/
def hexDigit (n : Nat) : Char :=
  (Nat.digitChar n)

/-- A character inside quotes. -/
def escaped (c : Char) : List Char :=
  match c with
  | '"' => ['\\', '"']
  | '\\' => ['\\', '\\']
  | '\n' => ['\\', 'n']
  | '\r' => ['\\', 'r']
  | '\t' => ['\\', 't']
  | '\x08' => ['\\', 'b']
  | '\x0c' => ['\\', 'f']
  | c =>
    if c.toNat < 32 then ['\\', 'u', '0', '0', hexDigit (c.toNat / 16), hexDigit (c.toNat % 16)]
    else [c]

/-- A text in quotes. -/
def encoded (s : String) : List Char :=
  '"' :: s.toList.flatMap escaped ++ ['"']

/-! ## Layout -/

/-- The start of a line at a level. -/
def newLine (level : Nat) : List Char :=
  '\n' :: List.replicate (2 * level) ' '

/-- Parts between an opening and a closing mark, each on a line of its own one level deeper. -/
def enclosed (opening closing : Char) (level : Nat) (parts : List (List Char)) : List Char :=
  if parts.isEmpty then [opening, closing]
  else
    opening :: newLine (level + 1) ++ joinChars (',' :: newLine (level + 1)) parts ++ newLine level
      ++ [closing]

mutual
/-- Writes a value at a level. -/
def write (level : Nat) : Json → List Char
  | text value => encoded value
  | list items => enclosed '[' ']' level (writeItems (level + 1) items)
  | object members => enclosed '\x7b' '\x7d' level (writeMembers (level + 1) members)
termination_by structural value => value
/-- Writes the items of a list. -/
def writeItems (level : Nat) : List Json → List (List Char)
  | [] => []
  | item :: rest => write level item :: writeItems level rest
termination_by structural items => items
/-- Writes the members of an object. -/
def writeMembers (level : Nat) : List (String × Json) → List (List Char)
  | [] => []
  | (key, value) :: rest => (encoded key ++ [':', ' '] ++ write level value) :: writeMembers level rest
termination_by structural members => members
end

/-- Writes a value. -/
def render (value : Json) : String :=
  .ofList (write 0 value)

end Json

end RouteAtlas
