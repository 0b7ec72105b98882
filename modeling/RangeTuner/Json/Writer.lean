import RangeTuner.Digest
import RangeTuner.Json.Value

/-! Writing JSON texts: on one line without blanks, or indented by two blanks a level. -/

namespace RangeTuner.Json

/-- A character of a string as it is written: quotes, backslashes and control characters are
escaped.
-/
def escape (c : Char) : List Char :=
  match c with
  | '"' => ['\\', '"']
  | '\\' => ['\\', '\\']
  | '\x08' => ['\\', 'b']
  | '\x0c' => ['\\', 'f']
  | '\n' => ['\\', 'n']
  | '\r' => ['\\', 'r']
  | '\t' => ['\\', 't']
  | c => if c.toNat < 0x20 then '\\' :: 'u' :: Digest.hexDigits 4 c.toNat else [c]

/-- A string in quotes. -/
def quote (s : String) : List Char :=
  '"' :: (s.toList.flatMap escape ++ ['"'])

/-- A value without parts. -/
def leafText : Json → List Char
  | .null => "null".toList
  | .bool true => "true".toList
  | .bool false => "false".toList
  | .number text => text.toList
  | .string s => quote s
  | _ => []

/-- Parts between an opening and a closing bracket, with separators between them. -/
def enclose (first last : Char) (separator : List Char) (parts : List (List Char))
    : List Char :=
  first :: ((parts.intersperse separator).flatten ++ [last])

mutual

/-- The text of a value on one line. -/
def compact : Json → List Char
  | .array items => enclose '[' ']' [','] (compactItems items)
  | .object members => enclose '{' '}' [','] (compactMembers members)
  | j => leafText j

/-- The texts of the items of an array. -/
def compactItems : List Json → List (List Char)
  | [] => []
  | item :: rest => compact item :: compactItems rest

/-- The texts of the members of an object. -/
def compactMembers : List (String × Json) → List (List Char)
  | [] => []
  | (name, item) :: rest => (quote name ++ ':' :: compact item) :: compactMembers rest

end

/-- A line feed and the blanks of a level. -/
def lineStart (level : Nat) : List Char :=
  '\n' :: List.replicate (2 * level) ' '

/-- Parts on lines of their own, one level below the brackets; brackets alone for none. -/
def encloseLines (first last : Char) (level : Nat) (parts : List (List Char)) : List Char :=
  if parts.isEmpty then [first, last]
  else
    enclose first last [] [
      (parts.map (lineStart (level + 1) ++ ·)).intersperse [','] |>.flatten,
      lineStart level]

mutual

/-- The text of a value that stands on a level, indented. -/
def indented (level : Nat) : Json → List Char
  | .array items => encloseLines '[' ']' level (indentedItems level items)
  | .object members => encloseLines '{' '}' level (indentedMembers level members)
  | j => leafText j

/-- The texts of the items of an array on a level. -/
def indentedItems (level : Nat) : List Json → List (List Char)
  | [] => []
  | item :: rest => indented (level + 1) item :: indentedItems level rest

/-- The texts of the members of an object on a level. -/
def indentedMembers (level : Nat) : List (String × Json) → List (List Char)
  | [] => []
  | (name, item) :: rest =>
      (quote name ++ ':' :: ' ' :: indented (level + 1) item) :: indentedMembers level rest

end

/-- The text of a value on one line. -/
def write (j : Json) : String :=
  .ofList (compact j)

/-- The text of a value, indented. -/
def writeIndented (j : Json) : String :=
  .ofList (indented 0 j)

end RangeTuner.Json
