import RangeTuner.Json.Value

/-! Reading JSON texts. The text is cut into tokens, character by character, and the tokens are
put together on a stack of open arrays and objects; both passes are folds.
-/

namespace RangeTuner.Json

/-- A bracket, a separator, or a value without parts. -/
inductive Token where
  | openArray
  | closeArray
  | openObject
  | closeObject
  | comma
  | colon
  | leaf (j : Json)

/-- A string being read: its characters so far, backwards, the first half of a surrogate pair
that waits for the second, and whether all of it so far is characters.
-/
structure Quoted where
  read : List Char
  half : Option Nat
  sound : Bool

namespace Quoted

/-- A string of which only the opening quote was read. -/
def start : Quoted :=
  ⟨[], none, true⟩

/-- One more character; a waiting half has missed its other half. -/
def push (q : Quoted) (c : Char) : Quoted :=
  ⟨c :: q.read, none, q.sound && q.half.isNone⟩

/-- One more escape by number: a character, or a half of one. -/
def pushUnit (q : Quoted) (unit : Nat) : Quoted :=
  let isFirst := 0xd800 ≤ unit && unit < 0xdc00
  let isSecond := 0xdc00 ≤ unit && unit < 0xe000
  match q.half with
  | some first =>
      if isSecond then
        ⟨.ofNat (0x10000 + (first - 0xd800) * 0x400 + (unit - 0xdc00)) :: q.read, none, q.sound⟩
      else ⟨q.read, none, false⟩
  | none =>
      if isFirst then ⟨q.read, some unit, q.sound⟩
      else if isSecond then ⟨q.read, none, false⟩
      else q.push (.ofNat unit)

/-- Something that is no character. -/
def spoil (q : Quoted) : Quoted :=
  { q with sound := false }

/-- The string that ends here. -/
def finish (q : Quoted) : Json :=
  if q.sound && q.half.isNone then .string (.ofList q.read.reverse) else .garbled

end Quoted

/-- What the next character belongs to. -/
inductive Place where
  | between
  | bare (read : List Char)
  | quoted (q : Quoted)
  | escape (q : Quoted)
  | unicode (q : Quoted) (digits : List Char)

/-- The value of a hexadecimal digit. -/
def hexValue? (c : Char) : Option Nat :=
  if c.isDigit then some (c.toNat - '0'.toNat)
  else if 'a' ≤ c ∧ c ≤ 'f' then some (c.toNat - 'a'.toNat + 10)
  else if 'A' ≤ c ∧ c ≤ 'F' then some (c.toNat - 'A'.toNat + 10)
  else none

/-- The character of an escape by letter. -/
def escaped? : Char → Option Char
  | '"' => some '"'
  | '\\' => some '\\'
  | '/' => some '/'
  | 'b' => some '\x08'
  | 'f' => some '\x0c'
  | 'n' => some '\n'
  | 'r' => some '\r'
  | 't' => some '\t'
  | _ => none

/-- A character of a number or a word. -/
def isBare (c : Char) : Bool :=
  c.isAlphanum || c == '-' || c == '+' || c == '.'

/-- The value of a word or a number. -/
def bareValue? (text : List Char) : Option Json :=
  if text = "null".toList then some .null
  else if text = "true".toList then some (.bool true)
  else if text = "false".toList then some (.bool false)
  else (literal? text).map fun _ => .number (.ofList text)

/-- The token of a character that is one. -/
def punctuation? : Char → Option Token
  | '[' => some .openArray
  | ']' => some .closeArray
  | '{' => some .openObject
  | '}' => some .closeObject
  | ',' => some .comma
  | ':' => some .colon
  | _ => none

/-- A character between two tokens. -/
def isSpace (c : Char) : Bool :=
  c == ' ' || c == '\n' || c == '\r' || c == '\t'

/-- Tokens read so far, backwards, and the place that was reached. -/
abbrev Cut := List Token × Place

/-- One more character at a place between tokens. -/
def stepBetween (tokens : List Token) (c : Char) : Option Cut :=
  if isSpace c then some (tokens, .between)
  else if c = '"' then some (tokens, .quoted .start)
  else if isBare c then some (tokens, .bare [c])
  else (punctuation? c).map fun token => (token :: tokens, .between)

/-- One more character. -/
def stepCharacter : Cut → Char → Option Cut
  | (tokens, .between), c => stepBetween tokens c
  | (tokens, .bare read), c =>
      if isBare c then some (tokens, .bare (c :: read))
      else do stepBetween (.leaf (← bareValue? read.reverse) :: tokens) c
  | (tokens, .quoted q), c =>
      if c = '"' then some (.leaf q.finish :: tokens, .between)
      else if c = '\\' then some (tokens, .escape q)
      else if c.toNat < 0x20 then none
      else some (tokens, .quoted (q.push c))
  | (tokens, .escape q), c =>
      if c = 'u' then some (tokens, .unicode q [])
      else (escaped? c).map fun c => (tokens, .quoted (q.push c))
  | (tokens, .unicode q digits), c => do
      let _ ← hexValue? c
      match digits with
      | [d₃, d₂, d₁] =>
          let unit := [d₁, d₂, d₃, c].foldl (fun n d => 16 * n + (hexValue? d).getD 0) 0
          some (tokens, .quoted (q.pushUnit unit))
      | _ => some (tokens, .unicode q (c :: digits))

/-- One more character, or a gap between characters, which only a string may have. -/
def step (cut : Cut) : Option Char → Option Cut
  | some c => stepCharacter cut c
  | none =>
      match cut with
      | (tokens, .quoted q) => some (tokens, .quoted q.spoil)
      | _ => none

/-- The tokens of a text, backwards. -/
def tokens? (text : List (Option Char)) : Option (List Token) := do
  match ← text.foldlM step ([], .between) with
  | (tokens, .between) => return tokens
  | (tokens, .bare read) => return .leaf (← bareValue? read.reverse) :: tokens
  | _ => none

/-- The members of an object read so far, backwards; none where a name was garbled. -/
abbrev Members := Option (List (String × Json))

/-- The object of these members, once it is closed. -/
def Members.close : Members → Json
  | some members => .object members.reverse
  | none => .garbled

/-- An open array, its items backwards, or an open object, its members and the name whose value
is being read.
-/
inductive Frame where
  | array (items : List Json)
  | object (members : Members) (name : String)

/-- What the next token may be. -/
inductive Awaited where
  | value
  | itemOrClose
  | nameOrClose
  | name (members : Members)
  | colon (members : Members) (name : String)
  /-- A value is complete; what closes or goes on depends on the innermost frame. -/
  | after (j : Json)

/-- Open frames, the innermost first, and what comes next. -/
abbrev Assembly := List Frame × Awaited

/-- One more token where a value may start. -/
def stepValue (frames : List Frame) : Token → Option Assembly
  | .leaf j => some (frames, .after j)
  | .openArray => some (frames, .itemOrClose)
  | .openObject => some (frames, .nameOrClose)
  | _ => none

/-- One more token where a member starts with its name. -/
def stepName (frames : List Frame) (members : Members) : Token → Option Assembly
  | .leaf (.string name) => some (frames, .colon members name)
  | .leaf .garbled => some (frames, .colon none "")
  | _ => none

/-- One more token. -/
def stepToken : Assembly → Token → Option Assembly
  | (frames, .value), token => stepValue frames token
  | (frames, .itemOrClose), .closeArray => some (frames, .after (.array []))
  | (frames, .itemOrClose), token => stepValue (.array [] :: frames) token
  | (frames, .nameOrClose), .closeObject => some (frames, .after (.object []))
  | (frames, .nameOrClose), token => stepName frames (some []) token
  | (frames, .name members), token => stepName frames members token
  | (frames, .colon members name), .colon => some (.object members name :: frames, .value)
  | (.array items :: frames, .after j), .comma => some (.array (j :: items) :: frames, .value)
  | (.array items :: frames, .after j), .closeArray =>
      some (frames, .after (.array (j :: items).reverse))
  | (.object members name :: frames, .after j), .comma =>
      some (frames, .name (members.map ((name, j) :: ·)))
  | (.object members name :: frames, .after j), .closeObject =>
      some (frames, .after (Members.close (members.map ((name, j) :: ·))))
  | _, _ => none

/-- The value that a whole text with gaps writes. -/
def readDecoded? (text : List (Option Char)) : Option Json := do
  match ← (← tokens? text).reverse.foldlM stepToken ([], .value) with
  | ([], .after j) => return j
  | _ => none

/-- The value that a whole text writes. -/
def read? (text : List Char) : Option Json :=
  readDecoded? (text.map some)

end RangeTuner.Json
