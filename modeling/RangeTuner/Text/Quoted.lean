import RangeTuner.Text.Hidden

/-! Texts in quotes, as messages show them: quotes, backslashes and hidden characters are
escaped.
-/

namespace RangeTuner.Text

/-- A character inside quotes. -/
def quotedChar (c : Char) : List Char :=
  match c with
  | '"' => ['\\', '"']
  | '\\' => ['\\', '\\']
  | '\n' => ['\\', 'n']
  | '\r' => ['\\', 'r']
  | '\t' => ['\\', 't']
  | '\x00' => ['\\', '0']
  | c =>
      if isHidden c then '\\' :: 'u' :: '{' :: (Nat.toDigits 16 c.toNat ++ ['}'])
      else [c]

/-- A text in quotes. -/
def quoted (s : List Char) : List Char :=
  '"' :: (s.flatMap quotedChar ++ ['"'])

/-- A list of texts, each in quotes, in brackets. -/
def quotedList (texts : List (List Char)) : List Char :=
  '[' :: (((texts.map quoted).intersperse [',', ' ']).flatten ++ [']'])

end RangeTuner.Text
