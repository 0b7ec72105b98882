/-! Braces of a text: how deeply they nest, whether they are balanced, and which closing brace
ends an open block.
-/

namespace RangeTuner.Text

/-- The deepest nesting of a text that is entered at a depth, the deepest so far included. The
depth never goes below zero.
-/
def nestingFrom (depth deepest : Nat) : List Char → Nat
  | [] => deepest
  | '{' :: s => nestingFrom (depth + 1) (max deepest (depth + 1)) s
  | '}' :: s => nestingFrom (depth - 1) deepest s
  | _ :: s => nestingFrom depth deepest s

/-- The deepest nesting of braces in a text. -/
def nesting (s : List Char) : Nat :=
  nestingFrom 0 0 s

/-- The excess of opening over closing braces of a text. -/
def excess : List Char → Int
  | [] => 0
  | '{' :: s => excess s + 1
  | '}' :: s => excess s - 1
  | _ :: s => excess s

/-- Every beginning has at least as many opening as closing braces, and the whole as many. -/
def Balanced (s : List Char) : Prop :=
  excess s = 0 ∧ ∀ start, start <+: s → 0 ≤ excess start

/-- The braces of a text, in order. -/
def braces (s : List Char) : List Char :=
  s.filter fun c => c == '{' || c == '}'

/-- Splits a text inside `depth + 1` open blocks at the brace that closes the outermost of
them: what stands before it and what stands after.
-/
def splitAtClose? : Nat → List Char → Option (List Char × List Char)
  | _, [] => none
  | 0, '}' :: s => some ([], s)
  | depth + 1, '}' :: s => (splitAtClose? depth s).map fun (inside, rest) => ('}' :: inside, rest)
  | depth, '{' :: s =>
      (splitAtClose? (depth + 1) s).map fun (inside, rest) => ('{' :: inside, rest)
  | depth, c :: s => (splitAtClose? depth s).map fun (inside, rest) => (c :: inside, rest)

/-- The inside of the block whose opening brace was just read, and the text after the block. -/
def block? (s : List Char) : Option (List Char × List Char) :=
  splitAtClose? 0 s

end RangeTuner.Text
