import Approval.Json.Token

/-!
# JSON text

The text of a JSON value on one line, which is the text of its tokens, and laid out over lines.
-/

namespace Approval.Json

mutual

/-- The tokens of a value. -/
def tokens : Json → List JsonToken
  | .null => [.null]
  | .bool b => [.bool b]
  | .number n => [.number n]
  | .text s => [.text s]
  | .array items => .openArray :: itemTokens items ++ [.closeArray]
  | .object members => .openObject :: memberTokens members ++ [.closeObject]

/-- The tokens of the items of an array. -/
def itemTokens : List Json → List JsonToken
  | [] => []
  | [v] => v.tokens
  | v :: rest => v.tokens ++ .comma :: itemTokens rest

/-- The tokens of the members of an object. -/
def memberTokens : List (String × Json) → List JsonToken
  | [] => []
  | [(name, v)] => .text name :: .colon :: v.tokens
  | (name, v) :: rest => .text name :: .colon :: v.tokens ++ .comma :: memberTokens rest

end

def chars (v : Json) : List Char := v.tokens.flatMap JsonToken.render

def compact (v : Json) : String := String.ofList v.chars

/-! ### Over several lines -/

/-- The start of a line that is indented by `level`. -/
def newLine (level : Nat) : List Char := '\n' :: List.replicate (2 * level) ' '

mutual

/-- The value over several lines, where `level` counts what it is inside of. -/
def prettyChars (level : Nat) : Json → List Char
  | .array [] => ['[', ']']
  | .array items => '[' :: prettyItems (level + 1) items ++ newLine level ++ [']']
  | .object [] => ['\x7b', '\x7d']
  | .object members => '\x7b' :: prettyMembers (level + 1) members ++ newLine level ++ ['\x7d']
  | v => v.chars

/-- The items of an array, each on lines of its own. -/
def prettyItems (level : Nat) : List Json → List Char
  | [] => []
  | [v] => newLine level ++ prettyChars level v
  | v :: rest => newLine level ++ prettyChars level v ++ ',' :: prettyItems level rest

/-- The members of an object, each on lines of its own. -/
def prettyMembers (level : Nat) : List (String × Json) → List Char
  | [] => []
  | [(name, v)] => newLine level ++ JsonToken.renderText name ++ ':' :: ' ' :: prettyChars level v
  | (name, v) :: rest =>
    newLine level ++ JsonToken.renderText name ++ ':' :: ' ' :: prettyChars level v ++
      ',' :: prettyMembers level rest

end

/-- The value over several lines, indented by two columns. -/
def pretty (v : Json) : String := String.ofList (prettyChars 0 v)

end Approval.Json
