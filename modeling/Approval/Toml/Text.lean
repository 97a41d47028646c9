import Approval.Json.Token
import Approval.Text.Blank

/-!
# Texts and keys of TOML

Strings in their four forms, keys, blanks and comments.
-/

namespace Approval.Toml

open JsonToken (hexValue?)

/-- A reader of the front of a text: what it read and what is left. -/
abbrev Reader (α : Type) := List Char → Option (α × List Char)

def isSpace (c : Char) : Bool := c == ' ' || c == '\t'

def skipSpaces (cs : List Char) : List Char := cs.dropWhile isSpace

def isControl (c : Char) : Bool := (c.toNat < 0x20 && c != '\t') || c.toNat == 0x7F

/-- Pass a line end. -/
def lineEnd? : List Char → Option (List Char)
  | '\n' :: rest => some rest
  | '\r' :: '\n' :: rest => some rest
  | _ => none

/-- Pass a comment, if there is one. -/
def skipComment : List Char → List Char
  | '#' :: rest => rest.dropWhile fun c => !isControl c
  | rest => rest

/-- Pass blanks and a comment up to the end of the line or of the text. -/
def finishLine? (cs : List Char) : Option (List Char) :=
  match skipComment (skipSpaces cs) with
  | [] => some []
  | rest => lineEnd? rest

/-- Pass blanks, comments and line ends. -/
def skipLines : Nat → List Char → List Char
  | 0, cs => cs
  | fuel + 1, cs =>
    let rest := skipComment (skipSpaces cs)
    match lineEnd? rest with
    | some rest => skipLines fuel rest
    | none => rest

/-! ### Strings -/

/-- The character that a letter after a backslash stands for. -/
def escaped? : Char → Option Char
  | 'b' => some '\x08'
  | 't' => some '\t'
  | 'n' => some '\n'
  | 'f' => some '\x0c'
  | 'r' => some '\r'
  | '"' => some '"'
  | '\\' => some '\\'
  | _ => none

/-- The character with the code that hexadecimal digits spell. -/
def hexChar? (digits : List Char) : Option Char := do
  let n ← digits.foldlM (fun n c => (hexValue? c).map (16 * n + ·)) 0
  if (0xD800 ≤ n ∧ n ≤ 0xDFFF) ∨ 0x10FFFF < n then none else some (Char.ofNat n)

/-- What a backslash with the letter `c` and `rest` behind it stands for. -/
def escape? (c : Char) (rest : List Char) : Option (Char × List Char) :=
  let count := if c = 'u' then 4 else if c = 'U' then 8 else 0
  if count = 0 then (escaped? c).map fun d => (d, rest)
  else if rest.length < count then none
  else (hexChar? (rest.take count)).map fun d => (d, rest.drop count)

/-- A string on one line, behind its opening mark. -/
def basicText : Nat → Reader (List Char)
  | 0, _ => none
  | fuel + 1, cs =>
    match cs with
    | '"' :: rest => some ([], rest)
    | '\\' :: c :: rest => do
      let (d, rest) ← escape? c rest
      let (text, rest) ← basicText fuel rest
      some (d :: text, rest)
    | c :: rest =>
      if c = '\\' ∨ isControl c then none
      else do
        let (text, rest) ← basicText fuel rest
        some (c :: text, rest)
    | [] => none

/-- A string on one line without escapes, behind its opening mark. -/
def literalText (cs : List Char) : Option (List Char × List Char) :=
  let text := cs.takeWhile fun c => c != '\'' && !isControl c
  match cs.drop text.length with
  | '\'' :: rest => some (text, rest)
  | _ => none

/-- Up to two more marks in front of the closing three belong to a string over several lines. -/
def closing? (mark : Char) (cs : List Char) : Option (List Char × List Char) :=
  let marks := (cs.takeWhile (· = mark)).length
  if marks < 3 then none
  else
    let extra := min (marks - 3) 2
    some (List.replicate extra mark, cs.drop (3 + extra))

/-- A backslash at the end of a line takes the blanks that follow with it. -/
def joined? (fuel : Nat) (cs : List Char) : Option (List Char) :=
  (lineEnd? (skipSpaces cs)).map (blanks fuel)
where
  /-- Pass blanks and line ends. -/
  blanks : Nat → List Char → List Char
    | 0, cs => cs
    | fuel + 1, cs =>
      match lineEnd? (skipSpaces cs) with
      | some rest => blanks fuel rest
      | none => skipSpaces cs

/-- A string over several lines, behind its opening marks. -/
def longText (mark : Char) : Nat → Reader (List Char)
  | 0, _ => none
  | fuel + 1, cs =>
    match closing? mark cs with
    | some (extra, rest) => some (extra, rest)
    | none =>
      match cs with
      | '\\' :: c :: rest =>
        if mark = '"' then
          match joined? fuel (c :: rest) with
          | some rest => longText mark fuel rest
          | none => do
            let (d, rest) ← escape? c rest
            let (text, rest) ← longText mark fuel rest
            some (d :: text, rest)
        else do
          let (text, rest) ← longText mark fuel (c :: rest)
          some ('\\' :: text, rest)
      | c :: rest =>
        match lineEnd? cs with
        | some rest => do
          let (text, rest) ← longText mark fuel rest
          some ('\n' :: text, rest)
        | none =>
          if isControl c ∨ (c = '\\' ∧ mark = '"') then none
          else do
            let (text, rest) ← longText mark fuel rest
            some (c :: text, rest)
      | [] => none

/-- A line end right behind the opening marks does not count. -/
def dropLineEnd (cs : List Char) : List Char := (lineEnd? cs).getD cs

/-- A string in any form. -/
def string? (cs : List Char) : Option (String × List Char) :=
  let read : Option (List Char × List Char) :=
    match cs with
    | '"' :: '"' :: '"' :: rest => longText '"' (rest.length + 1) (dropLineEnd rest)
    | '\'' :: '\'' :: '\'' :: rest => longText '\'' (rest.length + 1) (dropLineEnd rest)
    | '"' :: rest => basicText (rest.length + 1) rest
    | '\'' :: rest => literalText rest
    | _ => none
  read.map fun (text, rest) => (String.ofList text, rest)

/-! ### Keys -/

def isBareChar (c : Char) : Bool := c.isAlphanum || c == '_' || c == '-'

/-- One segment of a key. -/
def segment? (cs : List Char) : Option (String × List Char) :=
  match cs with
  | '"' :: rest => (basicText (rest.length + 1) rest).map fun (t, rest) => (String.ofList t, rest)
  | '\'' :: rest => (literalText rest).map fun (t, rest) => (String.ofList t, rest)
  | cs =>
    let name := cs.takeWhile isBareChar
    if name.isEmpty then none else some (String.ofList name, cs.drop name.length)

/-- A key: segments with dots between them, and blanks around all. -/
def key? : Nat → Reader (List String)
  | 0, _ => none
  | fuel + 1, cs => do
    let (name, rest) ← segment? (skipSpaces cs)
    match skipSpaces rest with
    | '.' :: rest => do
      let (names, rest) ← key? fuel rest
      some (name :: names, rest)
    | rest => some ([name], rest)

end Approval.Toml
