import Approval.Toml.Value

/-!
# TOML documents

The document of a TOML text: headers open tables, and the lines below a header add to its table.
-/

namespace Approval.Toml

/-- Arrays and inline tables nest less deep than this. -/
def depthLimit : Nat := 80

/-- A value that is written as one word. -/
def word? (cs : List Char) : Option Doc :=
  if cs = "true".toList then some (.bool true)
  else if cs = "false".toList then some (.bool false)
  else if isSpecial cs then some .huge
  else
    match real? cs with
    | some d => some d
    | none => integer? cs

def isWordChar (c : Char) : Bool := c.isAlphanum || c == '_' || c == '+' || c == '-' || c == '.'

mutual

/-- A value. -/
def value? (room : Nat) (fuel : Nat) (cs : List Char) : Option (Doc × List Char) :=
  match fuel with
  | 0 => none
  | fuel + 1 =>
    match cs with
    | '[' :: rest =>
      if room ≤ 1 then none
      else (items? (room - 1) fuel rest).map fun (items, rest) => (.list items, rest)
    | '\x7b' :: rest =>
      if room ≤ 1 then none
      else
        match skipSpaces rest with
        | '\x7d' :: rest => some (.object [], rest)
        | rest =>
          (members? (room - 1) fuel [] rest).map fun (entries, rest) =>
            ((Node.table false false entries).doc, rest)
    | '"' :: _ | '\'' :: _ => (string? cs).map fun (s, rest) => (.text s, rest)
    | cs =>
      match stamp? cs with
      | some rest => some (stampDoc, rest)
      | none =>
        let word := cs.takeWhile isWordChar
        (word? word).map fun d => (d, cs.drop word.length)
termination_by structural fuel

/-- The items of an array up to its end. -/
def items? (room : Nat) (fuel : Nat) (cs : List Char) : Option (List Doc × List Char) :=
  match fuel with
  | 0 => none
  | fuel + 1 =>
    match skipLines cs.length cs with
    | ']' :: rest => some ([], rest)
    | cs => do
      let (d, rest) ← value? room fuel cs
      match skipLines rest.length rest with
      | ',' :: rest => do
        let (ds, rest) ← items? room fuel rest
        some (d :: ds, rest)
      | ']' :: rest => some ([d], rest)
      | _ => none
termination_by structural fuel

/-- The members of an inline table up to its end. -/
def members? (room : Nat) (fuel : Nat) (entries : Entries) (cs : List Char) :
    Option (Entries × List Char) :=
  match fuel with
  | 0 => none
  | fuel + 1 => do
    let (path, rest) ← key? cs.length cs
    let rest ← char? '=' rest
    let (d, rest) ← value? room fuel (skipSpaces rest)
    let entries ← entries.addValue path d
    match skipSpaces rest with
    | ',' :: rest => members? room fuel entries rest
    | '\x7d' :: rest => some (entries, rest)
    | _ => none
termination_by structural fuel

end

/-- A key and its value. -/
def pair? (cs : List Char) : Option ((List String × Doc) × List Char) := do
  let (path, rest) ← key? cs.length cs
  let rest ← char? '=' rest
  let (d, rest) ← value? depthLimit (cs.length + 1) (skipSpaces rest)
  if path.length < depthLimit then some ((path, d), rest) else none

/-- Read lines, where `here` is the path of the table that they add to. -/
def lines? : Nat → List String → Entries → List Char → Option Entries
  | 0, _, _, _ => none
  | fuel + 1, here, entries, cs =>
    match skipLines cs.length cs with
    | [] => some entries
    | '[' :: '[' :: rest => do
      let (path, rest) ← key? rest.length rest
      let rest ← (char? ']' rest).bind (char? ']')
      let entries ← entries.openRow path
      lines? fuel path entries (← finishLine? rest)
    | '[' :: rest => do
      let (path, rest) ← key? rest.length rest
      let rest ← char? ']' rest
      let entries ← entries.openTable path
      lines? fuel path entries (← finishLine? rest)
    | cs => do
      let ((path, d), rest) ← pair? cs
      let entries ← entries.within here (·.addValue path d)
      lines? fuel here entries (← finishLine? rest)

/-- The document of a text, unless it is malformed. -/
def read? (text : String) : Option Doc :=
  let cs := match text.toList with
    | '\uFEFF' :: rest => rest
    | rest => rest
  (lines? (cs.length + 1) [] [] cs).map fun entries => .object (entryDocs entries)

end Approval.Toml
