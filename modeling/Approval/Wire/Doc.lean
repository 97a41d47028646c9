import Approval.Json.Token
import Approval.Wire.Scalar

/-!
# Documents

A document is what a reader makes of a text before it knows which type the text is to have. It keeps
the faults of the text in place, so that a decoder that walks the document in order meets the fault
of the text or the fault of the type, whichever stands first. A JSON value is a document without
faults, and so is the content of a configuration or definition file.
-/

namespace Approval

/-- A document. `huge` is a number without value and `brokenText` a string without value; `tooDeep`
is an array or object that nests past the limit; `broken` is a place where the text has no form.
A member without a name has a name without value. A `plain` scalar is written without quotation
marks, so that it may stand for a number as well as for a text; a `declared` scalar says what it stands
for, and whether it has no quotation marks; a `tagged` document names its own kind. -/
inductive Doc
  | null
  | bool (b : Bool)
  | number (n : JsonNumber)
  | huge
  | text (s : String)
  | brokenText
  | list (items : List Doc)
  | object (members : List (Option String × Doc))
  | tooDeep
  | broken
  | plain (s : String)
  | declared (kind : ScalarKind) (s : String) (isPlain : Bool)
  | tagged (tag : String) (content : Doc)

namespace Doc

instance : Inhabited Doc := ⟨.null⟩

mutual

/-- The text of the document has a form throughout, whatever its values. -/
def sound : Doc → Bool
  | .broken => false
  | .list items => soundItems items
  | .object members => soundMembers members
  | .tagged _ content => content.sound
  | _ => true

/-- All items are sound. -/
def soundItems : List Doc → Bool
  | [] => true
  | d :: rest => d.sound && soundItems rest

/-- All members are sound. -/
def soundMembers : List (Option String × Doc) → Bool
  | [] => true
  | (_, d) :: rest => d.sound && soundMembers rest

end

mutual

/-- How deep the lists and objects of the document nest. -/
def depth : Doc → Nat
  | .list items => depthOfItems items + 1
  | .object members => depthOfMembers members + 1
  | .tagged _ content => content.depth
  | _ => 0

/-- The deepest nesting of the items. -/
def depthOfItems : List Doc → Nat
  | [] => 0
  | d :: rest => max d.depth (depthOfItems rest)

/-- The deepest nesting of the members. -/
def depthOfMembers : List (Option String × Doc) → Nat
  | [] => 0
  | (_, d) :: rest => max d.depth (depthOfMembers rest)

end

/-! ### JSON values as documents -/

mutual

/-- The document of a JSON value. -/
def ofJson : Json → Doc
  | .null => .null
  | .bool b => .bool b
  | .number n => .number n
  | .text s => .text s
  | .array items => .list (ofItems items)
  | .object members => .object (ofMembers members)

/-- The documents of the items of an array. -/
def ofItems : List Json → List Doc
  | [] => []
  | v :: rest => ofJson v :: ofItems rest

/-- The members of an object as members of a document. -/
def ofMembers : List (String × Json) → List (Option String × Doc)
  | [] => []
  | (name, v) :: rest => (some name, ofJson v) :: ofMembers rest

end

/-! ### Reading JSON text -/

/-- A container where `room` is left for nesting; past the limit only its form is kept. -/
def enclose (room : Nat) (d : Doc) : Doc :=
  if room ≠ 0 then d else if d.sound then .tooDeep else .broken

mutual

/-- The document at the front of the tokens and the tokens that follow it; after a fault nothing
follows. `room` is how much deeper the text may nest and `fuel` bounds the recursion. -/
def readValue (room : Nat) : Nat → List JsonToken → Doc × List JsonToken
  | 0, _ => (.broken, [])
  | fuel + 1, tokens =>
    match tokens with
    | .null :: rest => (.null, rest)
    | .bool b :: rest => (.bool b, rest)
    | .number n :: rest => (.number n, rest)
    | .hugeNumber :: rest => (.huge, rest)
    | .text s :: rest => (.text s, rest)
    | .brokenText :: rest => (.brokenText, rest)
    | .openArray :: .closeArray :: rest => (enclose room (.list []), rest)
    | .openArray :: rest =>
      let (items, rest) := readItems (room - 1) fuel rest
      (enclose room (.list items), rest)
    | .openObject :: .closeObject :: rest => (enclose room (.object []), rest)
    | .openObject :: rest =>
      let (members, rest) := readMembers (room - 1) fuel rest
      (enclose room (.object members), rest)
    | _ => (.broken, [])

/-- The items of an array up to its end; there is at least one. -/
def readItems (room : Nat) : Nat → List JsonToken → List Doc × List JsonToken
  | 0, _ => ([.broken], [])
  | fuel + 1, tokens =>
    let (d, rest) := readValue room fuel tokens
    match rest with
    | .comma :: rest =>
      let (items, rest) := readItems room fuel rest
      (d :: items, rest)
    | .closeArray :: rest => ([d], rest)
    | _ => ([d, .broken], [])

/-- The members of an object up to its end; there is at least one. -/
def readMembers (room : Nat) : Nat → List JsonToken → List (Option String × Doc) × List JsonToken
  | 0, _ => ([(none, .broken)], [])
  | fuel + 1, tokens =>
    let named := fun (name : Option String) (rest : List JsonToken) =>
      let (d, rest) := readValue room fuel rest
      match rest with
      | .comma :: rest =>
        let (members, rest) := readMembers room fuel rest
        ((name, d) :: members, rest)
      | .closeObject :: rest => ([(name, d)], rest)
      | _ => ([(name, d), (none, .broken)], [])
    match tokens with
    | .text name :: .colon :: rest => named (some name) rest
    | .brokenText :: .colon :: rest => named none rest
    | .text name :: _ => ([(some name, .broken)], [])
    | _ => ([(none, .broken)], [])

end

/-- The document of JSON tokens, and the tokens after it. -/
def ofTokens (tokens : List JsonToken) : Doc × List JsonToken :=
  readValue Json.depthLimit (2 * tokens.length + 1) tokens

end Doc

end Approval
