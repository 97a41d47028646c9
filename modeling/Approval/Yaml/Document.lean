import Approval.Wire.Doc
import Approval.Yaml.Token

/-!
# YAML documents

The document of a YAML text. A text holds one document; an alias stands for the node with its anchor.
-/

namespace Approval.Yaml

def depthLimit : Nat := 128

abbrev Anchors := List (String × Doc)

/-- What was read, the anchors so far, and the tokens that follow. -/
abbrev Reading (α : Type) := α × Anchors × List Token

/-- A node that is not there. -/
def absent : Doc := .plain ""

/-- What a known tag says of a scalar. -/
def kindOf (tag : String) : ScalarKind :=
  match tag with
  | "null" => .null
  | "bool" => .bool
  | "int" => .int
  | "float" => .real
  | _ => .text

/-- A node under a tag. A known tag says what a scalar stands for. -/
def applyTag : Option Tag → Doc → Doc
  | none, d => d
  | some (.own name), d => .tagged name d
  | some (.known name), .plain s => .declared (kindOf name) s true
  | some (.known name), .text s => .declared (kindOf name) s false
  | some (.known _), d => d

/-- The name that a node gives as a key. -/
def keyName : Doc → Option String
  | .text s | .plain s | .declared _ s _ | .tagged _ (.text s) | .tagged _ (.plain s) => some s
  | _ => none

/-- The anchor and the tag in front of a node, in either order. -/
def properties : List Token → Option String × Option (Option Tag) × List Token
  | .anchor a :: .tag t :: rest => (some a, some t, rest)
  | .tag t :: .anchor a :: rest => (some a, some t, rest)
  | .anchor a :: rest => (some a, none, rest)
  | .tag t :: rest => (none, some t, rest)
  | rest => (none, none, rest)

/-- The tokens begin with one that leaves the place of a value empty. -/
def endsValue : List Token → Bool
  | .key :: _ | .value :: _ | .closeBlock :: _ => true
  | _ => false

/-- The tokens begin with one that leaves a place inside brackets empty. -/
def endsFlowValue : List Token → Bool
  | .flowEntry :: _ | .closeFlowSequence :: _ | .closeFlowMapping :: _ => true
  | _ => false

/-- A node with its anchor and tag. -/
def withProperties (anchor : Option String) (tag : Option (Option Tag)) (reading : Reading Doc) :
    Reading Doc :=
  let (d, anchors, rest) := reading
  let d := applyTag tag.join d
  match anchor with
  | some name => (d, (name, d) :: anchors, rest)
  | none => (d, anchors, rest)

/-- Change what was read. -/
def Reading.map {α β : Type} (f : α → β) (reading : Reading α) : Reading β :=
  (f reading.1, reading.2)

/-- A list where `room` is left for nesting. -/
def listOf (room : Nat) (items : List Doc) : Doc := Doc.enclose room (.list items)

/-- An object where `room` is left for nesting. -/
def objectOf (room : Nat) (members : List (Option String × Doc)) : Doc :=
  Doc.enclose room (.object members)

/-- What an alias stands for where `room` is left for nesting. -/
def aliased (room : Nat) (d : Doc) : Doc := if d.depth ≤ room then d else .tooDeep

mutual

/-- The node at the front of the tokens. Outside of brackets it may be a block; `indentless` allows the
items of a sequence without indentation. -/
def readNode (inBlock indentless : Bool) (room : Nat) (fuel : Nat) (anchors : Anchors)
    (tokens : List Token) : Option (Reading Doc) :=
  match fuel with
  | 0 => none
  | fuel + 1 =>
    let (anchor, tag, rest) := properties tokens
    let named := anchor.isSome || tag.isSome
    let content : Option (Reading Doc) :=
      match rest with
      | .alias name :: rest =>
        if named then none else (anchors.lookup name).map fun d => (aliased room d, anchors, rest)
      | .scalar s plain :: rest => some (if plain then .plain s else .text s, anchors, rest)
      | .openFlowSequence :: rest =>
        (readFlowItems true (room - 1) fuel anchors rest).map (·.map (listOf room))
      | .openFlowMapping :: rest =>
        (readFlowMembers true (room - 1) fuel anchors rest).map (·.map (objectOf room))
      | .entry :: _ =>
        if indentless then
          (readLooseItems (room - 1) fuel anchors rest).map (·.map (listOf room))
        else if named then some (absent, anchors, rest)
        else none
      | .openSequence :: rest =>
        if inBlock then (readItems (room - 1) fuel anchors rest).map (·.map (listOf room)) else none
      | .openMapping :: rest =>
        if inBlock then (readMembers (room - 1) fuel anchors rest).map (·.map (objectOf room))
        else none
      | rest => if named then some (absent, anchors, rest) else none
    content.map (withProperties anchor tag)
termination_by structural fuel

/-- The items of a block sequence up to its end. -/
def readItems (room : Nat) : Nat → Anchors → List Token → Option (Reading (List Doc))
  | 0, _, _ => none
  | fuel + 1, anchors, tokens =>
    match tokens with
    | .closeBlock :: rest => some ([], anchors, rest)
    | .entry :: rest => do
      let (d, anchors, rest) ←
        match rest with
        | .entry :: _ | .closeBlock :: _ => some (absent, anchors, rest)
        | rest => readNode true false room fuel anchors rest
      let (ds, anchors, rest) ← readItems room fuel anchors rest
      some (d :: ds, anchors, rest)
    | _ => none
termination_by structural fuel _ _ => fuel

/-- The items of a block sequence without indentation. -/
def readLooseItems (room : Nat) : Nat → Anchors → List Token → Option (Reading (List Doc))
  | 0, _, _ => none
  | fuel + 1, anchors, tokens =>
    match tokens with
    | .entry :: rest => do
      let (d, anchors, rest) ←
        match rest with
        | .entry :: _ => some (absent, anchors, rest)
        | rest =>
          if endsValue rest then some (absent, anchors, rest)
          else readNode true false room fuel anchors rest
      let (ds, anchors, rest) ← readLooseItems room fuel anchors rest
      some (d :: ds, anchors, rest)
    | rest => some ([], anchors, rest)
termination_by structural fuel _ _ => fuel

/-- The members of a block mapping up to its end. -/
def readMembers (room : Nat) :
    Nat → Anchors → List Token → Option (Reading (List (Option String × Doc)))
  | 0, _, _ => none
  | fuel + 1, anchors, tokens =>
    match tokens with
    | .closeBlock :: rest => some ([], anchors, rest)
    | .key :: rest => do
      let (name, anchors, rest) ←
        if endsValue rest then some (absent, anchors, rest)
        else readNode true true room fuel anchors rest
      let (d, anchors, rest) ←
        match rest with
        | .value :: rest =>
          if endsValue rest then some (absent, anchors, rest)
          else readNode true true room fuel anchors rest
        | rest => some (absent, anchors, rest)
      let (ds, anchors, rest) ← readMembers room fuel anchors rest
      some ((keyName name, d) :: ds, anchors, rest)
    | _ => none
termination_by structural fuel _ _ => fuel

/-- The value behind a key inside brackets, if there is one. -/
def readFlowValue (room : Nat) : Nat → Anchors → List Token → Option (Reading Doc)
  | 0, _, _ => none
  | fuel + 1, anchors, tokens =>
    match tokens with
    | .value :: rest =>
      if endsFlowValue rest then some (absent, anchors, rest)
      else readNode false false room fuel anchors rest
    | rest => some (absent, anchors, rest)
termination_by structural fuel _ _ => fuel

/-- A key inside brackets and the value behind it. -/
def readPair (room : Nat) : Nat → Anchors → List Token → Option (Reading (Option String × Doc))
  | 0, _, _ => none
  | fuel + 1, anchors, tokens => do
    let empty := endsFlowValue tokens || match tokens with
      | .value :: _ => true
      | _ => false
    let (name, anchors, rest) ←
      if empty then some (absent, anchors, tokens)
      else readNode false false room fuel anchors tokens
    let (d, anchors, rest) ← readFlowValue room fuel anchors rest
    some ((keyName name, d), anchors, rest)
termination_by structural fuel _ _ => fuel

/-- The items of a sequence in brackets up to its end. A pair makes a mapping of its own. -/
def readFlowItems (first : Bool) (room : Nat) :
    Nat → Anchors → List Token → Option (Reading (List Doc))
  | 0, _, _ => none
  | fuel + 1, anchors, tokens =>
    match tokens with
    | .closeFlowSequence :: rest => some ([], anchors, rest)
    | tokens => do
      let rest ← match first, tokens with
        | true, rest => some rest
        | false, .flowEntry :: rest => some rest
        | false, _ => none
      match rest with
      | .closeFlowSequence :: rest => some ([], anchors, rest)
      | .key :: rest => do
        let (pair, anchors, rest) ← readPair (room - 1) fuel anchors rest
        let (ds, anchors, rest) ← readFlowItems false room fuel anchors rest
        some (Doc.enclose room (.object [pair]) :: ds, anchors, rest)
      | rest => do
        let (d, anchors, rest) ← readNode false false room fuel anchors rest
        let (ds, anchors, rest) ← readFlowItems false room fuel anchors rest
        some (d :: ds, anchors, rest)
termination_by structural fuel _ _ => fuel

/-- The members of a mapping in braces up to its end. -/
def readFlowMembers (first : Bool) (room : Nat) :
    Nat → Anchors → List Token → Option (Reading (List (Option String × Doc)))
  | 0, _, _ => none
  | fuel + 1, anchors, tokens =>
    match tokens with
    | .closeFlowMapping :: rest => some ([], anchors, rest)
    | tokens => do
      let rest ← match first, tokens with
        | true, rest => some rest
        | false, .flowEntry :: rest => some rest
        | false, _ => none
      match rest with
      | .closeFlowMapping :: rest => some ([], anchors, rest)
      | .key :: rest => do
        let (pair, anchors, rest) ← readPair room fuel anchors rest
        let (ds, anchors, rest) ← readFlowMembers false room fuel anchors rest
        some (pair :: ds, anchors, rest)
      | rest => do
        let (name, anchors, rest) ← readNode false false room fuel anchors rest
        let (ds, anchors, rest) ← readFlowMembers false room fuel anchors rest
        some ((keyName name, absent) :: ds, anchors, rest)
termination_by structural fuel _ _ => fuel

end

/-- Drop directives, which must stand in front of a marked document. -/
def dropDirectives : List Token → Option (List Token)
  | .directive :: .directive :: rest => dropDirectives (.directive :: rest)
  | .directive :: .documentStart :: rest => some (.documentStart :: rest)
  | .directive :: _ => none
  | rest => some rest

/-- The one document of the tokens. -/
def readDocument (tokens : List Token) : Option Doc := do
  let tokens ← dropDirectives tokens
  let content := match tokens with
    | .documentStart :: rest => rest
    | rest => rest
  if tokens.isEmpty then none
  else
    let (d, rest) ← match content with
      | [] | .documentStart :: _ | .documentEnd :: _ | .directive :: _ => some (absent, content)
      | content =>
        (readNode true false depthLimit (2 * content.length + 2) [] content).map
          fun (d, _, rest) => (d, rest)
    if rest.all fun t => match t with
      | .documentEnd => true
      | _ => false
    then some d else none

/-- The document of a text, unless it is malformed. -/
def read? (text : String) : Option Doc := (scan? text).bind readDocument

end Approval.Yaml
