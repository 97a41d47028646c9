import Approval.Text.Blank
import Approval.Yaml.Scalar

/-!
# YAML tokens

The tokens of YAML text. Indentation becomes tokens that open and close sequences and mappings. What
turns out to be a key only when its colon is met gets its mark put in front of it afterwards.
-/

namespace Approval.Yaml

/-- A tag: one that a document makes up, or a known one by its full name. -/
inductive Tag
  | own (name : String)
  | known (name : String)
  deriving DecidableEq

/-- A token of YAML text. -/
inductive Token
  | directive
  | documentStart
  | documentEnd
  | openSequence
  | openMapping
  | closeBlock
  | openFlowSequence
  | closeFlowSequence
  | openFlowMapping
  | closeFlowMapping
  | entry
  | flowEntry
  | key
  | value
  | alias (name : String)
  | anchor (name : String)
  | tag (t : Option Tag)
  | scalar (text : String) (plain : Bool)

/-- A place where a key may have started: the number of its first token, and whether a key must stand
there. -/
structure KeySpot where
  required : Bool
  number : Nat
  line : Nat
  column : Nat
  index : Nat

/-- The state of the scan. `tokens` stands last first; `spots` has one entry for each open bracket and
one for the text outside of all; `indents` are the columns outside of the current one. -/
structure Scan where
  at_ : Cursor
  tokens : List Token := []
  count : Nat := 0
  indent : Int := -1
  indents : List Int := []
  flow : Nat := 0
  spots : List (Option KeySpot) := [none]
  keyAllowed : Bool := true

namespace Scan

def inFlow (s : Scan) : Bool := s.flow != 0

def push (t : Token) (s : Scan) : Scan := { s with tokens := t :: s.tokens, count := s.count + 1 }

/-- Put a token in front of the one with a given number. -/
def insertAt (number : Nat) (t : Token) (s : Scan) : Scan :=
  let later := s.count - number
  { s with tokens := s.tokens.take later ++ t :: s.tokens.drop later, count := s.count + 1 }

def move (f : Cursor → Cursor) (s : Scan) : Scan := { s with at_ := f s.at_ }

def column (s : Scan) : Nat := s.at_.column

/-! ### Keys -/

/-- Give up the place where a key may have started, unless a key must stand there. -/
def dropSpot (s : Scan) : Option Scan :=
  match s.spots with
  | some spot :: rest => if spot.required then none else some { s with spots := none :: rest }
  | _ => some s

/-- Note that a key may start here. -/
def noteSpot (s : Scan) : Option Scan :=
  if s.keyAllowed then do
    let s ← s.dropSpot
    let spot : KeySpot :=
      { required := !s.inFlow && s.indent == s.column
        number := s.count
        line := s.at_.line
        column := s.column
        index := s.at_.index }
    some { s with spots := some spot :: s.spots.tail }
  else some s

/-- The most characters that a key has before its colon. -/
def keyLimit : Nat := 1024

/-- A key cannot go on any more: it stands on one line and is not long. -/
def isStale (c : Cursor) (spot : KeySpot) : Bool :=
  spot.line < c.line || spot.index + keyLimit < c.index

/-- Give up the places that have become stale. -/
def dropStale (s : Scan) : Option Scan := do
  let spots ← s.spots.mapM fun spot =>
    match spot with
    | some k => if isStale s.at_ k then (if k.required then none else some none) else some spot
    | none => some none
  some { s with spots }

/-! ### Indentation -/

/-- Open a block at a column that is further in; its token goes in front of the token `number`. -/
def openBlock (column number : Nat) (t : Token) (s : Scan) : Scan :=
  if s.inFlow then s
  else if s.indent < column then
    { s.insertAt number t with indent := column, indents := s.indent :: s.indents }
  else s

/-- Close the blocks that start right of a column. -/
def closeBlocks (column : Int) (s : Scan) : Scan :=
  let closed := s.indents.length
  if s.inFlow then s else go closed s
where
  /-- Close at most `n` blocks. -/
  go : Nat → Scan → Scan
    | 0, s => s
    | n + 1, s =>
      if column < s.indent then
        go n { s.push .closeBlock with indent := s.indents.headD (-1), indents := s.indents.tail }
      else s

/-! ### Blanks and comments -/

/-- Pass blanks, comments and line ends up to the next token. -/
def skipGap : Nat → Scan → Scan
  | 0, s => s
  | fuel + 1, s =>
    let s := if s.column = 0 ∧ s.at_.head? = some '\uFEFF' then s.move (·.skip 1) else s
    let tabs := s.inFlow || !s.keyAllowed
    let s := s.move (·.skipWhile fun c => c == ' ' || (tabs && c == '\t'))
    let s := if s.at_.head? = some '#' then s.move (·.skipWhile fun c => !isBreak c) else s
    match s.at_.rest with
    | [] => s
    | c :: _ =>
      if isBreak c then
        let s := s.move (·.skipBreak)
        skipGap fuel (if s.inFlow then s else { s with keyAllowed := true })
      else s

/-! ### Names and tags -/

def isNameChar (c : Char) : Bool := c.isAlphanum || c == '_' || c == '-'

/-- What may stand behind a name. -/
def endsName (cs : List Char) : Bool :=
  startsBlank cs || (cs.head?.map fun c => ['?', ':', ',', ']', '\x7d', '%', '@', '\u0060'].contains c).getD false

/-- A name of an anchor or alias, behind its mark. -/
def name? (c : Cursor) : Option (String × Cursor) :=
  let cs := (c.skip 1).rest.takeWhile isNameChar
  let c := c.skip (1 + cs.length)
  if cs.isEmpty ∨ !endsName c.rest then none else some (String.ofList cs, c)

/-- A character of a tag. -/
def isTagChar (c : Char) : Bool :=
  isNameChar c || [';', '/', '?', ':', '@', '&', '=', '+', '$', '.', '!', '~', '*', '\'', '(', ')', '%'].contains c

/-- A tag, from its exclamation mark on. A lone mark is no tag. -/
def tag? (inFlow : Bool) (c : Cursor) : Option (Option Tag × Cursor) := do
  let (tag, c) ← match c.rest with
    | '!' :: '<' :: rest =>
      let uri := rest.takeWhile fun c => isTagChar c || c == ',' || c == '[' || c == ']'
      let c := c.skip (2 + uri.length)
      if uri.isEmpty ∨ c.head? ≠ some '>' then none
      else some (some (fromUri uri), c.skip 1)
    | '!' :: '!' :: rest =>
      let cs := rest.takeWhile isTagChar
      if cs.isEmpty then none
      else some (some (Tag.known (String.ofList cs)), c.skip (2 + cs.length))
    | _ =>
      let cs := c.tail.takeWhile isTagChar
      if cs.contains '!' then none
      else if cs.isEmpty then some (none, c.skip 1)
      else some (some (Tag.own (String.ofList cs)), c.skip (1 + cs.length))
  if startsBlank c.rest ∨ (inFlow ∧ c.head? = some ',') then some (tag, c) else none
where
  /-- A tag given in full. -/
  fromUri (uri : List Char) : Tag :=
    match uri with
    | '!' :: rest => .own (String.ofList rest)
    | _ =>
      match Text.stripFront "tag:yaml.org,2002:".toList uri with
      | some rest => .known (String.ofList rest)
      | none => .known (String.ofList uri)

/-! ### Directives -/

def versions : List String := ["1.1", "1.2"]

/-- A line that starts with a percent sign: it names the version, or a handle for tags. -/
def directive? (c : Cursor) : Option Cursor :=
  let line := (c.skip 1).rest.takeWhile fun d => !isBreak d
  let line := line.takeWhile (· ≠ '#')
  let words := (Text.split ' ' (String.ofList (line.map fun d => if d = '\t' then ' ' else d))).filter (· ≠ "")
  let passed := c.skipWhile fun d => !isBreak d
  match words with
  | ["YAML", version] => if versions.contains version then some passed else none
  | ["TAG", _, _] => some passed
  | _ => none

/-! ### Tokens -/

/-- A mark of one character that keys may not cross. -/
def mark (t : Token) (keyAllowed : Bool) (s : Scan) : Option Scan := do
  let s ← s.dropSpot
  some ({ s with keyAllowed }.move (·.skip 1) |>.push t)

/-- An opening bracket. -/
def openFlow (t : Token) (s : Scan) : Option Scan := do
  let s ← s.noteSpot
  some ({ s with flow := s.flow + 1, spots := none :: s.spots, keyAllowed := true }.move (·.skip 1)
    |>.push t)

/-- A closing bracket. -/
def closeFlow (t : Token) (s : Scan) : Option Scan := do
  let s ← s.dropSpot
  let s := if s.inFlow then { s with flow := s.flow - 1, spots := s.spots.tail } else s
  some ({ s with keyAllowed := false }.move (·.skip 1) |>.push t)

/-- The dash in front of an item. -/
def blockEntry (s : Scan) : Option Scan :=
  if s.inFlow then s.mark .entry true
  else if s.keyAllowed then (s.openBlock s.column s.count .openSequence).mark .entry true
  else none

/-- The question mark in front of a key. -/
def explicitKey (s : Scan) : Option Scan :=
  if s.inFlow then s.mark .key false
  else if s.keyAllowed then (s.openBlock s.column s.count .openMapping).mark .key true
  else none

/-- The colon in front of a value. -/
def valueMark (s : Scan) : Option Scan :=
  match s.spots with
  | some spot :: rest =>
    let s := (s.insertAt spot.number .key).openBlock spot.column spot.number .openMapping
    some ({ s with spots := none :: rest, keyAllowed := false }.move (·.skip 1) |>.push .value)
  | _ =>
    if s.inFlow then some ({ s with keyAllowed := false }.move (·.skip 1) |>.push .value)
    else if s.keyAllowed then
      let s := s.openBlock s.column s.count .openMapping
      some ({ s with keyAllowed := true }.move (·.skip 1) |>.push .value)
    else none

/-- An anchor, an alias, a tag or a quoted scalar, read by `f`. -/
def item (f : Cursor → Option (Token × Cursor)) (s : Scan) : Option Scan := do
  let s ← s.noteSpot
  let (t, c) ← f s.at_
  some ({ s with at_ := c, keyAllowed := false }.push t)

/-- A plain scalar. -/
def plainScalar (s : Scan) : Option Scan := do
  let s ← s.noteSpot
  let (c, text, broken) ← readPlain s.inFlow (s.indent + 1) s.at_
  some ({ s with at_ := c, keyAllowed := broken }.push (.scalar (String.ofList text) true))

/-- A block scalar. -/
def blockScalar (folded : Bool) (s : Scan) : Option Scan := do
  let s ← s.dropSpot
  let (c, text) ← readBlock folded s.indent s.at_
  some ({ s with at_ := c, keyAllowed := true }.push (.scalar (String.ofList text) false))

/-- A mark between documents. -/
def documentMark (t : Token) (s : Scan) : Option Scan := do
  let s ← (s.closeBlocks (-1)).dropSpot
  some ({ s with keyAllowed := false }.move (·.skip 3) |>.push t)

/-- Characters that cannot start a plain scalar. -/
def isIndicator (c : Char) : Bool :=
  ['-', '?', ':', ',', '[', ']', '\x7b', '\x7d', '#', '&', '*', '!', '|', '>', '\'', '"', '%', '@',
   '\u0060'].contains c

/-- The token at the cursor. -/
def token (c : Char) (rest : List Char) (s : Scan) : Option Scan :=
  let blankNext := startsBlank rest
  if s.column = 0 ∧ c = '%' then do
    let s ← (s.closeBlocks (-1)).dropSpot
    let at_ ← directive? s.at_
    some ({ s with at_, keyAllowed := false }.push .directive)
  else if s.at_.atDocumentMark then s.documentMark (if c = '-' then .documentStart else .documentEnd)
  else if c = '[' then s.openFlow .openFlowSequence
  else if c = '\x7b' then s.openFlow .openFlowMapping
  else if c = ']' then s.closeFlow .closeFlowSequence
  else if c = '\x7d' then s.closeFlow .closeFlowMapping
  else if c = ',' then s.mark .flowEntry true
  else if c = '-' ∧ blankNext then s.blockEntry
  else if c = '?' ∧ (s.inFlow ∨ blankNext) then s.explicitKey
  else if c = ':' ∧ (s.inFlow ∨ blankNext) then s.valueMark
  else if c = '*' then s.item fun at_ => (name? at_).map fun (n, at_) => (.alias n, at_)
  else if c = '&' then s.item fun at_ => (name? at_).map fun (n, at_) => (.anchor n, at_)
  else if c = '!' then s.item fun at_ => (tag? s.inFlow at_).map fun (t, at_) => (.tag t, at_)
  else if c = '|' ∧ !s.inFlow then s.blockScalar false
  else if c = '>' ∧ !s.inFlow then s.blockScalar true
  else if c = '\'' ∨ c = '"' then
    s.item fun at_ => (readQuoted (c = '"') at_).map fun (at_, text) =>
      (.scalar (String.ofList text) false, at_)
  else if !isIndicator c ∧ c ≠ '\t' then s.plainScalar
  else if c = '-' ∧ !(rest.head?.map isBlank).getD false then s.plainScalar
  else if !s.inFlow ∧ (c = '?' ∨ c = ':') ∧ !blankNext then s.plainScalar
  else none

/-- Scan up to `fuel` tokens. -/
def run : Nat → Scan → Option Scan
  | 0, _ => none
  | fuel + 1, s => do
    let s ← (s.skipGap (s.at_.rest.length + 1)).dropStale
    let s := s.closeBlocks s.column
    match s.at_.rest with
    | [] => (s.closeBlocks (-1)).dropSpot
    | c :: rest => run fuel (← s.token c rest)

end Scan

/-- The tokens of a text, unless it is malformed. -/
def scan? (text : String) : Option (List Token) :=
  let cs := text.toList
  if !cs.all isAllowed then none
  else
    let cs := match cs with
      | '\uFEFF' :: rest => rest
      | rest => rest
    (Scan.run (cs.length + 1) { at_ := { rest := cs } }).map (·.tokens.reverse)

end Approval.Yaml
