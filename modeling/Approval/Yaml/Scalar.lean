import Approval.Json.Token
import Approval.Yaml.Cursor

/-!
# Scalars in YAML text

How the three styles of scalars are read: plain, between quotation marks, and in a block of lines. Line
ends inside a scalar fold into blanks: a single one becomes a space and of several the first is dropped.
A block that is not folded keeps its lines.
-/

namespace Approval.Yaml

open JsonToken (hexValue?)

/-! ### Folding -/

/-- The blanks and line ends between two pieces of a scalar: blanks on one line, or the first line end
and those after it. -/
inductive Gap
  | blanks (cs : List Char)
  | lines (first : List Char) (more : List Char)

/-- A gap that has met a line end. -/
def Gap.hasLines : Gap → Bool
  | .blanks _ => false
  | .lines .. => true

/-- The characters that a gap stands for. -/
def Gap.fold : Gap → List Char
  | .blanks cs => cs
  | .lines ['\n'] [] => [' ']
  | .lines ['\n'] more => more
  | .lines first more => first ++ more

/-- Take blanks and line ends into a gap. Tabs to the left of `indent` are refused. -/
def readGap (indent : Int) : Nat → Cursor → Gap → Option (Cursor × Gap)
  | 0, c, gap => some (c, gap)
  | fuel + 1, c, gap =>
    match c.rest with
    | [] => some (c, gap)
    | d :: _ =>
      if isBlank d then
        match gap with
        | .blanks cs => readGap indent fuel (c.skip 1) (.blanks (cs ++ [d]))
        | gap =>
          if d = '\t' ∧ (c.column : Int) < indent then none
          else readGap indent fuel (c.skip 1) gap
      else if isBreak d then
        match gap with
        | .blanks _ => readGap indent fuel c.skipBreak (.lines c.breakText [])
        | .lines first more => readGap indent fuel c.skipBreak (.lines first (more ++ c.breakText))
      else some (c, gap)

/-! ### Plain scalars -/

/-- The characters that end a plain scalar inside brackets. -/
def isFlowMark (c : Char) : Bool := c == ',' || c == '[' || c == ']' || c == '\x7b' || c == '\x7d'

/-- The characters that may not follow a colon inside brackets. -/
def isBadAfterColon (c : Char) : Bool := isFlowMark c || c == '?'

/-- The characters of a plain scalar up to the next blank or to its end. -/
def readWord (inFlow : Bool) : List Char → Option (List Char)
  | [] => some []
  | c :: rest =>
    if isBlank c ∨ isBreak c then some []
    else if inFlow ∧ c = ':' ∧ (rest.head?.map isBadAfterColon).getD false then none
    else if (c = ':' ∧ startsBlank rest) ∨ (inFlow ∧ isFlowMark c) then some []
    else (readWord inFlow rest).map (c :: ·)

/-- Go on with a plain scalar that has the text `text` so far and then `gap`. The answer says whether it
ended behind a line end. -/
def readPlainRest (inFlow : Bool) (indent : Int) :
    Nat → Cursor → List Char → Gap → Option (Cursor × List Char × Bool)
  | 0, c, text, gap => some (c, text, gap.hasLines)
  | fuel + 1, c, text, gap =>
    if c.atDocumentMark ∨ c.head? = some '#' then some (c, text, gap.hasLines)
    else do
      let word ← readWord inFlow c.rest
      if word.isEmpty then some (c, text, gap.hasLines)
      else
        let text := text ++ gap.fold ++ word
        let c := c.skip word.length
        match c.rest with
        | [] => some (c, text, false)
        | d :: _ =>
          if isBlank d ∨ isBreak d then do
            let (c, gap) ← readGap indent c.rest.length c (.blanks [])
            if !inFlow ∧ (c.column : Int) < indent then some (c, text, gap.hasLines)
            else readPlainRest inFlow indent fuel c text gap
          else some (c, text, false)

/-- A plain scalar: what follows it, its text, and whether it ended behind a line end. -/
def readPlain (inFlow : Bool) (indent : Int) (c : Cursor) : Option (Cursor × List Char × Bool) :=
  readPlainRest inFlow indent (c.rest.length + 1) c [] (.blanks [])

/-! ### Quoted scalars -/

/-- The character that stands for a letter after a backslash. -/
def escaped? : Char → Option Char
  | '0' => some '\x00'
  | 'a' => some '\x07'
  | 'b' => some '\x08'
  | 't' | '\t' => some '\t'
  | 'n' => some '\n'
  | 'v' => some '\x0b'
  | 'f' => some '\x0c'
  | 'r' => some '\r'
  | 'e' => some '\x1b'
  | ' ' => some ' '
  | '"' => some '"'
  | '/' => some '/'
  | '\\' => some '\\'
  | 'N' => some '\u0085'
  | '_' => some '\u00a0'
  | 'L' => some '\u2028'
  | 'P' => some '\u2029'
  | _ => none

/-- How many hexadecimal digits follow a letter after a backslash. -/
def hexCount? : Char → Option Nat
  | 'x' => some 2
  | 'u' => some 4
  | 'U' => some 8
  | _ => none

/-- The character with the code that hexadecimal digits spell. -/
def hexChar? (digits : List Char) : Option Char := do
  let n ← digits.foldlM (fun n c => (hexValue? c).map (16 * n + ·)) 0
  if (0xD800 ≤ n ∧ n ≤ 0xDFFF) ∨ 0x10FFFF < n then none else some (Char.ofNat n)

/-- The characters of a quoted scalar up to the next blank, line end or closing mark. The answer says
whether an escaped line end was met. -/
def readQuotedWord (double : Bool) : Nat → Cursor → List Char → Option (Cursor × List Char × Bool)
  | 0, c, text => some (c, text, false)
  | fuel + 1, c, text =>
    match c.rest with
    | [] => some (c, text, false)
    | d :: rest =>
      if isBlank d ∨ isBreak d then some (c, text, false)
      else if double then
        if d = '"' then some (c, text, false)
        else if d = '\\' then
          match rest with
          | [] => none
          | e :: more =>
            if isBreak e then some ((c.skip 1).skipBreak, text, true)
            else
              match hexCount? e with
              | some count =>
                if more.length < count then none
                else do
                  let f ← hexChar? (more.take count)
                  readQuotedWord double fuel (c.skip (2 + count)) (text ++ [f])
              | none => do
                let f ← escaped? e
                readQuotedWord double fuel (c.skip 2) (text ++ [f])
        else readQuotedWord double fuel (c.skip 1) (text ++ [d])
      else
        match d, rest with
        | '\'', '\'' :: _ => readQuotedWord double fuel (c.skip 2) (text ++ ['\''])
        | '\'', _ => some (c, text, false)
        | d, _ => readQuotedWord double fuel (c.skip 1) (text ++ [d])

/-- Go on with a quoted scalar that has the text `text` so far. -/
def readQuotedRest (double : Bool) : Nat → Cursor → List Char → Option (Cursor × List Char)
  | 0, _, _ => none
  | fuel + 1, c, text =>
    if c.atDocumentMark ∨ c.rest.isEmpty then none
    else do
      let (c, text, joined) ← readQuotedWord double (c.rest.length + 1) c text
      if !joined ∧ c.head? = some (if double then '"' else '\'') then some (c.skip 1, text)
      else
        let start := if joined then Gap.lines [] [] else .blanks []
        let (c, gap) ← readGap (-1) c.rest.length c start
        readQuotedRest double fuel c (text ++ gap.fold)

/-- A quoted scalar, from its opening mark on. -/
def readQuoted (double : Bool) (c : Cursor) : Option (Cursor × List Char) :=
  readQuotedRest double (c.rest.length + 1) (c.skip 1) []

/-! ### Block scalars -/

/-- What becomes of the line ends at the end of a block. -/
inductive Chomping
  | strip
  | clip
  | keep

/-- What the head of a block says: the line ends at its end, and how far it is indented. -/
def blockHead? : List Char → Option (Chomping × Nat × Nat)
  | '+' :: d :: rest =>
    if d = '0' then none
    else if d.isDigit then some (.keep, d.toNat - '0'.toNat, 2)
    else let _ := rest; some (.keep, 0, 1)
  | '-' :: d :: rest =>
    if d = '0' then none
    else if d.isDigit then some (.strip, d.toNat - '0'.toNat, 2)
    else let _ := rest; some (.strip, 0, 1)
  | '+' :: [] => some (.keep, 0, 1)
  | '-' :: [] => some (.strip, 0, 1)
  | d :: rest =>
    if d = '0' then none
    else if d.isDigit then
      let n := d.toNat - '0'.toNat
      match rest with
      | '+' :: _ => some (.keep, n, 2)
      | '-' :: _ => some (.strip, n, 2)
      | _ => some (.clip, n, 1)
    else some (.clip, 0, 0)
  | [] => some (.clip, 0, 0)

/-- Pass indentation and empty lines, up to `indent` columns or any number if it is zero: the cursor, the
line ends, and the widest indentation seen. -/
def readBlockBreaks (indent : Nat) :
    Nat → Cursor → List Char → Nat → Option (Cursor × List Char × Nat)
  | 0, c, breaks, widest => some (c, breaks, widest)
  | fuel + 1, c, breaks, widest =>
    let spaces := (c.rest.takeWhile (· = ' ')).length
    let c := c.skip (if indent = 0 then spaces else min spaces (indent - c.column))
    let widest := max widest c.column
    match c.rest with
    | [] => some (c, breaks, widest)
    | d :: _ =>
      if d = '\t' ∧ (indent = 0 ∨ c.column < indent) then none
      else if isBreak d then readBlockBreaks indent fuel c.skipBreak (breaks ++ c.breakText) widest
      else some (c, breaks, widest)

/-- The lines of a block: its text, then the last line end and the empty lines after it. -/
def readBlockLines (folded : Bool) (indent : Nat) :
    Nat → Cursor → List Char → List Char → List Char → Bool →
      Option (Cursor × List Char × List Char × List Char)
  | 0, c, text, first, more, _ => some (c, text, first, more)
  | fuel + 1, c, text, first, more, afterBlank =>
    match c.rest with
    | [] => some (c, text, first, more)
    | d :: _ =>
      if c.column ≠ indent then some (c, text, first, more)
      else do
        let startsWithBlank := isBlank d
        let joint :=
          if folded ∧ first = ['\n'] ∧ !afterBlank ∧ !startsWithBlank then
            if more.isEmpty then [' '] else more
          else first ++ more
        let line := c.rest.takeWhile fun e => !isBreak e
        let c := c.skip line.length
        let (first, c) := match c.rest with
          | [] => ([], c)
          | _ => (c.breakText, c.skipBreak)
        let (c, more, _) ← readBlockBreaks indent (c.rest.length + 1) c [] 0
        readBlockLines folded indent fuel c (text ++ joint ++ line) first more startsWithBlank

/-- A block scalar, from its mark on, inside of what is indented by `outer` columns. -/
def readBlock (folded : Bool) (outer : Int) (c : Cursor) : Option (Cursor × List Char) := do
  let c := c.skip 1
  let (chomping, increment, length) ← blockHead? c.rest
  let c := (c.skip length).skipWhile isBlank
  let c := if c.head? = some '#' then c.skipWhile fun d => !isBreak d else c
  let c ← match c.rest with
    | [] => some c
    | d :: _ => if isBreak d then some c.skipBreak else none
  let given : Nat :=
    if increment = 0 then 0 else if 0 ≤ outer then outer.toNat + increment else increment
  let (c, breaks, widest) ← readBlockBreaks given (c.rest.length + 1) c [] 0
  let indent := if given = 0 then max (max widest (outer + 1).toNat) 1 else given
  let (c, text, first, more) ←
    readBlockLines folded indent (c.rest.length + 1) c [] [] breaks false
  let tail := match chomping with
    | .strip => []
    | .clip => first
    | .keep => first ++ more
  some (c, text ++ tail)

end Approval.Yaml
