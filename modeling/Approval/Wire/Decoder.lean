import Approval.Wire.Doc
import Approval.Wire.Scalar

/-!
# Decoders

A decoder reads a value of some type off a document. It fails on the first fault that it meets: the
text has no form there, or a value of another kind.
-/

namespace Approval

/-- Why a document does not decode: the text is malformed, or its value has the wrong shape. -/
inductive DecodeFault
  | malformed
  | mismatch
  deriving DecidableEq

abbrev Decoder (α : Type) := Doc → Except DecodeFault α

namespace Decoder

/-- The fault of a document that is not of the wanted kind. -/
def refuse : Doc → DecodeFault
  | .huge | .brokenText | .broken => .malformed
  | _ => .mismatch

/-- What is passed over must have a form and need not have a value. -/
def skip : Decoder Unit := fun d => if d.sound then .ok () else .error .malformed

/-- Go on with a partial function on the value. -/
def refine {α β : Type} (f : α → Option β) (decode : Decoder α) : Decoder β := fun d => do
  match f (← decode d) with
  | some b => .ok b
  | none => .error .mismatch

/-- A text. A scalar is one whatever it looks like. -/
def text : Decoder String
  | .text s | .plain s | .declared _ s _ => .ok s
  | .tagged _ (.text s) | .tagged _ (.plain s) => .ok s
  | d => .error (refuse d)

/-- A truth value. -/
def bool : Decoder Bool
  | .bool b => .ok b
  | .plain s | .declared _ s true | .tagged _ (.plain s) =>
    match Scalar.bool? s with
    | some b => .ok b
    | none => .error .mismatch
  | d => .error (refuse d)

/-- A whole number from `low` to `high`. -/
def int (low high : Int) : Decoder Int :=
  let inRange := fun (n : Int) =>
    if low ≤ n ∧ n ≤ high then Except.ok n else .error DecodeFault.mismatch
  fun d => match d with
  | .number (.whole n) => inRange n.val
  | .plain s | .declared _ s true | .tagged _ (.plain s) =>
    match Scalar.int? s with
    | some n => inRange n
    | none => .error .mismatch
  | d => .error (refuse d)

/-- A natural number below `bound`. -/
def natBelow (bound : Nat) : Decoder Nat :=
  let inRange := fun (n : Nat) =>
    if n < bound then Except.ok n else .error DecodeFault.mismatch
  fun d => match d with
  | .number (.whole n) => if 0 ≤ n.val then inRange n.val.toNat else .error .mismatch
  | .plain s | .declared _ s true | .tagged _ (.plain s) =>
    match Scalar.nat? s with
    | some n => inRange n
    | none => .error .mismatch
  | d => .error (refuse d)

/-- An order, a count of hours or a position: a natural number of 32 bits. -/
def count : Decoder Nat := natBelow (Nat.pow 2 32)

/-- A value that may be null. -/
def optional {α : Type} (decode : Decoder α) : Decoder (Option α)
  | .null => .ok none
  | .plain s => if Scalar.isNull s then .ok none else some <$> decode (.plain s)
  | .declared .null s true => if Scalar.isNull s then .ok none else .error .mismatch
  | .tagged tag content => some <$> decode (.tagged tag content)
  | d => some <$> decode d

/-- One of several names. A name stands as a text, or as the only name of an object whose value is
null. -/
def name {α : Type} (known : String → Option α) : Decoder α :=
  let pick := fun (s : String) =>
    match known s with
    | some a => Except.ok a
    | none => .error DecodeFault.mismatch
  fun d => match d with
  | .text s | .plain s | .declared _ s _ => pick s
  | .tagged tag (.plain s) => do
    let a ← pick tag
    if Scalar.isNull s then .ok a else .error .mismatch
  | .object [(some s, d)] => do
    let a ← pick s
    match d with
    | .null => .ok a
    | d => .error (refuse d)
  | .object ((some s, d) :: (_, _) :: _) => do
    let _ ← pick s
    match d with
    | .null => .error .malformed
    | d => .error (refuse d)
  | .tagged _ _ => .error .mismatch
  | _ => .error .malformed

/-- The values of a list, in order. -/
def each {α : Type} (decode : Decoder α) : List Doc → Except DecodeFault (List α)
  | [] => .ok []
  | d :: rest => do
    let a ← decode d
    let as ← each decode rest
    .ok (a :: as)

/-- A list. A plain scalar without characters is a list without items. -/
def list {α : Type} (decode : Decoder α) : Decoder (List α)
  | .list items | .tagged _ (.list items) => each decode items
  | .tooDeep => .error .malformed
  | .plain "" | .declared _ "" true => .ok []
  | d => .error (refuse d)

mutual

/-- Any JSON value. -/
def json : Decoder Json
  | .null => .ok .null
  | .bool b => .ok (.bool b)
  | .number n => .ok (.number n)
  | .text s => .ok (.text s)
  | .list items => do return .array (← jsonItems items)
  | .object members => do return Json.ofMembers (← jsonMembers members)
  | .plain s =>
    match Scalar.value? s with
    | some v => .ok v
    | none => .error .mismatch
  | .declared kind s _ =>
    match Scalar.valueAs? kind s with
    | some v => .ok v
    | none => .error .mismatch
  | .tagged _ _ => .error .mismatch
  | .huge | .brokenText | .tooDeep | .broken => .error .malformed

/-- JSON values, in order. -/
def jsonItems : List Doc → Except DecodeFault (List Json)
  | [] => .ok []
  | d :: rest => do
    let v ← json d
    let vs ← jsonItems rest
    .ok (v :: vs)

/-- The members of a JSON object, in order. -/
def jsonMembers : List (Option String × Doc) → Except DecodeFault (List (String × Json))
  | [] => .ok []
  | (none, _) :: _ => .error .malformed
  | (some name, d) :: rest => do
    let v ← json d
    let ms ← jsonMembers rest
    .ok ((name, v) :: ms)

end

/-- What is taken in whole, before it is known what of it is needed, must have a value throughout. -/
def whole : Decoder Unit := fun d => (fun _ => ()) <$> json d

/-- One of several names, in what was taken in whole: the value beside the name may be an object without
members too. -/
def nameInWhole {α : Type} (known : String → Option α) : Decoder α
  | .object [(some s, .object [])] => name known (.text s)
  | d => name known d

/-- Decode JSON text. What follows the value is looked at only once the value has decoded. -/
def decodeText {α : Type} (decode : Decoder α) (s : String) : Except DecodeFault α := do
  let (d, rest) := Doc.ofTokens (JsonToken.scan s.toList)
  let a ← decode d
  if rest.isEmpty then .ok a else .error .malformed

def ofJson {α : Type} (decode : Decoder α) (v : Json) : Option α := (decode (Doc.ofJson v)).toOption

end Decoder

def Json.read? (s : String) : Option Json := (Decoder.json.decodeText s).toOption

end Approval
