import Approval.Wire.Decoder

/-!
# Records

A record type decodes from an object with a member for each field, or from a list of the fields in
order. In an object unknown members are passed over and a known one may stand only once; a list may
lack trailing fields that have a default. Fields are declared one after the other:
`User.mk <$> required "id" id <*> required "name" text`.
-/

namespace Approval

/-- One field of a record: its name, a check of its value, and whether it has a default. -/
structure FieldRule where
  name : String
  check : Decoder Unit
  defaulted : Bool

/-- A record decoder: its fields in order, and how the value is made of the documents of the fields
that are present. -/
structure RecordDecoder (α : Type) where
  fields : List FieldRule
  build : (String → Option Doc) → Except DecodeFault α

namespace RecordDecoder

instance : Functor RecordDecoder where
  map f r := ⟨r.fields, fun get => f <$> r.build get⟩

instance : Seq RecordDecoder where
  seq f x :=
    let r := x ()
    ⟨f.fields ++ r.fields, fun get => do
      let g ← f.build get
      let a ← r.build get
      .ok (g a)⟩

/-- A field that reads as `absent` when it is not there. -/
def single {α : Type} (name : String) (decode : Decoder α) (defaulted : Bool)
    (absent : Except DecodeFault α) : RecordDecoder α :=
  { fields := [{ name, check := fun d => (fun _ => ()) <$> decode d, defaulted }]
    build := fun get =>
      match get name with
      | some d => decode d
      | none => absent }

/-- A field that must be present. -/
def required {α : Type} (name : String) (decode : Decoder α) : RecordDecoder α :=
  single name decode false (.error .mismatch)

/-- A field that is none when it is null or when an object lacks it. -/
def maybe {α : Type} (name : String) (decode : Decoder α) : RecordDecoder (Option α) :=
  single name decode.optional false (.ok none)

/-- A field with a default. -/
def orElse {α : Type} (name : String) (decode : Decoder α) (default : α) : RecordDecoder α :=
  single name decode true (.ok default)

/-- A field that is none when it is null or lacking. -/
def orNone {α : Type} (name : String) (decode : Decoder α) : RecordDecoder (Option α) :=
  orElse name decode.optional none

/-- Check the members of an object in order; `seen` holds the known names met so far. -/
def checkMembers (fields : List FieldRule) (seen : List String) :
    List (Option String × Doc) → Except DecodeFault Unit
  | [] => .ok ()
  | (none, _) :: _ => .error .malformed
  | (some name, d) :: rest =>
    match fields.find? (·.name = name) with
    | some f =>
      if seen.contains name then .error .mismatch
      else do
        f.check d
        checkMembers fields (name :: seen) rest
    | none => do
      Decoder.skip d
      checkMembers fields seen rest

/-- Check a list against the fields in order. Elements past the fields are refused by `extra`. -/
def checkItems (extra : List Doc → Except DecodeFault Unit) :
    List FieldRule → List Doc → Except DecodeFault Unit
  | [], items => extra items
  | f :: fields, d :: items => do
    f.check d
    checkItems extra fields items
  | f :: fields, [] => if f.defaulted then checkItems extra fields [] else .error .mismatch

/-- The value of the first member of a given name. -/
def findMember (members : List (Option String × Doc)) (name : String) : Option Doc :=
  members.lookup (some name)

/-- A list may not be longer than the record. -/
def noExtra (items : List Doc) : Except DecodeFault Unit :=
  if items.isEmpty then .ok () else .error .malformed

/-- Decode a record from an object. -/
def ofMembers {α : Type} (r : RecordDecoder α) (members : List (Option String × Doc)) :
    Except DecodeFault α := do
  checkMembers r.fields [] members
  r.build (findMember members)

/-- Decode a record from a list of its fields. -/
def ofItems {α : Type} (r : RecordDecoder α) (extra : List Doc → Except DecodeFault Unit)
    (items : List Doc) : Except DecodeFault α := do
  checkItems extra r.fields items
  r.build fun name => ((r.fields.map (·.name)).zip items).lookup name

/-- Decode a record. A plain scalar without characters is an object without members. -/
def decodeWith {α : Type} (r : RecordDecoder α) (extra : List Doc → Except DecodeFault Unit) :
    Decoder α
  | .object members | .tagged _ (.object members) => r.ofMembers members
  | .list items | .tagged _ (.list items) => r.ofItems extra items
  | .plain "" | .declared _ "" true => r.ofMembers []
  | .tooDeep => .error .malformed
  | d => .error (Decoder.refuse d)

/-- Decode a record; a list may not be longer than the record. -/
def decode {α : Type} (r : RecordDecoder α) : Decoder α := r.decodeWith noExtra

/-- Decode a record; a list may be longer than the record. -/
def decodeLoosely {α : Type} (r : RecordDecoder α) : Decoder α := r.decodeWith fun _ => .ok ()

end RecordDecoder

end Approval
