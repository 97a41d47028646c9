import Approval.Http.Target

/-!
# Calls

A call has a method, a target, headers and a body. The names of headers do not depend on case, and of
several headers with one name the first one counts.
-/

namespace Approval.Http

/-- A method. -/
inductive Method
  | get
  | head
  | post
  | delete
  | options
  | other (name : String)
  deriving DecidableEq

/-- A character of a method, of the name of a header, or of a media type. -/
def isToken (c : Char) : Bool := c.isAlphanum || "!#$%&'*+-.^_`|~".toList.contains c

/-- Read a method. -/
def Method.parse? : String → Option Method
  | "GET" => some .get
  | "HEAD" => some .head
  | "POST" => some .post
  | "DELETE" => some .delete
  | "OPTIONS" => some .options
  | name => if !name.isEmpty && name.toList.all isToken then some (.other name) else none

/-- A header: its name in lower case, and its value. -/
structure Header where
  name : String
  value : String
  deriving DecidableEq

namespace Header

/-- A character that may stand in a value. -/
def isValueChar (c : Char) : Bool := c == '\t' || (' ' ≤ c && c != '\x7F')

/-- Make a header, if its name and its value may be sent. -/
def make? (name value : String) : Option Header :=
  if !name.isEmpty && name.toList.all isToken && value.toList.all isValueChar then
    some ⟨String.ofList (name.toList.map Char.toLower), value⟩
  else none

/-- The value, if it is plain: ASCII without control characters other than tabs. -/
def plain? (h : Header) : Option String :=
  if h.value.toList.all fun c => isValueChar c && c.toNat < 0x80 then some h.value else none

end Header

/-- A call. -/
structure Call where
  method : Method
  target : Target
  headers : List Header := []
  body : String := ""

namespace Call

/-- Make a call of its parts, if they may be sent. -/
def make? (method target : String) (headers : List (String × String)) (body : String) : Option Call := do
  let method ← Method.parse? method
  let target ← Target.parse? target
  let headers ← headers.mapM fun (name, value) => Header.make? name value
  return { method, target, headers, body }

def header? (name : String) (c : Call) : Option Header := c.headers.find? (·.name = name)

end Call

end Approval.Http
