import Approval.CommandLine.Grammar

/-!
# Reading command lines

A command line is read word by word against a grammar. A value is checked only when the next option or
operand begins or the line ends, so that an unknown word later on may be found first. The members of a
group have levels of their own, on each of which an option may be given again.
-/

namespace Approval.CommandLine

/-- How far one command of the line is read: the values that were given, the place for the last one, which
may still wait for its value, and the operands to come. After two hyphens everything is an operand. -/
structure Level where
  form : CommandForm
  given : List (String × String) := []
  pending : Option (Slot × Option String) := none
  operands : List Slot
  isTrailing : Bool := false

namespace Level

/-- The level of a command of which nothing is read. -/
def start (form : CommandForm) : Level := { form, operands := form.operands }

/-- A value was given under a name. -/
def has (name : String) (l : Level) : Bool := (l.given.lookup name).isSome

/-- The last option still waits for its value. -/
def isWaiting (l : Level) : Bool :=
  match l.pending with
  | some (_, none) => true
  | _ => false

/-- Take a value. -/
def take (slot : Slot) (value : String) (l : Level) : Except UsageFault Level := do
  if !slot.isMany && l.has slot.name then .error (.repeated slot.name)
  else
    slot.kind.check slot.name value
    return { l with given := l.given ++ [(slot.name, value)] }

/-- Take the value that is pending. -/
def settle (l : Level) : Except UsageFault Level :=
  match l.pending with
  | none => .ok l
  | some (slot, none) => .error (.valueMissing slot.name)
  | some (slot, some value) => { l with pending := none }.take slot value

/-- Let a place wait for its value. -/
def await (slot : Slot) (l : Level) : Except UsageFault Level := do
  return { ← l.settle with pending := some (slot, none) }

/-- Read an option that stands alone; `fill` says what to do with one that takes a value. -/
def applyOption (o : OptionForm) (fill : Slot → Level → Except UsageFault Level) (l : Level) :
    Except UsageFault Level := do
  match o.action with
  | .mark isMany =>
    let l ← l.settle
    l.take ⟨o.name, .text, isMany⟩ ""
  | .fill kind isMany => fill ⟨o.name, kind, isMany⟩ l
  | .help =>
    let _ ← l.settle
    .error .helpWanted
  | .version =>
    let _ ← l.settle
    .error .versionWanted

/-- Take a value that is attached to its option. -/
def attach (value : String) (slot : Slot) (l : Level) : Except UsageFault Level := do
  (← l.settle).take slot value

/-- Read what follows two hyphens: the name of an option, with a value after an equals sign. -/
def long (cs : List Char) (l : Level) : Except UsageFault Level :=
  let name := cs.takeWhile (· != '=')
  match l.form.optionNamed (String.ofList name) with
  | none => .error (.unknownArgument (String.ofList cs))
  | some o =>
    match cs.drop name.length with
    | _ :: value =>
      match o.action with
      | .fill _ _ => l.applyOption o (attach (String.ofList value))
      | _ => .error (.unneededValue o.name)
    | [] => l.applyOption o await

/-- Read what follows one hyphen: letters of options, the last of which may have its value behind it. -/
def letters (l : Level) : List Char → Except UsageFault Level
  | [] => .ok l
  | c :: rest =>
    match l.form.optionLettered c with
    | none => .error (.unknownArgument (String.ofList (c :: rest)))
    | some o =>
      match o.action, rest with
      | .fill _ _, [] => l.applyOption o await
      | .fill _ _, '=' :: value => l.applyOption o (attach (String.ofList value))
      | .fill _ _, value => l.applyOption o (attach (String.ofList value))
      | _, _ => do letters (← l.applyOption o await) rest

/-- Read an operand. -/
def operand (word : String) (l : Level) : Except UsageFault Level :=
  match l.operands with
  | slot :: rest => do
    return { ← l.settle with pending := some (slot, some word), operands := rest }
  | [] =>
    let isCommand := (l.form.member? word).isSome || word = "help"
    .error
      (if l.form.isGroup && !(l.isTrailing && isCommand) then .unknownCommand word
      else .unknownArgument word)

/-- Read a word that is no option: the value that is waited for, or an operand. -/
def plain (word : String) (l : Level) : Except UsageFault Level :=
  match l.pending with
  | some (slot, none) => .ok { l with pending := some (slot, some word) }
  | _ => l.operand word

/-- What a word does: it stays with the command, enters a member, or asks for help. -/
inductive Move
  | stay (l : Level)
  | enter (form : CommandForm)
  | help

/-- Read a word. -/
def step (word : String) (l : Level) : Except UsageFault Move :=
  if l.isTrailing then .stay <$> l.operand word
  else if l.form.isGroup && !l.isWaiting && word = "help" then .ok .help
  else
    match if l.isWaiting then none else l.form.member? word with
    | some form => .ok (.enter form)
    | none =>
      match word.toList with
      | ['-', '-'] => .ok (.stay { l with isTrailing := true })
      | '-' :: '-' :: cs => .stay <$> l.long cs
      | '-' :: c :: cs => .stay <$> l.letters (c :: cs)
      | _ => .stay <$> l.plain word

/-- End the command at which the line ends. -/
def finish (l : Level) : Except UsageFault Level := do
  let l ← l.settle
  if l.form.isGroup then .error (if l.given.isEmpty then .nothingGiven else .commandMissing)
  else if !l.operands.isEmpty || l.form.options.any (fun o => o.isRequired && !l.has o.name) then
    .error .argumentMissing
  else return l

end Level

/-- A command line that was read: its levels, the innermost first. -/
structure Line where
  levels : List Level

namespace Line

/-- Read the rest of a line at a level inside of others. -/
def readFrom (l : Level) (outer : List Level) : List String → Except UsageFault Line
  | [] => do
    let l ← l.finish
    let outer ← outer.mapM Level.settle
    return ⟨l :: outer⟩
  | word :: rest => do
    match ← l.step word with
    | .stay l => readFrom l outer rest
    | .enter form => readFrom (.start form) (l :: outer) rest
    | .help => .error (l.form.helpOn rest)

/-- Read a line. -/
def read (form : CommandForm) (words : List String) : Except UsageFault Line :=
  readFrom (.start form) [] words

/-- The usual names of the commands of a line, without that of the program. -/
def words (l : Line) : List String := (l.levels.reverse.drop 1).map (·.form.name)

/-- The value that was given under a name, the innermost one if there are several. -/
def value? (name : String) (l : Line) : Option String := l.levels.findSome? (·.given.lookup name)

/-- The value that was given under a name, or an empty text. -/
def value (name : String) (l : Line) : String := (l.value? name).getD ""

/-- All values that were given under a name. -/
def values (name : String) (l : Line) : List String :=
  l.levels.flatMap fun level => (level.given.filter (·.1 = name)).map (·.2)

/-- A mark was made. -/
def has (name : String) (l : Line) : Bool := (l.value? name).isSome

/-- The whole number that was given under a name. -/
def whole? (name : String) (l : Line) : Option Int := (l.value? name).bind Text.int?

end Line

end Approval.CommandLine
