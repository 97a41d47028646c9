import Approval.Time.Calendar

/-!
# Instants

Points of time in coordinated universal time, to the nanosecond. A leap second is the second before
it gone on with: its nanoseconds count from `10 ^ 9`.
-/

namespace Approval

def Instant.firstSecond : Int := -8334601228800

def Instant.lastSecond : Int := 8210266876799

/-- A point of time: seconds since 1970-01-01T00:00:00 and nanoseconds in them. -/
structure Instant where
  second : Int
  nano : Nat := 0
  inRange : Instant.firstSecond ≤ second ∧ second ≤ Instant.lastSecond := by decide
  nano_lt : nano < 2000000000 := by decide
  deriving DecidableEq

namespace Instant

instance : Inhabited Instant := ⟨{ second := 0 }⟩

/-- The instant with the given parts, if it is in range. -/
def ofParts? (second : Int) (nano : Nat) : Option Instant :=
  if h : firstSecond ≤ second ∧ second ≤ lastSecond then
    if hn : nano < 2000000000 then some ⟨second, nano, h, hn⟩ else none
  else none

/-- `a` comes before `b`. -/
def before (a b : Instant) : Bool :=
  a.second < b.second || (a.second == b.second && a.nano < b.nano)

instance : LT Instant := ⟨fun a b => a.before b⟩
instance : LE Instant := ⟨fun a b => ¬ b.before a⟩
instance (a b : Instant) : Decidable (a < b) := inferInstanceAs (Decidable (a.before b))
instance (a b : Instant) : Decidable (a ≤ b) := inferInstanceAs (Decidable (¬ b.before a))

def nanosPerSecond : Nat := 1000000000

/-- The later instant by a span of whole seconds and nanoseconds. Leaving a leap second drops it. -/
def add? (t : Instant) (seconds : Int) (nanos : Nat) : Option Instant :=
  let leap := nanosPerSecond ≤ t.nano
  if leap ∧ seconds = 0 ∧ t.nano + nanos < 2 * nanosPerSecond then ofParts? t.second (t.nano + nanos)
  else
    let start := if leap ∧ seconds < 0 then t.second + 1 else t.second
    let total := (if leap then t.nano - nanosPerSecond else t.nano) + nanos
    if total < nanosPerSecond then ofParts? (start + seconds) total
    else ofParts? (start + seconds + 1) (total - nanosPerSecond)

def addHours? (t : Instant) (hours : Nat) : Option Instant := t.add? (hours * 3600) 0

/-- The instant a number of milliseconds later. -/
def addMillis? (t : Instant) (millis : Int) : Option Instant :=
  t.add? (millis / 1000) ((millis % 1000).toNat * 1000000)

/-- The span from `a` to `b` in nanoseconds. A leap second counts if it lies strictly between the
seconds of the two. -/
def nanosBetween (a b : Instant) : Int :=
  let leapAdjust : Int :=
    if a.second % 86400 < b.second % 86400 ∧ nanosPerSecond ≤ a.nano then 1
    else if b.second % 86400 < a.second % 86400 ∧ nanosPerSecond ≤ b.nano then -1
    else 0
  (b.second - a.second + leapAdjust) * nanosPerSecond + ((b.nano : Int) - a.nano)

/-- The whole minutes from `a` to `b`, cut toward zero. -/
def minutesBetween (a b : Instant) : Int :=
  Int.tdiv (Int.tdiv (nanosBetween a b) nanosPerSecond) 60

def date (t : Instant) : Date := Date.ofDays (t.second / 86400)

def year (t : Instant) : Int := t.date.year

/-- The year of the instant has four digits and no sign. -/
def hasPlainYear (t : Instant) : Bool := 0 ≤ t.year && t.year ≤ 9999

/-- Hour, minute and second of the day; a leap second is the second 60. -/
def clock (t : Instant) : Nat × Nat × Nat :=
  let ofDay := (t.second % 86400).toNat
  let second := ofDay % 60
  (ofDay / 3600, ofDay / 60 % 60, if nanosPerSecond ≤ t.nano then second + 1 else second)

end Instant

end Approval
