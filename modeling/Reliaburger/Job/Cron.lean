import Reliaburger.Config.Types

/-! Cron schedules: parsing the five-field syntax and matching it against UTC wall-clock time.
-/

namespace Reliaburger

inductive CronUnit where
  | minute
  | hour
  | dayOfMonth
  | month
  | dayOfWeek
deriving DecidableEq, Repr

namespace CronUnit

def name : CronUnit → String
  | minute => "minute"
  | hour => "hour"
  | dayOfMonth => "day-of-month"
  | month => "month"
  | dayOfWeek => "day-of-week"

/-- The smallest and the largest value accepted; both 0 and 7 mean Sunday. -/
def bounds : CronUnit → Nat × Nat
  | minute => (0, 59)
  | hour => (0, 23)
  | dayOfMonth => (1, 31)
  | month => (1, 12)
  | dayOfWeek => (0, 7)

/-- Names the field accepts, numbered from its smallest value. -/
def names : CronUnit → List String
  | month => ["JAN", "FEB", "MAR", "APR", "MAY", "JUN", "JUL", "AUG", "SEP", "OCT", "NOV", "DEC"]
  | dayOfWeek => ["SUN", "MON", "TUE", "WED", "THU", "FRI", "SAT"]
  | _ => []

/-- Fold day-of-week 7 onto 0, so that matching only ever sees 0 to 6. -/
def normalise (unit : CronUnit) (value : Nat) : Nat :=
  if unit = dayOfWeek ∧ value = 7 then 0 else value

end CronUnit

inductive CronError where
  | fieldCount (got : Nat)
  | outOfRange (field : CronUnit) (value : Nat)
  | malformed (field : CronUnit) (token : String)
  | unsupportedMacro (name : String)
deriving DecidableEq, Repr

/-- A text as messages show it; characters a debug rendering would escape stay as they are. -/
def quoted (text : String) : String :=
  "\"" ++ text ++ "\""

/-- The message each parse failure carries. -/
def CronError.text : CronError → String
  | .fieldCount got =>
    s!"expected 5 fields (minute hour day-of-month month day-of-week), got {got}"
  | .outOfRange field value =>
    "field " ++ quoted field.name ++ s!" value {value} out of range "
      ++ s!"{field.bounds.1}..={field.bounds.2}"
  | .malformed field token =>
    "field " ++ quoted field.name ++ " is malformed: " ++ quoted token
  | .unsupportedMacro name =>
    "unsupported cron macro " ++ quoted name ++ "; use @hourly, @daily, @midnight, @weekly, "
      ++ "@monthly, @yearly, @annually or five fields"

/-- The values one field matches, and whether it was written starting with `*`. -/
structure CronField where
  star : Bool
  values : BTreeSet Nat

structure CronSchedule where
  minute : CronField
  hour : CronField
  dayOfMonth : CronField
  month : CronField
  dayOfWeek : CronField

/-- Characters with Unicode's `White_Space` property. -/
def isWhitespace (char : Char) : Bool :=
  let code := char.toNat
  (0x09 ≤ code && code ≤ 0x0d) || code == 0x20 || code == 0x85 || code == 0xa0
    || code == 0x1680 || (0x2000 ≤ code && code ≤ 0x200a) || code == 0x2028 || code == 0x2029
    || code == 0x202f || code == 0x205f || code == 0x3000

/-- The maximal runs of characters that `separator` rejects, empty runs included. -/
def splitChars (separator : Char → Bool) : List Char → List (List Char)
  | [] => [[]]
  | char :: rest =>
    if separator char then [] :: splitChars separator rest
    else
      match splitChars separator rest with
      | [] => [[char]]
      | word :: words => (char :: word) :: words

def splitWhitespace (text : List Char) : List (List Char) :=
  (splitChars isWhitespace text).filter (fun word => !word.isEmpty)

def trim (text : List Char) : List Char :=
  (text.dropWhile isWhitespace).reverse.dropWhile isWhitespace |>.reverse

def asciiLower (char : Char) : Char :=
  if 'A' ≤ char ∧ char ≤ 'Z' then Char.ofNat (char.toNat + 32) else char

/-- The value of a decimal numeral up to `limit`; a leading `+` is allowed. -/
def parseUnsigned (limit : Nat) (token : List Char) : Option Nat :=
  let digits := match token with
    | '+' :: rest => rest
    | _ => token
  if digits.isEmpty || !digits.all (fun char => '0' ≤ char && char ≤ '9') then none
  else
    let value := digits.foldl (fun value char => value * 10 + (char.toNat - '0'.toNat)) 0
    if value ≤ limit then some value else none

namespace CronSchedule

/-- The five-field expansion of each supported shorthand. -/
def expandMacro (name : List Char) : Option String :=
  match String.ofList (name.map asciiLower) with
  | "@yearly" | "@annually" => some "0 0 1 1 *"
  | "@monthly" => some "0 0 1 * *"
  | "@weekly" => some "0 0 * * 0"
  | "@daily" | "@midnight" => some "0 0 * * *"
  | "@hourly" => some "0 * * * *"
  | _ => none

/-- One value of a field: a name or a number within the field's bounds. -/
def parseValue (unit : CronUnit) (token : List Char) : Except CronError Nat :=
  let lowered := token.map asciiLower
  match unit.names.findIdx? (fun name => name.toList.map asciiLower == lowered) with
  | some position => .ok (unit.bounds.1 + position)
  | none =>
    match parseUnsigned (2 ^ 32 - 1) token with
    | none => .error (.malformed unit (String.ofList token))
    | some value =>
      if value < unit.bounds.1 ∨ value > unit.bounds.2 then .error (.outOfRange unit value)
      else .ok value

def parseStep (malformed : CronError) (term : List Char)
    : Except CronError (List Char × Option Nat) :=
  match splitOnce '/' term with
  | none => .ok (term, none)
  | some (base, step) =>
    match parseUnsigned 255 step with
    | none | some 0 => .error malformed
    | some step => .ok (base, some step)

/-- The first and last value a term's base stands for; a single value with a step runs to the
field's maximum. -/
def parseRange (unit : CronUnit) (base : List Char) (step : Option Nat)
    : Except CronError (Nat × Nat) :=
  if base = ['*'] then .ok unit.bounds
  else
    match splitOnce '-' base with
    | some (low, high) => do
        let first ← parseValue unit low
        let last ← parseValue unit high
        return (first, last)
    | none => do
        let value ← parseValue unit base
        return (value, if step.isSome then unit.bounds.2 else value)

/-- The values of one term: a value or range, with a step if it has one. -/
def parseTerm (unit : CronUnit) (malformed : CronError) (term : List Char)
    : Except CronError (List Nat) := do
  let (base, step) ← parseStep malformed term
  let (first, last) ← parseRange unit base step
  if first > last then throw malformed
  let stride := step.getD 1
  return (List.range ((last - first) / stride + 1)).map
    (fun count => unit.normalise (first + count * stride))

def parseField (token : List Char) (unit : CronUnit) : Except CronError CronField := do
  let malformed := CronError.malformed unit (String.ofList token)
  let terms ← (splitChars (· == ',') token).mapM (parseTerm unit malformed)
  return {
    star := token.head? == some '*'
    values := terms.flatten.foldl (fun values value => values.insert value) ∅ }

def parse (expression : String) : Except CronError CronSchedule := do
  let trimmed := trim expression.toList
  let expanded ←
    if trimmed.head? == some '@' then
      match expandMacro trimmed with
      | some expansion => pure expansion
      | none => throw (.unsupportedMacro (String.ofList trimmed))
    else pure expression
  match splitWhitespace expanded.toList with
  | [minute, hour, dayOfMonth, month, dayOfWeek] =>
    return {
      minute := ← parseField minute .minute
      hour := ← parseField hour .hour
      dayOfMonth := ← parseField dayOfMonth .dayOfMonth
      month := ← parseField month .month
      dayOfWeek := ← parseField dayOfWeek .dayOfWeek }
  | fields => throw (.fieldCount fields.length)

end CronSchedule

/-- The parts of a UTC instant that a schedule looks at; weekdays count from Sunday. -/
structure UtcTime where
  minute : Nat
  hour : Nat
  day : Nat
  month : Nat
  weekday : Nat
deriving DecidableEq, Repr

/-- The last second of the year 9999, the latest a timestamp may name. -/
def maxTimestamp : Nat := 253402300799

/-- The month and day of the month, by the proleptic Gregorian calendar, of a day counted from
1970-01-01. Years are taken to begin in March, so that a leap day is a year's last day.
-/
def civilDate (days : Nat) : Nat × Nat :=
  let dayOfEra := (days + 719468) % 146097
  let yearOfEra :=
    (dayOfEra - dayOfEra / 1460 + dayOfEra / 36524 - dayOfEra / 146096) / 365
  let dayOfYear := dayOfEra - (365 * yearOfEra + yearOfEra / 4 - yearOfEra / 100)
  let fromMarch := (5 * dayOfYear + 2) / 153
  (if fromMarch < 10 then fromMarch + 3 else fromMarch - 9,
    dayOfYear - (153 * fromMarch + 2) / 5 + 1)

/-- The UTC instant of a timestamp, if it is within the calendar's years. -/
def fromUnixTimestamp (seconds : Nat) : Option UtcTime :=
  if seconds > maxTimestamp then none
  else
    let days := seconds / 86400
    let (month, day) := civilDate days
    some {
      minute := seconds / 60 % 60
      hour := seconds / 3600 % 24
      day, month
      weekday := (days + 4) % 7 }

/-- Does the schedule fire at this instant? When both day fields are restricted, a match on
either one is enough.
-/
def CronSchedule.fires (schedule : CronSchedule) (time : UtcTime) : Bool :=
  let onDay := schedule.dayOfMonth.values.contains time.day
  let onWeekday := schedule.dayOfWeek.values.contains time.weekday
  schedule.minute.values.contains time.minute
    && schedule.hour.values.contains time.hour
    && (if schedule.dayOfMonth.star || schedule.dayOfWeek.star then onDay && onWeekday
      else onDay || onWeekday)
    && schedule.month.values.contains time.month

end Reliaburger
