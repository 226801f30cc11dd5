import MobilitySweep.Shell.Utility
import MobilitySweep.Time.Instant

/-! # Dates

Moments that are given in words or numbers, and how they are shown.
-/

namespace MobilitySweep

namespace Shell

namespace Dates

/-- The moment that seconds are counted from. -/
def epoch : Instant := .ofCivil ⟨1970, 1, 1, 0, 0, 0, 0⟩

/-- The moment some seconds after the first one. -/
def ofSeconds (seconds : Int) : Instant := epoch.add (seconds * 1000000000)

/-- The seconds from the first moment to another one. -/
def secondsOf (t : Instant) : Int := (t.nanos - epoch.nanos) / 1000000000

/-- A time of day: hours and minutes, perhaps seconds, and what is behind it. -/
def timeOfDay? (text : Bytes) : Option (Nat × Nat × Nat × Bytes) := do
  let (hour, text) ← Instant.digits? 2 text
  let (minute, text) ← Instant.digits? 2 (← Instant.byte? 58 text)
  match Instant.byte? 58 text with
  | some text =>
    let (second, text) ← Instant.digits? 2 text
    some (hour, minute, second, text)
  | none => some (hour, minute, 0, text)

/-- A moment as it is written: seconds behind a sign, or a date with or without a time of day. -/
def ofText? (text : Bytes) : Option Instant := do
  match text with
  | 64 :: number =>
    let seconds ← (Decimal.read number).toOption
    some (ofSeconds seconds.toInt)
  | _ =>
    let (year, text) ← Instant.digits? 4 text
    let (month, text) ← Instant.digits? 2 (← Instant.byte? 45 text)
    let (day, text) ← Instant.digits? 2 (← Instant.byte? 45 text)
    let start := text.dropWhile fun b => b = 32 || b = 84
    let (hour, minute, second, behind) ← if start.isEmpty then some (0, 0, 0, []) else timeOfDay? start
    let zone := behind.dropWhile (· = 32)
    if !(zone.isEmpty || zone = "Z" || zone = "UTC" || zone = "GMT" || zone = "+00:00" || zone = "+0000") then none
    else
      let c : Civil := ⟨year, month, day, hour, minute, second, 0⟩
      if c.isValid then some (.ofCivil c) else none

/-- The names of the days of the week. -/
def dayNames : List String := ["Sunday", "Monday", "Tuesday", "Wednesday", "Thursday", "Friday", "Saturday"]

/-- The names of the months. -/
def monthNames : List String :=
  ["January", "February", "March", "April", "May", "June", "July", "August", "September", "October", "November",
    "December"]

/-- The day of the week, the first one being zero. -/
def weekday (t : Instant) : Nat := ((secondsOf t / 86400 + 4) % 7).toNat

/-- What a letter stands for. -/
def shown (t : Instant) (letter : UInt8) : Option Bytes :=
  let c := t.civil
  let two (n : Nat) : Bytes := Decimal.padded 2 n
  let blank (n : Nat) : Bytes := filled false false 2 (Decimal.ofNat n)
  let dayName : Bytes := dayNames.getD (weekday t) ""
  let monthName : Bytes := monthNames.getD (c.month - 1) ""
  let hour := if c.hour % 12 = 0 then 12 else c.hour % 12
  let half : Bytes := if c.hour < 12 then "AM" else "PM"
  let year := Civil.yearText c.year
  match Char.ofNat letter.toNat with
  | 'Y' => some year
  | 'y' => some (two (c.year % 100).toNat)
  | 'C' => some (two (c.year / 100).toNat)
  | 'm' => some (two c.month)
  | 'd' => some (two c.day)
  | 'e' => some (blank c.day)
  | 'H' => some (two c.hour)
  | 'k' => some (blank c.hour)
  | 'I' => some (two hour)
  | 'l' => some (blank hour)
  | 'M' => some (two c.minute)
  | 'S' => some (two c.second)
  | 'N' => some (Decimal.padded 9 c.nano)
  | 's' => some (Decimal.ofInt (secondsOf t))
  | 'p' => some half
  | 'P' => some (half.map (· + 32))
  | 'F' => some c.dateText
  | 'T' => some c.clockText
  | 'R' => some (two c.hour ++ [58] ++ two c.minute)
  | 'D' => some (two c.month ++ [47] ++ two c.day ++ [47] ++ two (c.year % 100).toNat)
  | 'x' => some (two c.month ++ [47] ++ two c.day ++ [47] ++ two (c.year % 100).toNat)
  | 'X' => some c.clockText
  | 'r' => some (two hour ++ c.clockText.drop 2 ++ [32] ++ half)
  | 'j' => some (Decimal.padded 3 (Civil.daysBeforeMonth c.year c.month + c.day))
  | 'a' => some (dayName.take 3)
  | 'A' => some dayName
  | 'b' => some (monthName.take 3)
  | 'h' => some (monthName.take 3)
  | 'B' => some monthName
  | 'u' => some (Decimal.ofNat (if weekday t = 0 then 7 else weekday t))
  | 'w' => some (Decimal.ofNat (weekday t))
  | 'c' => some (dayName.take 3 ++ [32] ++ monthName.take 3 ++ [32] ++ blank c.day ++ [32] ++ c.clockText ++ [32] ++ year)
  | 'Z' => some "UTC"
  | 'z' => some "+0000"
  | 'n' => some [10]
  | 't' => some [9]
  | '%' => some [37]
  | _ => none

/-- The text of a format about a moment, in at most so many steps. -/
def format (t : Instant) : Nat → Bytes → Bytes
  | 0, _ => []
  | _, [] => []
  | steps + 1, 37 :: rest =>
    let flag := rest.takeWhile fun b => b = 45 || b = 95 || b = 48 || b = 94 || b = 58
    match rest.drop flag.length with
    | letter :: more =>
      match shown t letter with
      | some text =>
        let isNumber := text.all fun b => Bytes.isDigit b || b = 32
        let bare := text.dropWhile fun b => b = 48 || b = 32
        let bare := if bare.isEmpty then text.drop (text.length - 1) else bare
        let text :=
          if flag.contains 45 && isNumber then bare
          else if flag.contains 95 && isNumber then filled false false text.length bare
          else if flag.contains 48 && isNumber then filled false true text.length bare
          else if flag.contains 94 then text.map fun b => if 97 ≤ b && b ≤ 122 then b - 32 else b
          else if flag.contains 58 && letter = 122 then "+00:00"
          else text
        text ++ format t steps more
      | none => [37] ++ flag ++ [letter] ++ format t steps more
    | [] => 37 :: flag
  | steps + 1, b :: rest => b :: format t steps rest

end Dates

namespace Programs

/-- A moment shown. -/
def date (args : List Bytes) : Act Nat :=
  let long := [("date", 'd'), ("utc", 'u'), ("universal", 'u'), ("iso-8601", 'I'), ("rfc-email", 'R'), ("reference", 'r'),
    ("set", 's')]
  let args := args.map fun (word : Bytes) =>
    if ("-I" : Bytes).isPrefixOf word && word.length > 2 then ("--iso-8601=" : Bytes) ++ word.drop 2 else word
  Act.withOptions "date" 1 ⟨"uIR", "drs", long, false⟩ args fun given => do
    let moment? := match given.value? 'd' with
      | some text => Dates.ofText? text
      | none => some Dates.epoch
    match moment?, given.operands with
    | none, _ =>
      Act.report ("date: invalid date " ++ inQuotes ((given.value? 'd').getD []))
      pure 1
    | some _, _ :: extra :: _ =>
      Act.report ("date: extra operand " ++ inQuotes extra)
      Act.report (helpHint "date")
      pure 1
    | some moment, operands =>
      let precision := (given.value? 'I').getD []
      let usual : Bytes :=
        if given.has 'R' then "%a, %d %b %Y %H:%M:%S %z"
        else if precision = "s" || precision = "seconds" then "%Y-%m-%dT%H:%M:%S%:z"
        else if given.has 'I' then "%Y-%m-%d"
        else "%a %b %e %H:%M:%S %Z %Y"
      match operands with
      | (43 :: format) :: _ =>
        Act.put (Dates.format moment (format.length + 1) format ++ [10])
        pure 0
      | other :: _ =>
        Act.report ("date: invalid date " ++ inQuotes other)
        pure 1
      | [] =>
        Act.put (Dates.format moment (usual.length + 1) usual ++ [10])
        pure 0

end Programs

end Shell

end MobilitySweep
