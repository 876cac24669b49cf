import BoundSql.Text.Numeral
import BoundSql.Text.Split

/-!
# Dates, times of day, offsets and durations

Calendar values hold their parts; each has an ISO 8601 text. `Clock` is a time of day with an
optional offset from universal time. A `Duration` is a number of days plus a part of a day, so only
the days can be negative; `Duration.text` reads like a clock and `Duration.iso` is the ISO form.
-/

namespace BoundSql

open Text

/-- A day of the calendar. -/
structure Date where
  year : Nat
  month : Nat
  day : Nat
deriving DecidableEq

/-- Days and a part of a day; `seconds` stay below a day and `micros` below a second. -/
structure Duration where
  days : Int
  seconds : Nat
  micros : Nat
deriving DecidableEq

/-- A time of day; the offset from universal time is counted in microseconds. -/
structure Clock where
  hour : Nat
  minute : Nat
  second : Nat
  micros : Nat
  offset : Option Int
deriving DecidableEq

/-- Microseconds after the point, if there are any. -/
def microsText (micros : Nat) : String :=
  if micros = 0 then "" else "." ++ padded 6 micros

/-- `YYYY-MM-DD`. -/
def Date.iso (d : Date) : String :=
  padded 4 d.year ++ "-" ++ padded 2 d.month ++ "-" ++ padded 2 d.day

/-- The days of a common year before a month. -/
def daysBefore (month : Nat) : Nat :=
  ([31, 28, 31, 30, 31, 30, 31, 31, 30, 31, 30, 31].take (month - 1)).foldr (· + ·) 0

/-- Whether a year has a day more than a common one. -/
def isLeapYear (year : Nat) : Bool := year % 4 == 0 && (year % 100 != 0 || year % 400 == 0)

/-- The number of a day, counted from the first day of the year one. -/
def Date.dayNumber (d : Date) : Int :=
  let past := d.year - 1
  365 * past + past / 4 - past / 100 + past / 400 + daysBefore d.month +
    (if isLeapYear d.year && 2 < d.month then 1 else 0) + d.day

namespace Duration

/-- The duration of a whole number of microseconds. -/
def ofMicros (total : Int) : Duration :=
  let day : Int := 86400000000
  let rest := (total % day).toNat
  ⟨total / day, rest / 1000000, rest % 1000000⟩

/-- The whole duration in microseconds. -/
def totalMicros (d : Duration) : Int :=
  d.days * 86400000000 + d.seconds * 1000000 + d.micros

/-- Days, if any, then hours, minutes and seconds as on a clock. -/
def text (d : Duration) : String :=
  let days :=
    if d.days = 0 then ""
    else toString d.days ++ (if d.days.natAbs = 1 then " day, " else " days, ")
  days ++ toString (d.seconds / 3600) ++ ":" ++ padded 2 (d.seconds / 60 % 60) ++ ":" ++
    padded 2 (d.seconds % 60) ++ microsText d.micros

/-- A number with its unit, left out when zero. -/
private def part (n : Nat) (unit : String) : String := if n = 0 then "" else toString n ++ unit

/-- Seconds with the decimals they need. -/
private def secondsPart (seconds micros : Nat) : String :=
  if seconds = 0 ∧ micros = 0 then ""
  else
    let decimals := ((padded 6 micros).toList.reverse.dropWhile (· = '0')).reverse
    toString seconds ++ (if micros = 0 then "" else "." ++ String.ofList decimals) ++ "S"

/-- The ISO 8601 duration, a year being 365 days; the sign stands in front of the whole. -/
def iso (d : Duration) : String :=
  let total := d.totalMicros
  let size := total.natAbs
  let days := size / 86400000000
  let seconds := size / 1000000 % 86400
  let micros := size % 1000000
  let clock :=
    part (seconds / 3600) "H" ++ part (seconds / 60 % 60) "M" ++ secondsPart (seconds % 60) micros
  let body :=
    if size = 0 then "T0S"
    else part (days / 365) "Y" ++ part (days % 365) "D" ++
      (if clock.isEmpty then "" else "T" ++ clock)
  (if total < 0 then "-P" else "P") ++ body

end Duration

namespace Clock

/-- `+HH:MM`, with seconds and microseconds when they are not zero. -/
def offsetText (offset : Int) : String :=
  let size := offset.natAbs
  let seconds := size / 1000000
  let micros := size % 1000000
  (if offset < 0 then "-" else "+") ++ padded 2 (seconds / 3600) ++ ":" ++
    padded 2 (seconds / 60 % 60) ++
    (if seconds % 60 = 0 ∧ micros = 0 then ""
     else ":" ++ padded 2 (seconds % 60) ++ microsText micros)

/-- `HH:MM:SS` with microseconds if there are any, without the offset. -/
def localIso (t : Clock) : String :=
  padded 2 t.hour ++ ":" ++ padded 2 t.minute ++ ":" ++ padded 2 t.second ++ microsText t.micros

/-- The ISO text with the offset written out. -/
def iso (t : Clock) : String :=
  t.localIso ++ (t.offset.map offsetText).getD ""

/-- An offset in whole seconds, the nearest ones. -/
def offsetSeconds (offset : Int) : Int :=
  let size : Int := (offset.natAbs + 500000) / 1000000
  if offset < 0 then -size else size

/-- `Z` for an offset of zero, else `+HH:MM`. -/
def zuluText (offset : Int) : String :=
  let seconds := offsetSeconds offset
  if seconds = 0 then "Z"
  else
    let size := seconds.natAbs
    (if seconds < 0 then "-" else "+") ++ padded 2 (size / 3600) ++ ":" ++ padded 2 (size / 60 % 60)

/-- The ISO text with `Z` for an offset of zero and no seconds in other offsets. -/
def zuluIso (t : Clock) : String :=
  t.localIso ++ (t.offset.map zuluText).getD ""

/-- The microseconds since midnight. -/
def dayMicros (t : Clock) : Int :=
  (((t.hour * 60 + t.minute) * 60 + t.second) * 1000000 + t.micros : Nat)

/-- Whether times on numbered days are the same moment: without offsets they have to read the same,
with offsets they are compared as universal time, and one of each kind cannot be compared. -/
def sameMoment (a b : Int × Clock) : Bool :=
  let micros (x : Int × Clock) (offset : Int) : Int := x.1 * 86400000000 + x.2.dayMicros - offset
  match a.2.offset, b.2.offset with
  | some o, some o' => micros a o == micros b o'
  | none, none => micros a 0 == micros b 0
  | _, _ => false

end Clock

/-! ### Reading -/

/-- A number made of digits only. -/
private def wholeNumber? (cs : List Char) : Option Nat :=
  match takeDigits cs with
  | (d :: ds, []) => some (ofDigits (d :: ds))
  | _ => none

/-- Reads `YYYY-MM-DD`. -/
def Date.ofIso? (cs : List Char) : Option Date :=
  match splitBy (· = '-') cs with
  | [y, m, d] => match wholeNumber? y, wholeNumber? m, wholeNumber? d with
    | some y, some m, some d => some ⟨y, m, d⟩
    | _, _, _ => none
  | _ => none

/-- Reads digits after a point as microseconds; more than six digits count for nothing. -/
private def micros? (cs : List Char) : Option Nat :=
  if cs.isEmpty || (wholeNumber? cs).isNone then none
  else wholeNumber? (cs.take 6 ++ List.replicate (6 - cs.length) '0')

/-- Reads seconds with or without decimals, as whole seconds and microseconds. -/
private def seconds? (cs : List Char) : Option (Nat × Nat) :=
  match splitBy (· = '.') cs with
  | [s] => (wholeNumber? s).map (·, 0)
  | [s, f] => match wholeNumber? s, micros? f with
    | some s, some f => some (s, f)
    | _, _ => none
  | _ => none

/-- Reads `HH:MM` with or without seconds, as hours, minutes, seconds and microseconds. -/
private def clockParts? (cs : List Char) : Option (Nat × Nat × Nat × Nat) :=
  match splitBy (· = ':') cs with
  | [h, m] => match wholeNumber? h, wholeNumber? m with
    | some h, some m => some (h, m, 0, 0)
    | _, _ => none
  | [h, m, s] => match wholeNumber? h, wholeNumber? m, seconds? s with
    | some h, some m, some (s, f) => some (h, m, s, f)
    | _, _, _ => none
  | _ => none

/-- Reads an ISO time of day with or without offset. -/
def Clock.ofIso? (cs : List Char) : Option Clock :=
  let (body, zone) := cs.span fun c => c ≠ '+' ∧ c ≠ '-' ∧ c ≠ 'Z'
  match clockParts? body, zone with
  | some (h, m, s, f), [] => some ⟨h, m, s, f, none⟩
  | some (h, m, s, f), ['Z'] => some ⟨h, m, s, f, some 0⟩
  | some (h, m, s, f), sign :: rest => (clockParts? rest).map fun (oh, om, os, of) =>
      let size : Int := ((oh * 60 + om) * 60 + os) * 1000000 + of
      ⟨h, m, s, f, some (if sign = '-' then -size else size)⟩
  | none, _ => none

/-- Reads a date and a time of day with any character between them; a date alone starts at
midnight. -/
def momentOfIso? (cs : List Char) : Option (Date × Clock) :=
  let clock := match cs.drop 10 with
    | [] => some ⟨0, 0, 0, 0, none⟩
    | _ :: rest => Clock.ofIso? rest
  match Date.ofIso? (cs.take 10), clock with
  | some d, some t => some (d, t)
  | _, _ => none

end BoundSql
