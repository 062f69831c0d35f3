import Heredoc.Text.Integer

/-!
# Dates and times in TOML

A date, a time, or both with an optional offset, as TOML writes them. Each is checked against the
calendar and the clock, and can be written in full.
-/

namespace Heredoc.Toml

/-- A day of the calendar. -/
structure Date where
  year : Nat
  month : Nat
  day : Nat
deriving DecidableEq, Repr

/-- A time of day. The seconds may be left out, and then so is their fraction, which counts
nanoseconds. -/
structure Time where
  hour : Nat
  minute : Nat
  second : Option Nat
  fraction : Option Nat
deriving DecidableEq, Repr

/-- How far a clock is from universal time, in minutes. -/
inductive Offset where
  | universal
  | minutes (count : Int)
deriving DecidableEq, Repr

/-- A date, a time, or a date with a time and an optional offset. -/
inductive Moment where
  | date (day : Date)
  | time (clock : Time)
  | both (day : Date) (clock : Time) (offset : Option Offset)
deriving DecidableEq, Repr

/-! ## Reading -/

/-- Whether a year has a 29th of February. -/
def isLeapYear (year : Nat) : Bool :=
  year % 4 == 0 && (year % 100 != 0 || year % 400 == 0)

/-- The number of days in a month. -/
def daysIn (year month : Nat) : Nat :=
  if month = 2 then (if isLeapYear year then 29 else 28)
  else if [4, 6, 9, 11].contains month then 30
  else 31

/-- Whether the day is on the calendar. -/
def Date.isValid (date : Date) : Bool :=
  1 ≤ date.month && date.month ≤ 12 && 1 ≤ date.day && date.day ≤ daysIn date.year date.month

/-- Whether the time is on the clock; a minute may have a leap second. -/
def Time.isValid (time : Time) : Bool :=
  time.hour ≤ 23 && time.minute ≤ 59 && time.second.all (· ≤ 60)

/-- Reads a number of so many digits. -/
def readField (length : Nat) (cs : List Char) : Option (Nat × List Char) :=
  let digits := cs.takeWhile Char.isDigit
  if digits.length = length then
    (Text.readNatural? digits).map fun n => (n, cs.drop length)
  else none

/-- Removes a mark from the front. -/
def expect (mark : Char) : List Char → Option (List Char)
  | [] => none
  | c :: rest => if c = mark then some rest else none

/-- Reads a date. -/
def readDate (cs : List Char) : Option (Date × List Char) := do
  let (year, rest) ← readField 4 cs
  let (month, rest) ← readField 2 (← expect '-' rest)
  let (day, rest) ← readField 2 (← expect '-' rest)
  let date : Date := ⟨year, month, day⟩
  if date.isValid then some (date, rest) else none

/-- The nanoseconds that digits after the point stand for; more than nine digits do not count. -/
def nanoseconds (digits : List Char) : Nat :=
  ((digits ++ List.replicate 9 '0').take 9).foldl
    (fun n c => n * 10 + (c.toNat - '0'.toNat)) 0

/-- Reads the fraction of a second, if there is one. -/
def readFraction : List Char → Option (Option Nat × List Char)
  | '.' :: rest =>
      let digits := rest.takeWhile Char.isDigit
      if digits.isEmpty then none
      else some (some (nanoseconds digits), rest.dropWhile Char.isDigit)
  | cs => some (none, cs)

/-- Reads the seconds and their fraction, if they are there. -/
def readSeconds : List Char → Option (Option Nat × Option Nat × List Char)
  | ':' :: rest => do
      let (second, rest) ← readField 2 rest
      let (fraction, rest) ← readFraction rest
      some (some second, fraction, rest)
  | cs => some (none, none, cs)

/-- Reads a time of day. -/
def readTime (cs : List Char) : Option (Time × List Char) := do
  let (hour, rest) ← readField 2 cs
  let (minute, rest) ← readField 2 (← expect ':' rest)
  let (second, fraction, rest) ← readSeconds rest
  let time : Time := ⟨hour, minute, second, fraction⟩
  if time.isValid then some (time, rest) else none

/-- Reads an offset of hours and minutes. -/
def readHours (cs : List Char) : Option Int := do
  let (hours, rest) ← readField 2 cs
  let (minutes, rest) ← readField 2 (← expect ':' rest)
  if hours ≤ 23 ∧ minutes ≤ 59 ∧ rest.isEmpty then some (hours * 60 + minutes : Nat) else none

/-- Reads the offset at the end, if there is one. -/
def readOffset : List Char → Option (Option Offset)
  | [] => some none
  | ['Z'] => some (some .universal)
  | ['z'] => some (some .universal)
  | '+' :: rest => (readHours rest).map fun count => some (.minutes count)
  | '-' :: rest => (readHours rest).map fun count => some (.minutes (-count))
  | _ => none

/-- Reads a date or a time that is the whole text. -/
def Moment.read? (cs : List Char) : Option Moment :=
  match readDate cs with
  | none =>
      match readTime cs with
      | some (clock, []) => some (.time clock)
      | _ => none
  | some (day, []) => some (.date day)
  | some (day, mark :: rest) =>
      if [' ', 'T', 't'].contains mark then do
        let (clock, rest) ← readTime rest
        let offset ← readOffset rest
        some (.both day clock offset)
      else none

/-! ## Writing -/

/-- A number with zeros in front up to a width. -/
def padded (width n : Nat) : String :=
  let digits := Nat.toDigits 10 n
  String.ofList (List.replicate (width - digits.length) '0' ++ digits)

/-- A date as text. -/
def Date.text (date : Date) : String :=
  padded 4 date.year ++ "-" ++ padded 2 date.month ++ "-" ++ padded 2 date.day

/-- Nanoseconds as digits after a point, without zeros at the end. -/
def fractionText (fraction : Nat) : String :=
  let digits := ((padded 9 fraction).toList.reverse.dropWhile (· = '0')).reverse
  "." ++ if digits.isEmpty then "0" else String.ofList digits

/-- A time as text. -/
def Time.text (time : Time) : String :=
  padded 2 time.hour ++ ":" ++ padded 2 time.minute ++
    (time.second.map fun second => ":" ++ padded 2 second).getD "" ++
    (time.fraction.map fractionText).getD ""

/-- An offset as text. -/
def Offset.text : Offset → String
  | .universal => "Z"
  | .minutes count =>
      (if count < 0 then "-" else "+") ++ padded 2 (count.natAbs / 60) ++ ":" ++
        padded 2 (count.natAbs % 60)

/-- A moment as text. -/
def Moment.text : Moment → String
  | .date day => day.text
  | .time clock => clock.text
  | .both day clock offset =>
      day.text ++ "T" ++ clock.text ++ (offset.map Offset.text).getD ""

end Heredoc.Toml
