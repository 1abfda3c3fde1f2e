import Statline.Text.Blank

namespace Statline.Text

/-- Cuts the text behind its leading digits, of which there is one at least and `width` at most
where a width is given. -/
def number? (width : Option Nat) (text : List Char) : Option (Nat × List Char) :=
  let run := text.takeWhile Char.isDigit
  let digits := match width with
    | some most => run.take most
    | none => run
  if digits.isEmpty then none
  else
    some (digits.foldl (fun n c => 10 * n + (c.toNat - '0'.toNat)) 0, text.drop digits.length)

def literal? (expected : Char) : List Char → Option (List Char)
  | c :: rest => if c = expected then some rest else none
  | [] => none

/-- A number of one or two digits between two bounds, behind white space. -/
def field? (low high : Nat) (text : List Char) : Option (Nat × List Char) := do
  let (n, rest) ← number? (some 2) (dropSpaces text)
  if low ≤ n && n ≤ high then some (n, rest) else none

/-- A year of four digits, or of any number of digits behind a sign. -/
def year? (text : List Char) : Option (Int × List Char) :=
  match dropSpaces text with
  | '-' :: rest => (number? none rest).map fun (n, rest) => (-(n : Int), rest)
  | '+' :: rest => (number? none rest).map fun (n, rest) => ((n : Int), rest)
  | text => (number? (some 4) text).map fun (n, rest) => ((n : Int), rest)

def isLeap (year : Int) : Bool :=
  year % 4 = 0 && (year % 100 ≠ 0 || year % 400 = 0)

def daysIn (year : Int) (month : Nat) : Nat :=
  match month with
  | 2 => if isLeap year then 29 else 28
  | 4 | 6 | 9 | 11 => 30
  | _ => 31

structure Day where
  year : Int
  month : Nat
  day : Nat
deriving DecidableEq

/-- The first and the last day that a timestamp can have. -/
def firstDay : Day := ⟨-262143, 1, 1⟩

def lastDay : Day := ⟨262142, 12, 31⟩

/-- A day of the calendar, and the text behind it. -/
def date? (text : List Char) : Option (Day × List Char) := do
  let (year, rest) ← year? text
  let (month, rest) ← field? 1 12 (← literal? '-' (dropSpaces rest))
  let (day, rest) ← field? 1 31 (← literal? '-' (dropSpaces rest))
  if firstDay.year ≤ year && year ≤ lastDay.year && day ≤ daysIn year month then
    some (⟨year, month, day⟩, rest)
  else none

/-- The seconds of a time of day, which may have a fraction of a second. A leap second counts as
the second before it. -/
def time? (text : List Char) : Option (Nat × List Char) := do
  let (hours, rest) ← field? 0 23 text
  let (minutes, rest) ← field? 0 59 (← literal? ':' (dropSpaces rest))
  let (seconds, rest) ← field? 0 60 (← literal? ':' (dropSpaces rest))
  let total := 3600 * hours + 60 * minutes + min seconds 59
  match rest with
  | '.' :: fraction => (number? none fraction).map fun (_, rest) => (total, rest)
  | _ => some (total, rest)

def twoDigits? (tens units : Char) : Option Nat :=
  if tens.isDigit && units.isDigit then
    some (10 * (tens.toNat - '0'.toNat) + (units.toNat - '0'.toNat))
  else none

/-- Which way from universal time a sign leads: east or west of it. -/
def direction? (sign : Char) : Option Int :=
  match sign with
  | '+' => some 1
  | '-' | '−' => some (-1)
  | _ => none

/-- The distance from universal time in seconds: `Z`, `UTC` or a sign, hours and minutes. -/
def offset? (text : List Char) : Option (Int × List Char) :=
  match text with
  | 'Z' :: rest | 'z' :: rest => some (0, rest)
  | a :: b :: c :: rest =>
    if [a, b, c].map Char.toUpper = ['U', 'T', 'C'] then some (0, rest)
    else do
      let direction ← direction? a
      let hours ← twoDigits? b c
      match rest.dropWhile fun c => c = ':' || isSpace c with
      | tens :: units :: rest =>
        let minutes ← twoDigits? tens units
        if hours < 24 && minutes < 60 then
          some (direction * (3600 * hours + 60 * minutes), rest)
        else none
      | _ => none
  | _ => none

/-- Whether the seconds that count from the start of a day fall on a day that a timestamp can have:
they reach at most into the day before or the day after. -/
def isReached (day : Day) (seconds : Int) : Bool :=
  (0 ≤ seconds || day ≠ firstDay) && (seconds < 86400 || day ≠ lastDay)

/-- An instant in the manner of RFC 3339, with white space allowed between its parts. -/
def isTimestamp (text : String) : Bool :=
  let parsed : Option (List Char) := do
    match ← date? text.toList with
    | (day, separator :: rest) =>
      if separator = 'T' || separator = 't' || separator = ' ' then
        let (seconds, rest) ← time? rest
        let (offset, rest) ← offset? (dropSpaces rest)
        if isReached day (seconds - offset) then some rest else none
      else none
    | _ => none
  parsed.any fun rest => (dropSpaces rest).isEmpty

end Statline.Text
