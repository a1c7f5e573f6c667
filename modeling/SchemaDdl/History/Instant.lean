import SchemaDdl.Text.Segment

/-!
# Instants

Moments of universal time as dates and times of day. Three forms are read: the strict one of data
files, and two looser ones that databases print, with and without an offset. A time with an offset
is moved to universal time, by less than a day.
-/

namespace SchemaDdl

/-! ## Dates -/

/-- A date of the Gregorian calendar; the year before year one is zero. -/
structure Date where
  year : Int
  month : Nat
  day : Nat
deriving DecidableEq, Repr

namespace Date

def isLeapYear (year : Int) : Bool :=
  year % 4 == 0 && (year % 100 != 0 || year % 400 == 0)

def daysInMonth (year : Int) (month : Nat) : Nat :=
  if month = 2 then (if isLeapYear year then 29 else 28)
  else if month = 4 || month = 6 || month = 9 || month = 11 then 30
  else 31

def firstYear : Int := -262143

def lastYear : Int := 262142

def isValid (date : Date) : Bool :=
  firstYear ≤ date.year && date.year ≤ lastYear
    && 1 ≤ date.month && date.month ≤ 12
    && 1 ≤ date.day && date.day ≤ daysInMonth date.year date.month

def next (date : Date) : Date :=
  if date.day < daysInMonth date.year date.month then { date with day := date.day + 1 }
  else if date.month < 12 then { date with month := date.month + 1, day := 1 }
  else ⟨date.year + 1, 1, 1⟩

def previous (date : Date) : Date :=
  if 1 < date.day then { date with day := date.day - 1 }
  else if 1 < date.month then
    ⟨date.year, date.month - 1, daysInMonth date.year (date.month - 1)⟩
  else
    ⟨date.year - 1, 12, 31⟩

end Date

/-! ## Instants -/

/-- A moment of universal time. The second 60 stands for a leap second. -/
structure Instant where
  date : Date
  hour : Nat
  minute : Nat
  second : Nat
  nanosecond : Nat := 0
deriving DecidableEq, Repr

namespace Instant

def isValid (instant : Instant) : Bool :=
  instant.date.isValid && instant.hour < 24 && instant.minute < 60 && instant.second ≤ 60
    && instant.nanosecond < Nat.pow 10 9

def minutesEarlier (instant : Instant) (minutes : Int) : Instant :=
  let total : Int := (60 * instant.hour + instant.minute : Nat) - minutes
  let place (date : Date) (minuteOfDay : Int) : Instant :=
    { instant with
      date, hour := minuteOfDay.toNat / 60, minute := minuteOfDay.toNat % 60 }
  if total < 0 then place instant.date.previous (total + 1440)
  else if 1440 ≤ total then place instant.date.next (total - 1440)
  else place instant.date total

/-- The instant of a local time with an offset in minutes, when both exist. -/
def ofLocal? (localTime : Instant) (offset : Int) : Option Instant :=
  let instant := localTime.minutesEarlier offset
  if localTime.isValid && instant.isValid then some instant else none

end Instant

/-! ## Reading -/

namespace Instant

open Text

def digitsValue (digits : List Char) : Nat :=
  digits.foldl (fun value digit => 10 * value + (digit.toNat - '0'.toNat)) 0

/-- A number of some to several digits, as many as there are, and what follows it. -/
def readNumber (least most : Nat) (text : List Char) : Option (Nat × List Char) :=
  let digits := (text.take most).takeWhile Char.isDigit
  if digits.length < least then none
  else some (digitsValue digits, text.drop digits.length)

def skip? (char : Char) : List Char → Option (List Char)
  | [] => none
  | first :: rest => if first = char then some rest else none

def readSign : List Char → Option (Int × List Char)
  | '+' :: rest => some (1, rest)
  | '-' :: rest | '\u2212' :: rest => some (-1, rest)
  | _ => none

/-- An offset in minutes, with two digits for its hours and two for its minutes. What separates them
is skipped by `separator`. An offset stays below a day. -/
def readOffset (separator : List Char → Option (List Char)) (text : List Char) :
    Option (Int × List Char) := do
  let (sign, text) ← readSign text
  let (hours, text) ← readNumber 2 2 text
  let text ← separator text
  let (minutes, text) ← readNumber 2 2 text
  if hours < 24 && minutes < 60 then
    some (sign * (60 * hours + minutes : Nat), text)
  else
    none

/-- The digits after a decimal point as nanoseconds; those after the ninth do not count. -/
def readNanoseconds (text : List Char) : Option (Nat × List Char) :=
  let digits := text.takeWhile Char.isDigit
  let counted := digits.take 9
  if digits.isEmpty then none
  else some (digitsValue counted * Nat.pow 10 (9 - counted.length), text.drop digits.length)

def readFraction : List Char → Option (Nat × List Char)
  | '.' :: text => readNanoseconds text
  | text => some (0, text)

/-- The offset of the strict form: a letter for universal time, or hours and minutes. -/
def readStrictOffset : List Char → Option (Int × List Char)
  | 'Z' :: text | 'z' :: text => some (0, text)
  | text => readOffset (skip? ':') text

/-- The strict form: every field has all its digits, a letter or a blank stands between date and
time, seconds may have a fraction, and the offset comes at once. -/
def ofStrictText? (text : List Char) : Option Instant := do
  let (year, text) ← readNumber 4 4 text
  let (month, text) ← (skip? '-' text).bind (readNumber 2 2)
  let (day, text) ← (skip? '-' text).bind (readNumber 2 2)
  let text ← (skip? 'T' text).or ((skip? 't' text).or (skip? ' ' text))
  let (hour, text) ← readNumber 2 2 text
  let (minute, text) ← (skip? ':' text).bind (readNumber 2 2)
  let (second, text) ← (skip? ':' text).bind (readNumber 2 2)
  let (nanosecond, text) ← readFraction text
  let (offset, text) ← readStrictOffset text
  if text.isEmpty then
    ofLocal? { date := ⟨year, month, day⟩, hour, minute, second, nanosecond } offset
  else
    none

/-- A year of the looser forms: four digits at most, or any number of them after a sign. -/
def readYear (text : List Char) : Option (Int × List Char) :=
  match trimStart text with
  | '-' :: text => (readNumber 1 text.length text).map fun (year, rest) => (-(year : Int), rest)
  | '+' :: text => (readNumber 1 text.length text).map fun (year, rest) => ((year : Int), rest)
  | text => (readNumber 1 4 text).map fun (year, rest) => ((year : Int), rest)

def readField (text : List Char) : Option (Nat × List Char) :=
  readNumber 1 2 (trimStart text)

/-- The local time of the looser forms, and what follows it. Blanks may stand before every field. -/
def readLooseTime (text : List Char) : Option (Instant × List Char) := do
  let (year, text) ← readYear text
  let (month, text) ← (skip? '-' text).bind readField
  let (day, text) ← (skip? '-' text).bind readField
  let (hour, text) ← readField text
  let (minute, text) ← (skip? ':' text).bind readField
  let (second, text) ← (skip? ':' text).bind readField
  return ({ date := ⟨year, month, day⟩, hour, minute, second }, text)

def skipSeparators (text : List Char) : List Char :=
  text.dropWhile fun char => char == ':' || isBlank char

def ofOffsetText? (text : List Char) : Option Instant := do
  let (localTime, text) ← readLooseTime text
  let (offset, text) ← readOffset (fun text => some (skipSeparators text)) (trimStart text)
  if text.isEmpty then ofLocal? localTime offset else none

def ofPlainText? (text : List Char) : Option Instant := do
  let (localTime, text) ← readLooseTime text
  if text.isEmpty then ofLocal? localTime 0 else none

/-- The instant of a text in one of the three forms. -/
def ofText? (text : String) : Option Instant :=
  let text := text.toList
  (ofStrictText? text).or ((ofOffsetText? text).or (ofPlainText? text))

end Instant

/-! ## Writing -/

namespace Instant

def padded (width number : Nat) : List Char :=
  let digits := Nat.toDigits 10 number
  List.replicate (width - digits.length) '0' ++ digits

/-- A year in four digits, with a sign and all its digits when it is not one of ten thousand. -/
def yearText (year : Int) : List Char :=
  if 0 ≤ year ∧ year ≤ 9999 then padded 4 year.toNat
  else (if year < 0 then '-' else '+') :: padded 4 year.natAbs

def dateText (date : Date) : List Char :=
  yearText date.year ++ ['-'] ++ padded 2 date.month ++ ['-'] ++ padded 2 date.day

/-- The time of day in whole seconds. -/
def timeText (instant : Instant) : List Char :=
  padded 2 instant.hour ++ [':'] ++ padded 2 instant.minute ++ [':'] ++ padded 2 instant.second

def fractionText (nanosecond : Nat) : List Char :=
  if nanosecond = 0 then []
  else if nanosecond % Nat.pow 10 6 = 0 then '.' :: padded 3 (nanosecond / Nat.pow 10 6)
  else if nanosecond % Nat.pow 10 3 = 0 then '.' :: padded 6 (nanosecond / Nat.pow 10 3)
  else '.' :: padded 9 nanosecond

/-- The strict form, for data files. -/
def text (instant : Instant) : String :=
  String.ofList (dateText instant.date ++ ['T'] ++ instant.timeText
    ++ fractionText instant.nanosecond ++ ['Z'])

def plainText (instant : Instant) : String :=
  String.ofList (dateText instant.date ++ [' '] ++ instant.timeText)

def offsetText (instant : Instant) : String :=
  instant.plainText ++ "+00:00"

end Instant

end SchemaDdl
