/-
Dates and times of day.

The calendar decides which days a month has.  A date and a time of day may form one word,
joined by a letter or by a single blank; no other word holds a blank.
-/
import Screenwright.Number.Reading
import Screenwright.Text.Split

namespace Screenwright.Toml

/-- A number of exactly so many digits. -/
def fixedDigits? (count : Nat) (cs : List Char) : Option Nat :=
  if cs.length = count && cs.all Char.isDigit then some (Number.ofDigits 0 cs) else none

/-- The number of days of a month. -/
def daysIn (year month : Nat) : Nat :=
  if month = 2 then
    if year % 4 = 0 && (year % 100 ≠ 0 || year % 400 = 0) then 29 else 28
  else if [4, 6, 9, 11].contains month then 30
  else 31

/-- Whether the characters are a date. -/
def isDate (cs : List Char) : Bool :=
  match Text.segmentsOf '-' cs with
  | [year, month, day] =>
    match fixedDigits? 4 year, fixedDigits? 2 month, fixedDigits? 2 day with
    | some y, some m, some d => 1 ≤ m && m ≤ 12 && 1 ≤ d && d ≤ daysIn y m
    | _, _, _ => false
  | _ => false

/-- Whether the characters are an hour and a minute. -/
def isHourMinute (hour minute : List Char) : Bool :=
  (fixedDigits? 2 hour).any (· < 24) && (fixedDigits? 2 minute).any (· < 60)

/-- Whether the characters are a time of day. -/
def isTime (cs : List Char) : Bool :=
  match Text.segmentsOf ':' cs with
  | [hour, minute, second] =>
    let (whole, fits) := match Text.cutFirst '.' second with
      | some (whole, fraction) => (whole, !fraction.isEmpty && fraction.all Char.isDigit)
      | none => (second, true)
    isHourMinute hour minute && (fixedDigits? 2 whole).any (· ≤ 60) && fits
  | _ => false

/-- Whether the characters are a time of day, with or without a distance from world time. -/
def isZonedTime (cs : List Char) : Bool :=
  let isSign := fun c => c = '+' || c = '-' || c = 'Z' || c = 'z'
  let zone := cs.dropWhile (!isSign ·)
  let zoneFits := match zone with
    | [] => true
    | sign :: distance =>
      if sign = '+' || sign = '-' then
        match Text.segmentsOf ':' distance with
        | [hour, minute] => isHourMinute hour minute
        | _ => false
      else distance.isEmpty
  isTime (cs.takeWhile (!isSign ·)) && zoneFits

/-- Whether a character may stand between a date and a time. -/
def joinsTime (c : Char) : Bool :=
  c = 'T' || c = 't' || c = ' '

/-- Whether a word is a date, a time or both. -/
def isDateTime (cs : List Char) : Bool :=
  match cs.drop 10 with
  | [] => isDate cs || isTime cs
  | c :: time => isTime cs || (isDate (cs.take 10) && joinsTime c && isZonedTime time)

end Screenwright.Toml
