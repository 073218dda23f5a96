import Letterpress.Decimal.Number
import Letterpress.Text.Blank

/-! Calendar dates. A date is written as year, month and day in digits, between them hyphens or slashes.
    The year has up to four digits, or a sign and any number of them; month and day have up to two. Blanks
    may stand before each number. -/

namespace Letterpress
namespace Calendar

/-- The year has a twenty-ninth of February. -/
def isLeap (year : Int) : Bool :=
  year % 4 == 0 && (year % 100 != 0 || year % 400 == 0)

/-- The number of days of a month. -/
def monthLength (year : Int) (month : Nat) : Nat :=
  match month with
  | 2 => if isLeap year then 29 else 28
  | 4 | 6 | 9 | 11 => 30
  | _ => 31

/-- The names of the months. -/
def monthNames : List String :=
  ["January", "February", "March", "April", "May", "June", "July", "August", "September", "October",
    "November", "December"]

/-- A day of the Gregorian calendar, extended to all years from -262143 to 262142. -/
structure Date where
  year : Int
  month : Nat
  day : Nat
  year_range : -262143 ≤ year ∧ year ≤ 262142
  month_range : 1 ≤ month ∧ month ≤ 12
  day_range : 1 ≤ day ∧ day ≤ monthLength year month

/-- The date with this year, month and day, if there is one. -/
def Date.ofNumbers? (year : Int) (month day : Nat) : Option Date :=
  if hy : -262143 ≤ year ∧ year ≤ 262142 then
    if hm : 1 ≤ month ∧ month ≤ 12 then
      if hd : 1 ≤ day ∧ day ≤ monthLength year month then some ⟨year, month, day, hy, hm, hd⟩
      else none
    else none
  else none

/-- The name of the month of a date. -/
def Date.monthName (d : Date) : String :=
  monthNames.getD (d.month - 1) ""

/-- The longest run of digits, but at most so many of them, and what follows it. -/
def takeDigits : Nat → List Char → List Char × List Char
  | 0, cs => ([], cs)
  | _, [] => ([], [])
  | most + 1, c :: cs =>
    if c.isDigit then
      let (digits, rest) := takeDigits most cs
      (c :: digits, rest)
    else ([], c :: cs)

/-- A number of at least one digit and at most so many, and what follows it. -/
def number? (most : Nat) (cs : List Char) : Option (Nat × List Char) :=
  match takeDigits most cs with
  | ([], _) => none
  | (digits, rest) => some (Decimal.ofDigits digits, rest)

/-- A year behind blanks, and what follows it. -/
def year? (cs : List Char) : Option (Int × List Char) :=
  match cs.dropWhile Text.isBlank with
  | '-' :: rest => (number? rest.length rest).map fun (n, rest) => (-(n : Int), rest)
  | '+' :: rest => (number? rest.length rest).map fun (n, rest) => ((n : Int), rest)
  | rest => (number? 4 rest).map fun (n, rest) => ((n : Int), rest)

/-- A separator, then a number of one or two digits behind blanks, and what follows it. -/
def part? (separator : Char) : List Char → Option (Nat × List Char)
  | c :: cs => if c = separator then number? 2 (cs.dropWhile Text.isBlank) else none
  | [] => none

/-- The date that the text writes with this separator. -/
def Date.readWith? (separator : Char) (text : String) : Option Date := do
  let (year, rest) ← year? text.toList
  let (month, rest) ← part? separator rest
  let (day, rest) ← part? separator rest
  if rest.isEmpty then Date.ofNumbers? year month day else none

/-- The date that the text writes. -/
def Date.read? (text : String) : Option Date :=
  Date.readWith? '-' text <|> Date.readWith? '/' text

end Calendar
end Letterpress
