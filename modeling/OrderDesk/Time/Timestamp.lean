/-
# Reading timestamps

The texts that name an instant: a date, one of `T`, `t` or a space, a time of day, and the offset of the
local clock. Numbers may have fewer digits than usual, and white space may stand before a number, before
a separator, before the offset and at the end.
-/
import OrderDesk.Text.Digits
import OrderDesk.Time.Instant

namespace OrderDesk.Timestamp

/-! ## Characters -/

/-- The characters that count as white space in any script. -/
def isBlank (c : Char) : Bool :=
  let n := c.toNat
  (9 ≤ n && n ≤ 13) || n = 32 || n = 0x85 || n = 0xa0 || n = 0x1680 || (0x2000 ≤ n && n ≤ 0x200a) ||
    n = 0x2028 || n = 0x2029 || n = 0x202f || n = 0x205f || n = 0x3000

/-- A text without the white space in front. -/
def trim (cs : List Char) : List Char :=
  cs.dropWhile isBlank

/-! ## Pieces -/

/-- At least one and at most `most` digits at the start of a text, and the rest. -/
def digits? (most : Nat) (cs : List Char) : Option (List Char × List Char) :=
  let ds := (cs.take most).takeWhile Char.isDigit
  if ds = [] then none else some (ds, cs.drop ds.length)

/-- A number of at most `most` digits after any white space, and the rest. -/
def number? (most : Nat) (cs : List Char) : Option (Nat × List Char) := do
  let (ds, rest) ← digits? most (trim cs)
  return (Nat.ofDigitChars 10 ds 0, rest)

/-- The rest of a text that starts with a character. -/
def after? (c : Char) : List Char → Option (List Char)
  | d :: rest => if d = c then some rest else none
  | [] => none

/-- A year: at most four digits, or a sign and any number of digits. -/
def year? (cs : List Char) : Option (Int × List Char) :=
  match trim cs with
  | '-' :: rest => do
      let (ds, rest) ← digits? rest.length rest
      return (-(Nat.ofDigitChars 10 ds 0 : Int), rest)
  | '+' :: rest => do
      let (ds, rest) ← digits? rest.length rest
      return (Nat.ofDigitChars 10 ds 0, rest)
  | rest => do
      let (ds, rest) ← digits? 4 rest
      return (Nat.ofDigitChars 10 ds 0, rest)

/-- The fraction of a second in nanoseconds; digits after the ninth are dropped. -/
def fraction? (cs : List Char) : Option (Nat × List Char) :=
  match cs with
  | '.' :: rest => do
      let (ds, rest) ← digits? rest.length rest
      let kept := ds.take 9
      return (Nat.ofDigitChars 10 kept 0 * Digits.powTen (9 - kept.length), rest)
  | rest => some (0, rest)

/-- Exactly two digits at the start of a text, and the rest. -/
def twoDigits? (cs : List Char) : Option (Nat × List Char) :=
  match cs with
  | a :: b :: rest =>
      if a.isDigit ∧ b.isDigit then some (Nat.ofDigitChars 10 [a, b] 0, rest) else none
  | _ => none

/-- Hours and minutes after a sign, as minutes; colons and white space may stand between the two. -/
def clock? (cs : List Char) : Option (Nat × List Char) := do
  let (hours, rest) ← twoDigits? cs
  let (minutes, rest) ← twoDigits? (rest.dropWhile fun c => c = ':' || isBlank c)
  if hours < 24 ∧ minutes < 60 then some (hours * 60 + minutes, rest) else none

/-- The offset of the local clock in minutes: none for `Z` and `UTC` in either case. -/
def offset? (cs : List Char) : Option (Int × List Char) :=
  let cs := trim cs
  if (cs.take 3).map Char.toLower = ['u', 't', 'c'] then some (0, cs.drop 3)
  else
    match cs with
    | 'Z' :: rest => some (0, rest)
    | 'z' :: rest => some (0, rest)
    | '+' :: rest => do
        let (minutes, rest) ← clock? rest
        return (minutes, rest)
    | '-' :: rest => do
        let (minutes, rest) ← clock? rest
        return (-minutes, rest)
    | '\u2212' :: rest => do
        let (minutes, rest) ← clock? rest
        return (-minutes, rest)
    | _ => none

/-! ## The whole text -/

/-- A year, a month and a day with hyphens between them. -/
def date? (cs : List Char) : Option (Date × List Char) := do
  let (year, cs) ← year? cs
  let (month, cs) ← number? 2 (← after? '-' (trim cs))
  let (day, cs) ← number? 2 (← after? '-' (trim cs))
  return (← Date.of? year month day, cs)

/-- A time of day with colons between its numbers: the second of the day and the nanosecond. Second 60
is the leap second after second 59. -/
def time? (cs : List Char) : Option (Nat × Nat × List Char) := do
  let (hour, cs) ← number? 2 cs
  let (minute, cs) ← number? 2 (← after? ':' (trim cs))
  let (second, cs) ← number? 2 (← after? ':' (trim cs))
  let (nano, cs) ← fraction? cs
  if hour < 24 ∧ minute < 60 ∧ second ≤ 60 then
    if second = 60 then some (hour * 3600 + minute * 60 + 59, nano + 1000000000, cs)
    else some (hour * 3600 + minute * 60 + second, nano, cs)
  else none

/-- The rest of a text after the letter or space between date and time. -/
def separator? (cs : List Char) : Option (List Char) :=
  match cs with
  | c :: rest => if c = 'T' ∨ c = 't' ∨ c = ' ' then some rest else none
  | [] => none

end OrderDesk.Timestamp

namespace OrderDesk

/-- The instant that a text names. -/
def Instant.parse? (s : String) : Option Instant := do
  let (date, cs) ← Timestamp.date? s.toList
  let (second, nano, cs) ← Timestamp.time? (← Timestamp.separator? cs)
  let (ahead, cs) ← Timestamp.offset? cs
  if Timestamp.trim cs = [] then Instant.ofLocal? date second nano ahead else none

end OrderDesk
