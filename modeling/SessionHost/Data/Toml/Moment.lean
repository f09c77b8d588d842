import SessionHost.Text.Digits

/-!
# Dates and times in TOML

A day, a time of day, or both with or without an offset from universal time. A second may be the
sixtieth. Days are days of the calendar, leap years included.
-/
namespace SessionHost.Toml

def fixed? (n : Nat) (cs : List Char) : Option (Nat × List Char) :=
  let ds := cs.take n
  if ds.length == n && ds.all Char.isDigit then
    some (Text.natOfDigits ds, cs.drop n)
  else none

def daysOfMonth (year month : Nat) : Nat :=
  if month == 2 then
    if year % 4 == 0 && (year % 100 != 0 || year % 400 == 0) then 29 else 28
  else if month == 4 || month == 6 || month == 9 || month == 11 then 30
  else 31

def pass? (c : Char) : List Char → Option (List Char)
  | d :: rest => if c == d then some rest else none
  | [] => none

def day? (cs : List Char) : Option (List Char) := do
  let (year, cs) ← fixed? 4 cs
  let cs ← pass? '-' cs
  let (month, cs) ← fixed? 2 cs
  let cs ← pass? '-' cs
  let (day, cs) ← fixed? 2 cs
  if 1 ≤ month ∧ month ≤ 12 ∧ 1 ≤ day ∧ day ≤ daysOfMonth year month then some cs else none

/-- Passes the fraction of a second, if one is written. -/
def secondsFraction? : List Char → Option (List Char)
  | '.' :: rest =>
    if (rest.takeWhile Char.isDigit).isEmpty then none else some (rest.dropWhile Char.isDigit)
  | cs => some cs

def time? (cs : List Char) : Option (List Char) := do
  let (hour, cs) ← fixed? 2 cs
  let cs ← pass? ':' cs
  let (minute, cs) ← fixed? 2 cs
  let cs ← pass? ':' cs
  let (second, cs) ← fixed? 2 cs
  let cs ← secondsFraction? cs
  if hour ≤ 23 ∧ minute ≤ 59 ∧ second ≤ 60 then some cs else none

/-- Passes an offset from universal time, if one is written. -/
def offset? : List Char → Option (List Char)
  | [] => some []
  | c :: rest =>
    if c == 'Z' || c == 'z' then some rest
    else if c == '+' || c == '-' then do
      let (hour, cs) ← fixed? 2 rest
      let cs ← pass? ':' cs
      let (minute, cs) ← fixed? 2 cs
      if hour ≤ 23 ∧ minute ≤ 59 then some cs else none
    else some (c :: rest)

/-- The rest behind a date or a time, if the text starts with one. A blank may stand between a day
and a time, so a blank is passed only if a time follows it. -/
def moment? (cs : List Char) : Option (List Char) :=
  match day? cs with
  | none => time? cs
  | some [] => some []
  | some (c :: rest) =>
    if c == 'T' || c == 't' then (time? rest).bind offset?
    else if c == ' ' && (rest.head?.map Char.isDigit).getD false then (time? rest).bind offset?
    else some (c :: rest)

/-- Whether a text can only be meant as a date or a time. -/
def looksLikeMoment (cs : List Char) : Bool :=
  ((fixed? 4 cs).bind fun r => pass? '-' r.2).isSome
    || ((fixed? 2 cs).bind fun r => pass? ':' r.2).isSome

end SessionHost.Toml
