import RecordSchema.Number.Integer

/-!
# Timestamps

A timestamp is a civil date and time with an offset from universal time. Scalars of documents are
read in four forms: a date, a date and a time separated by blanks, and a date and a time separated
by `T` or `t` with an offset. Every form is written back with `T` and an offset.
-/

namespace RecordSchema

open Text

/-- A civil date and time with an offset in seconds. -/
structure Timestamp where
  year : Nat
  month : Nat
  day : Nat
  hour : Nat := 0
  minute : Nat := 0
  second : Nat := 0
  nano : Nat := 0
  offset : Int := 0
  deriving DecidableEq, Repr

namespace Timestamp

def isLeap (year : Nat) : Bool := year % 4 == 0 && (year % 100 != 0 || year % 400 == 0)

def daysIn (year month : Nat) : Nat :=
  if month = 2 then if isLeap year then 29 else 28
  else if month = 4 ∨ month = 6 ∨ month = 9 ∨ month = 11 then 30
  else 31

private def digit? (b : UInt8) : Option Nat :=
  if 48 ≤ b ∧ b ≤ 57 then some (b.toNat - 48) else none

/-- One or two digits at the front of a text. -/
def short? : Text → Option (Nat × Text)
  | a :: rest => do
    let x ← digit? a
    match rest with
    | b :: more =>
      match digit? b with
      | some y => some (x * 10 + y, more)
      | none => some (x, rest)
    | [] => some (x, rest)
  | [] => none

/-- A short number below `bound` at the front of a text. -/
def below? (bound : Nat) (t : Text) : Option (Nat × Text) := do
  let (n, rest) ← short? t
  if n < bound then some (n, rest) else none

private def expect? (b : UInt8) : Text → Option Text
  | c :: rest => if c = b then some rest else none
  | [] => none

/-- Four digits of a year, a month and a day that exists, with `-` between them. -/
def date? (t : Text) : Option (Timestamp × Text) :=
  match t with
  | a :: b :: c :: d :: rest => do
    let year := (((← digit? a) * 10 + (← digit? b)) * 10 + (← digit? c)) * 10 + (← digit? d)
    let rest ← expect? 45 rest
    let (month, rest) ← below? 13 rest
    let rest ← expect? 45 rest
    let (day, rest) ← short? rest
    if 1 ≤ month ∧ 1 ≤ day ∧ day ≤ daysIn year month then
      some (⟨year, month, day, 0, 0, 0, 0, 0⟩, rest)
    else none
  | _ => none

/-- The nanoseconds that the digits of a fraction stand for; digits after the ninth are dropped. -/
def nanos (digits : Text) : Nat :=
  (digits ++ replicate 9 48).take 9 |>.foldl (fun n b => n * 10 + (b.toNat - 48)) 0

/-- A fraction of a second, after a point or a comma, if there is one. -/
def fraction (t : Text) : Nat × Text :=
  match t with
  | p :: d :: rest =>
    if (p = 46 ∨ p = 44) ∧ (digit? d).isSome then
      let isDigit := fun b => (digit? b).isSome
      (nanos ((d :: rest).takeWhile isDigit), (d :: rest).dropWhile isDigit)
    else (0, t)
  | _ => (0, t)

/-- Hours, minutes, seconds and a fraction. -/
def clock? (t : Text) : Option (Nat × Nat × Nat × Nat × Text) := do
  let (hour, rest) ← below? 24 t
  let rest ← expect? 58 rest
  let (minute, rest) ← below? 60 rest
  let rest ← expect? 58 rest
  let (second, rest) ← below? 60 rest
  let (nano, rest) := fraction rest
  some (hour, minute, second, nano, rest)

/-- An offset to the end of a text: `Z`, or a sign with hours and minutes of two digits. -/
def offset? (t : Text) : Option Int :=
  match t with
  | [90] => some 0
  | [s, h1, h2, 58, m1, m2] => do
    let hours := (← digit? h1) * 10 + (← digit? h2)
    let minutes := (← digit? m1) * 10 + (← digit? m2)
    if 24 < hours ∨ 60 < minutes then none
    else
      let seconds : Int := ((hours * 60 + minutes) * 60 : Nat)
      if s = 43 then some seconds else if s = 45 then some (-seconds) else none
  | _ => none

/-- The timestamp that a whole text stands for. -/
def parse? (t : Text) : Option Timestamp := do
  let (date, rest) ← date? t
  match rest with
  | [] => some date
  | sep :: more =>
    if sep = 84 ∨ sep = 116 then do
      let (hour, minute, second, nano, rest) ← clock? more
      let offset ← offset? rest
      some { date with hour, minute, second, nano, offset }
    else if sep = 32 then do
      let (hour, minute, second, nano, rest) ← clock? (more.dropWhile (· == 32))
      if rest = [] then some { date with hour, minute, second, nano } else none
    else none

private def padded (places n : Nat) : Text :=
  let digits := ofNat n
  replicate (places - digits.length) 48 ++ digits

/-- A fraction of a second without zeros at its end. -/
def renderFraction (nano : Nat) : Text :=
  if nano = 0 then []
  else "." ++ ((padded 9 nano).reverse.dropWhile (· == 48)).reverse

def renderOffset (offset : Int) : Text :=
  if offset = 0 then "Z"
  else
    let minutes := offset.natAbs / 60
    (if offset < 0 then "-" else "+") ++ padded 2 (minutes / 60) ++ ":" ++ padded 2 (minutes % 60)

/-- The written form, with `T` and an offset. -/
def render (t : Timestamp) : Text :=
  padded 4 t.year ++ "-" ++ padded 2 t.month ++ "-" ++ padded 2 t.day ++ "T" ++
    padded 2 t.hour ++ ":" ++ padded 2 t.minute ++ ":" ++ padded 2 t.second ++
    renderFraction t.nano ++ renderOffset t.offset

/-- Whether a time is the first instant of the year one in universal time. -/
def isZero (t : Timestamp) : Bool :=
  let seconds : Int := (t.hour * 60 + t.minute) * 60 + t.second
  t.nano == 0 &&
    ((t.year == 1 && t.month == 1 && t.day == 1 && seconds == t.offset) ||
      (t.year == 0 && t.month == 12 && t.day == 31 && seconds - 86400 == t.offset))

/-- The number of a day of the civil calendar, counted from the first of March of the year zero. -/
def dayNumber (year month day : Nat) : Int :=
  let y : Int := if month ≤ 2 then (year : Int) - 1 else year
  let m : Nat := if month ≤ 2 then month + 9 else month - 3
  y * 365 + y.fdiv 4 - y.fdiv 100 + y.fdiv 400 + ((m * 153 + 2) / 5 : Nat) + (day : Int) - 1

/-- The seconds of universal time up to a time, without its fraction. -/
def seconds (t : Timestamp) : Int :=
  dayNumber t.year t.month t.day * 86400 + ((t.hour * 60 + t.minute) * 60 + t.second : Nat) -
    t.offset

/-- Whether two times with the offset are in the same zone. That holds for whole hours, from 12
behind universal time to 14 ahead; any other offset is a zone of its own each time that it is
read. -/
def zoneIsShared (t : Timestamp) : Bool :=
  t.offset % 3600 == 0 && decide (-12 * 3600 ≤ t.offset) && decide (t.offset ≤ 14 * 3600)

/-- Whether the hours of the offset have the two digits of a clock. -/
def offsetIsStrict (t : Timestamp) : Bool := decide (t.offset.natAbs / 3600 < 24)

/-- The universal date of a day counted from the first of January 1970. -/
def ofDays (days : Int) : Timestamp :=
  let z := days + 719468
  let era := z.fdiv 146097
  let doe := (z - era * 146097).toNat
  let yoe := (doe - doe / 1460 + doe / 36524 - doe / 146096) / 365
  let doy := doe - (365 * yoe + yoe / 4 - yoe / 100)
  let mp := (5 * doy + 2) / 153
  let day := doy - (153 * mp + 2) / 5 + 1
  let month := if mp < 10 then mp + 3 else mp - 9
  let year := (yoe : Int) + era * 400 + (if month ≤ 2 then 1 else 0)
  ⟨year.toNat, month, day, 0, 0, 0, 0, 0⟩

/-- The universal time of a number of nanoseconds from the first of January 1970. -/
def ofUnixNano (n : Int) : Timestamp :=
  let seconds := n.fdiv 1000000000
  let nano := (n - seconds * 1000000000).toNat
  let days := seconds.fdiv 86400
  let s := (seconds - days * 86400).toNat
  { ofDays days with hour := s / 3600, minute := s / 60 % 60, second := s % 60, nano }

example : parse? (ofString "2001-12-14t21:59:43.10-05:00") =
    some ⟨2001, 12, 14, 21, 59, 43, 100000000, -18000⟩ := by decide
example : render ⟨2001, 12, 14, 21, 59, 43, 100000000, -18000⟩ =
    ofString "2001-12-14T21:59:43.1-05:00" := by decide
example : parse? (ofString "2001-02-29") = none := by decide

end Timestamp

end RecordSchema
