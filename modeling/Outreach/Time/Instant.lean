import Outreach.Number.Numeral
import Outreach.Text.Blank
import Outreach.Text.Split
import Outreach.Time.Calendar

/-!
# Instants

An instant is a number of seconds since the beginning of 1970 and a number of nanoseconds. A leap
second counts as more than a thousand million nanoseconds of the second before it.

Instants are read and written as a date, a time of day and an offset. They are written with no
fraction or one of three, six or nine digits, the fewest that lose nothing.
-/

namespace Outreach

/-- A moment in time. -/
structure Instant where
  seconds : Int
  nanos : Nat
  deriving DecidableEq, Repr

namespace Instant

instance : Inhabited Instant := ⟨⟨0, 0⟩⟩

/-- The number of seconds in a day. -/
def secondsPerDay : Int := 86400

/-- The number of nanoseconds in a second. -/
def nanosPerSecond : Nat := 1000000000

/-- What follows the seconds: a point and as many digits as are needed, in groups of three. -/
def fraction (nanos : Nat) : List Char :=
  if nanos = 0 then []
  else if nanos % 1000000 = 0 then '.' :: Numeral.padded 3 (nanos / 1000000)
  else if nanos % 1000 = 0 then '.' :: Numeral.padded 6 (nanos / 1000)
  else '.' :: Numeral.padded 9 nanos

/-- A year: four digits, or a sign and at least four digits outside of them. -/
def yearText (year : Int) : List Char :=
  if 0 ≤ year ∧ year ≤ 9999 then Numeral.padded 4 year.toNat
  else (if year < 0 then '-' else '+') :: Numeral.padded 4 year.natAbs

/-- An instant with an offset of nothing written as `offset`. -/
def renderWith (offset : String) (t : Instant) : String :=
  let date := Date.ofDays (t.seconds / secondsPerDay)
  let timeOfDay := (t.seconds % secondsPerDay).toNat
  let leap := nanosPerSecond ≤ t.nanos
  let second := timeOfDay % 60 + (if leap then 1 else 0)
  let nanos := if leap then t.nanos - nanosPerSecond else t.nanos
  String.ofList
    (yearText date.year ++ '-' :: Numeral.padded 2 date.month ++ '-' :: Numeral.padded 2 date.day ++
      'T' :: Numeral.padded 2 (timeOfDay / 3600) ++ ':' :: Numeral.padded 2 (timeOfDay / 60 % 60) ++
      ':' :: Numeral.padded 2 second ++ fraction nanos ++ offset.toList)

/-- The usual form, with a `Z` for the offset. -/
def render (t : Instant) : String :=
  t.renderWith "Z"

/-- The form with the offset in figures. -/
def renderNumeric (t : Instant) : String :=
  t.renderWith "+00:00"

/-- The whole milliseconds from one instant to another, toward zero. A leap second counts where it
lies between the two times of day. -/
def millisecondsTo (start stop : Instant) : Int :=
  let startTime := start.seconds % secondsPerDay
  let stopTime := stop.seconds % secondsPerDay
  let adjust : Int :=
    if startTime < stopTime then (if nanosPerSecond ≤ start.nanos then 1 else 0)
    else if stopTime < startTime then (if nanosPerSecond ≤ stop.nanos then -1 else 0)
    else 0
  Int.tdiv ((stop.seconds - start.seconds + adjust) * nanosPerSecond + stop.nanos - start.nanos) 1000000

/-- The instant that lies a number of milliseconds later. -/
def later (t : Instant) (milliseconds : Nat) : Instant :=
  let nanos := t.nanos + milliseconds % 1000 * 1000000
  ⟨t.seconds + milliseconds / 1000 + nanos / nanosPerSecond, nanos % nanosPerSecond⟩

/-- The whole milliseconds since the beginning of 1970; none before it. -/
def milliseconds (t : Instant) : Nat :=
  (t.seconds * 1000 + t.nanos / 1000000).toNat

/-- The instant so many milliseconds after the beginning of 1970. -/
def ofMilliseconds (milliseconds : Nat) : Instant :=
  ⟨(milliseconds / 1000 : Nat), milliseconds % 1000 * 1000000⟩

/-- Whether one instant lies before another. -/
def before (s t : Instant) : Bool :=
  s.seconds < t.seconds || (s.seconds == t.seconds && s.nanos < t.nanos)

/-- Why a text is no instant. -/
inductive Fault where
  | tooShort
  | tooLong
  | invalid
  | outOfRange
  | impossible
  deriving DecidableEq, Repr

namespace Fault

/-- The text of a fault. -/
def message : Fault → String
  | tooShort => "premature end of input"
  | tooLong => "trailing input"
  | invalid => "input contains invalid characters"
  | outOfRange => "input is out of range"
  | impossible => "no possible date and time matching input"

end Fault

/-- A number of at least one and at most `width` digits; it has to fit into 63 bits. -/
def scanNumber (width : Nat) (cs : List Char) : Except Fault (Nat × List Char) :=
  let digits := (cs.take width).takeWhile Numeral.isDigit
  if cs.isEmpty then .error .tooShort
  else if digits.isEmpty then .error .invalid
  else
    let n := Numeral.read digits
    if Nat.pow 2 63 ≤ n then .error .outOfRange else .ok (n, cs.drop digits.length)

/-- A field of a date or time, white space in front of it allowed. -/
def scanField (least most : Nat) (cs : List Char) : Except Fault (Nat × List Char) := do
  let (n, rest) ← scanNumber 2 (Text.trimStart cs)
  if least ≤ n ∧ n ≤ most then .ok (n, rest) else .error .outOfRange

/-- A year: four digits, or a sign and any number of them. -/
def scanYear (cs : List Char) : Except Fault (Int × List Char) := do
  let (year, rest) : Int × List Char ← match Text.trimStart cs with
    | '-' :: cs => (scanNumber cs.length cs).map fun (n, rest) => (-(n : Int), rest)
    | '+' :: cs => (scanNumber cs.length cs).map fun (n, rest) => ((n : Int), rest)
    | cs => (scanNumber 4 cs).map fun (n, rest) => ((n : Int), rest)
  if -(Nat.pow 2 31) ≤ year ∧ year < Nat.pow 2 31 then .ok (year, rest) else .error .outOfRange

/-- A fixed character, white space in front of it allowed. -/
def scanMark (mark : Char) (cs : List Char) : Except Fault (Unit × List Char) :=
  match Text.trimStart cs with
  | [] => .error .tooShort
  | c :: rest => if c = mark then .ok ((), rest) else .error .invalid

/-- A fraction of a second in nanoseconds; digits beyond the ninth count for nothing. -/
def scanFraction : List Char → Except Fault (Nat × List Char)
  | '.' :: cs => do
    let digits := (cs.take 9).takeWhile Numeral.isDigit
    let (n, rest) ← scanNumber 9 cs
    .ok (n * Nat.pow 10 (9 - digits.length), rest.dropWhile Numeral.isDigit)
  | cs => .ok (0, cs)

/-- Two digits of an offset. -/
def scanPair : List Char → Except Fault (Nat × Nat × List Char)
  | a :: b :: rest =>
    if Numeral.isDigit a && Numeral.isDigit b then .ok (Numeral.valueOf a, Numeral.valueOf b, rest)
    else .error .invalid
  | _ => .error .tooShort

/-- The sign of an offset: whether it is a minus. -/
def scanSign : List Char → Except Fault (Bool × List Char)
  | [] => .error .tooShort
  | c :: rest =>
    if c = '+' then .ok (false, rest)
    else if c = '-' ∨ c = '\u2212' then .ok (true, rest)
    else .error .invalid

/-- An offset in seconds: `Z`, `UTC`, or a sign, hours and minutes. -/
def scanOffset (cs : List Char) : Except Fault (Int × List Char) :=
  if 3 ≤ cs.length ∧ (cs.take 3).map Text.lowerChar = ['u', 't', 'c'] then .ok (0, cs.drop 3)
  else match cs with
    | 'Z' :: rest | 'z' :: rest => .ok (0, rest)
    | cs => do
      let (negative, rest) ← scanSign cs
      let (h, h', rest) ← scanPair rest
      let (m, m', rest) ← scanPair (rest.dropWhile fun c => c = ':' || Text.isBlank c)
      if 6 ≤ m then .error .outOfRange
      else
        let seconds : Int := (10 * h + h') * 3600 + (10 * m + m') * 60
        .ok (if negative then -seconds else seconds, rest)

/-- The first and the last year that instants can lie in. -/
def years : Int × Int := (-262143, 262142)

/-- The instant of a date, a time of day and an offset. -/
def ofFields (date : Date) (hour minute second nanos : Nat) (offset : Int) : Except Fault Instant :=
  if !date.exists? || date.year < years.1 || years.2 < date.year then .error .outOfRange
  else if offset.natAbs ≥ 86400 then .error .outOfRange
  else
    let leap := second = 60
    let timeOfDay := hour * 3600 + minute * 60 + (if leap then 59 else second)
    let seconds := date.toDays * secondsPerDay + timeOfDay - offset
    let year := (Date.ofDays (seconds / secondsPerDay)).year
    if year < years.1 || years.2 < year then .error .impossible
    else .ok ⟨seconds, nanos + (if leap then nanosPerSecond else 0)⟩

/-- Reads an instant. Between date and time stands a `T` or a blank. -/
def read (text : String) : Except Fault Instant := do
  let (year, cs) ← scanYear text.toList
  let ((), cs) ← scanMark '-' cs
  let (month, cs) ← scanField 1 12 cs
  let ((), cs) ← scanMark '-' cs
  let (day, cs) ← scanField 1 31 cs
  let cs ← match cs with
    | [] => .error .tooShort
    | c :: rest => if c = 't' ∨ c = 'T' ∨ c = ' ' then .ok rest else .error .invalid
  let (hour, cs) ← scanField 0 23 cs
  let ((), cs) ← scanMark ':' cs
  let (minute, cs) ← scanField 0 59 cs
  let ((), cs) ← scanMark ':' cs
  let (second, cs) ← scanField 0 60 cs
  let (nanos, cs) ← scanFraction cs
  let (offset, cs) ← scanOffset (Text.trimStart cs)
  if cs.isEmpty then ofFields ⟨year, month, day⟩ hour minute second nanos offset
  else .error .tooLong

end Instant

end Outreach
