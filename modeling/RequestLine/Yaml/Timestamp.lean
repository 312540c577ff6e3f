import RequestLine.Number.Style

/-!
# Timestamps

Dates, and dates with a time of day.

* `Timestamp.ofText?`: the timestamp that a text has the form of.
* `Timestamp.isPlain`: whether the text is a timestamp without a tag.
* `Timestamp.isValid`: whether there is such a day and such a time.
* `Timestamp.same`: whether two timestamps are one.
* `Timestamp.text`, `Timestamp.constructorText`: the timestamp alone, and inside a list or a map.
-/

namespace RequestLine.Yaml

/-- A time of day. The offset from UTC is in minutes. -/
structure TimeOfDay where
  hour : Nat
  minute : Nat
  second : Nat
  microsecond : Nat
  offset : Option Int
  deriving DecidableEq

/-- A day, and perhaps a time on it. -/
structure Timestamp where
  year : Nat
  month : Nat
  day : Nat
  time : Option TimeOfDay
  deriving DecidableEq

namespace Timestamp

/-! ## Reading -/

/-- A number of `least` to `most` digits at the start of the text. -/
def takeNumber? (least most : Nat) (t : Text) : Option (Nat × Text) :=
  let digits := (t.takeWhile CodePoint.isDigit).take most
  if least ≤ digits.length then some (digitsValue digits, t.drop digits.length) else none

/-- The text after a given code point. -/
def after? (c : Char) (t : Text) : Option Text :=
  match t with
  | [] => none
  | x :: r => if x = c then some r else none

/-- The text after spaces and tabs. -/
def skipBlanks (t : Text) : Text := t.dropWhile (fun c => c.val == 0x20 || c.val == 0x09)

/-- The text after what separates a date from a time. -/
def afterDate? (t : Text) : Option Text :=
  match (after? 'T' t).or (after? 't' t) with
  | some r => some r
  | none =>
    let r := skipBlanks t
    if r.length < t.length then some r else none

/-- The microseconds that a fraction writes, and the text after it. -/
def takeFraction (t : Text) : Nat × Text :=
  match after? '.' t with
  | none => (0, t)
  | some r =>
    let digits := r.takeWhile CodePoint.isDigit
    let six := digits.take 6
    (digitsValue (six ++ Text.replicate (6 - six.length) '0'), r.drop digits.length)

/-- The offset that ends a timestamp. -/
def zone? (t : Text) : Option (Option Int) :=
  if t.isEmpty then some none
  else
    match skipBlanks t with
    | [] => none
    | c :: r =>
      if c = 'Z' then if r.isEmpty then some (some 0) else none
      else if c = '+' ∨ c = '-' then do
        let (hours, r) ← takeNumber? 1 2 r
        let minutes ←
          if r.isEmpty then some 0
          else do
            let (m, r) ← takeNumber? 2 2 (← after? ':' r)
            if r.isEmpty then some m else none
        let total : Int := hours * 60 + minutes
        some (some (if c = '-' then -total else total))
      else none

/-- The time of day that a text has the form of. -/
def timeOfText? (t : Text) : Option TimeOfDay := do
  let (hour, t) ← takeNumber? 1 2 t
  let (minute, t) ← takeNumber? 2 2 (← after? ':' t)
  let (second, t) ← takeNumber? 2 2 (← after? ':' t)
  let (microsecond, t) := takeFraction t
  some ⟨hour, minute, second, microsecond, ← zone? t⟩

/-- The timestamp that a text has the form of. -/
def ofText? (t : Text) : Option Timestamp := do
  let (year, r) ← takeNumber? 4 4 t
  let (month, r) ← takeNumber? 1 2 (← after? '-' r)
  let (day, r) ← takeNumber? 1 2 (← after? '-' r)
  if r.isEmpty then some ⟨year, month, day, none⟩
  else some ⟨year, month, day, some (← timeOfText? (← afterDate? r))⟩

/-- Whether the text is a timestamp without a tag: a date alone needs two digits for month and
day. -/
def isPlain (t : Text) : Bool :=
  match ofText? t with
  | some s => s.time.isSome || t.length == 10
  | none => false

/-! ## Validity -/

def daysIn (year month : Nat) : Nat :=
  if month = 2 then
    if year % 4 = 0 ∧ (year % 100 ≠ 0 ∨ year % 400 = 0) then 29 else 28
  else if month = 4 ∨ month = 6 ∨ month = 9 ∨ month = 11 then 30
  else 31

/-- Whether there is such a time; offsets stay below a day. -/
def isValidTime (t : TimeOfDay) : Bool :=
  t.hour < 24 && t.minute < 60 && t.second < 60 &&
    t.offset.all (fun minutes => minutes.natAbs < 1440)

/-- Whether there is such a day and such a time. -/
def isValid (t : Timestamp) : Bool :=
  1 ≤ t.year && 1 ≤ t.month && t.month ≤ 12 && 1 ≤ t.day && t.day ≤ daysIn t.year t.month &&
    t.time.all isValidTime

/-! ## Comparison -/

/-- The days before a month in its year. -/
def daysBefore (year month : Nat) : Nat :=
  (List.range (month - 1)).foldl (fun n m => n + daysIn year (m + 1)) 0

/-- The days from the start of the calendar. -/
def dayNumber (t : Timestamp) : Nat :=
  let y := t.year - 1
  365 * y + y / 4 - y / 100 + y / 400 + daysBefore t.year t.month + t.day

/-- The microseconds from the start of the calendar at the offset zero to a time with an offset. -/
def instant (t : Timestamp) (time : TimeOfDay) (offset : Int) : Int :=
  let minutes : Int := (t.dayNumber * 24 + time.hour) * 60 + time.minute - offset
  (minutes * 60 + time.second) * 1000000 + time.microsecond

/-- Whether two timestamps are one. Times with offsets are compared as instants. -/
def same (s t : Timestamp) : Bool :=
  match s.time, t.time with
  | some x, some y =>
    match x.offset, y.offset with
    | some a, some b => s.instant x a = t.instant y b
    | _, _ => s = t
  | _, _ => s = t

/-! ## Writing -/

/-- A number with at least `width` digits. -/
def padded (width n : Nat) : Text := NumberStyle.pad width (decimalDigits n)

/-- An offset as a sign, hours and minutes. -/
def offsetText (minutes : Int) : Text :=
  Text.ofString (if minutes < 0 then "-" else "+") ++ padded 2 (minutes.natAbs / 60) ++ ":" ++
    padded 2 (minutes.natAbs % 60)

def timeText (t : TimeOfDay) : Text :=
  let fraction : Text := if t.microsecond = 0 then [] else "." ++ padded 6 t.microsecond
  padded 2 t.hour ++ ":" ++ padded 2 t.minute ++ ":" ++ padded 2 t.second ++ fraction ++
    (t.offset.map offsetText).getD []

def text (t : Timestamp) : Text :=
  padded 4 t.year ++ "-" ++ padded 2 t.month ++ "-" ++ padded 2 t.day ++
    match t.time with
    | none => []
    | some time => " " ++ timeText time

/-- An offset inside a list or a map. -/
def zoneText (minutes : Int) : Text :=
  if minutes = 0 then "datetime.timezone.utc"
  else
    let inDay : Text :=
      if minutes < 0 then "days=-1, seconds=" ++ integerText ((minutes + 1440) * 60)
      else "seconds=" ++ integerText (minutes * 60)
    "datetime.timezone(datetime.timedelta(" ++ inDay ++ "))"

/-- The text of a timestamp inside a list or a map. Seconds and microseconds are left out while they
and all after them are zero. -/
def constructorText (t : Timestamp) : Text :=
  let date := [t.year, t.month, t.day].map decimalDigits
  match t.time with
  | none => "datetime.date(" ++ Text.joinWith ", " date ++ ")"
  | some time =>
    let clock := [time.hour, time.minute] ++
      (if time.second = 0 ∧ time.microsecond = 0 then [] else [time.second]) ++
      (if time.microsecond = 0 then [] else [time.microsecond])
    let zone := match time.offset with
      | none => []
      | some minutes => [Text.ofString "tzinfo=" ++ zoneText minutes]
    "datetime.datetime(" ++ Text.joinWith ", " (date ++ clock.map decimalDigits ++ zone) ++ ")"

end Timestamp

end RequestLine.Yaml
