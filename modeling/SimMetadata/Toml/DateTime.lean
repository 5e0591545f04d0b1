import SimMetadata.Text.Layout

/-!
# Dates and times

TOML has four kinds of date-time: a date, a time of day, both, or both with an offset from
universal time. `DateTime` keeps what is written, and `DateTime.text` writes it in one way.

## Main definitions

* `DateTime`, `DateTime.text`: the value and its text.
* `DateTime.scan?`: the date-time at the beginning of some characters, and what follows it.
* `DateTime.isValid`: whether its day exists.
* `DateTime.ofText?`: the valid date-time that a text spells.

## Implementation notes

A document may hold a date whose day is not in its month, up to the thirty-first; such a date
cannot be used as a value. Seconds run up to sixty, because of leap seconds, and at most nine
digits of a fraction count; further ones are dropped.
-/

namespace SimMetadata.Toml

/-- A day of the calendar. -/
structure Date where
  year : Nat
  month : Nat
  day : Nat
  deriving DecidableEq, Inhabited, Repr

/-- A time of day. -/
structure Time where
  hour : Nat
  minute : Nat
  second : Nat
  nanosecond : Nat
  deriving DecidableEq, Inhabited, Repr

/-- How local time differs from universal time. -/
inductive Offset where
  /-- Not at all, written as a letter. -/
  | universal
  /-- By so many minutes. -/
  | minutes (n : Int)
  deriving DecidableEq, Inhabited, Repr

/-- A date, a time of day, or both, perhaps with an offset. -/
structure DateTime where
  date : Option Date
  time : Option Time
  offset : Option Offset
  deriving DecidableEq, Inhabited, Repr

/-- The number in decimal with zeros in front up to a width. -/
def zeroPadded (width n : Nat) : String := Text.padLeft '0' width (toString n)

/-- The day as year, month and day. -/
def Date.text (d : Date) : String :=
  zeroPadded 4 d.year ++ "-" ++ zeroPadded 2 d.month ++ "-" ++ zeroPadded 2 d.day

/-- The time as hour, minute and second, with a fraction unless it is zero. -/
def Time.text (t : Time) : String :=
  zeroPadded 2 t.hour ++ ":" ++ zeroPadded 2 t.minute ++ ":" ++ zeroPadded 2 t.second
    ++ if t.nanosecond = 0 then ""
      else
        let digits := (zeroPadded 9 t.nanosecond).toList
        "." ++ String.ofList (digits.reverse.dropWhile (· = '0')).reverse

/-- The offset as a letter, or as a sign, hours and minutes. -/
def Offset.text : Offset → String
  | universal => "Z"
  | minutes n =>
    (if n < 0 then "-" else "+") ++ zeroPadded 2 (n.natAbs / 60) ++ ":"
      ++ zeroPadded 2 (n.natAbs % 60)

/-- The date-time as text. -/
def DateTime.text (d : DateTime) : String :=
  (d.date.map Date.text).getD ""
    ++ (if d.date.isSome ∧ d.time.isSome then "T" else "")
    ++ (d.time.map Time.text).getD "" ++ (d.offset.map Offset.text).getD ""

/-! ### The calendar -/

/-- The number of days of a month. -/
def daysInMonth (year month : Nat) : Nat :=
  if month = 2 then
    if year % 4 = 0 ∧ (year % 100 ≠ 0 ∨ year % 400 = 0) then 29 else 28
  else if month ∈ [4, 6, 9, 11] then 30
  else 31

/-- Whether the day, if there is one, exists in its month. -/
def DateTime.isValid (d : DateTime) : Bool :=
  d.date.all fun date => decide (date.day ≤ daysInMonth date.year date.month)

/-! ### Reading -/

/-- The value of two digits. -/
def twoDigits? (a b : Char) : Option Nat :=
  if a.isDigit && b.isDigit then
    some (10 * (a.toNat - '0'.toNat) + (b.toNat - '0'.toNat))
  else none

/-- The date at the beginning, whether or not its month has that day, and what follows it. -/
def Date.scan? : List Char → Option (Date × List Char)
  | y₁ :: y₂ :: y₃ :: y₄ :: '-' :: m₁ :: m₂ :: '-' :: d₁ :: d₂ :: rest => do
    let year := 100 * (← twoDigits? y₁ y₂) + (← twoDigits? y₃ y₄)
    let month ← twoDigits? m₁ m₂
    let day ← twoDigits? d₁ d₂
    guard (1 ≤ month ∧ month ≤ 12 ∧ 1 ≤ day ∧ day ≤ 31)
    return (⟨year, month, day⟩, rest)
  | _ => none

/-- The fraction of a second at the beginning, in nanoseconds, and what follows it. A dot without
a digit after it is no fraction. -/
def scanFraction : List Char → Nat × List Char
  | '.' :: rest =>
    match rest.takeWhile Char.isDigit with
    | [] => (0, '.' :: rest)
    | digits =>
      let kept := digits.take 9
      (((String.ofList (kept ++ List.replicate (9 - kept.length) '0')).toNat?).getD 0,
        rest.dropWhile Char.isDigit)
  | rest => (0, rest)

/-- The time of day at the beginning, and what follows it. -/
def Time.scan? : List Char → Option (Time × List Char)
  | h₁ :: h₂ :: ':' :: m₁ :: m₂ :: ':' :: s₁ :: s₂ :: rest => do
    let hour ← twoDigits? h₁ h₂
    let minute ← twoDigits? m₁ m₂
    let second ← twoDigits? s₁ s₂
    guard (hour ≤ 23 ∧ minute ≤ 59 ∧ second ≤ 60)
    let (nanosecond, rest) := scanFraction rest
    return (⟨hour, minute, second, nanosecond⟩, rest)
  | _ => none

/-- The offset at the beginning, if there is one, and what follows it. -/
def Offset.scan (cs : List Char) : Option Offset × List Char :=
  match cs with
  | 'Z' :: rest | 'z' :: rest => (some universal, rest)
  | sign :: h₁ :: h₂ :: ':' :: m₁ :: m₂ :: rest =>
    match twoDigits? h₁ h₂, twoDigits? m₁ m₂ with
    | some hour, some minute =>
      if (sign = '+' ∨ sign = '-') ∧ hour ≤ 23 ∧ minute ≤ 59 then
        let n : Int := 60 * hour + minute
        (some (minutes (if sign = '-' then -n else n)), rest)
      else (none, cs)
    | _, _ => (none, cs)
  | _ => (none, cs)

/-- The date-time at the beginning, and what follows it. -/
def DateTime.scan? (cs : List Char) : Option (DateTime × List Char) :=
  match Date.scan? cs with
  | none => (Time.scan? cs).map fun (t, rest) => (⟨none, some t, none⟩, rest)
  | some (d, rest) =>
    match rest with
    | c :: more =>
      match if c = 'T' ∨ c = 't' ∨ c = ' ' then Time.scan? more else none with
      | none => some (⟨some d, none, none⟩, rest)
      | some (t, rest) =>
        let (offset, rest) := Offset.scan rest
        some (⟨some d, some t, offset⟩, rest)
    | [] => some (⟨some d, none, none⟩, [])

/-- The valid date-time that a text spells. -/
def DateTime.ofText? (s : String) : Option DateTime :=
  match DateTime.scan? s.toList with
  | some (d, []) => if d.isValid then some d else none
  | _ => none

/-! ### Instances -/

example : (DateTime.scan? "2023-02-30".toList).isSome := by decide +kernel
example : DateTime.ofText? "2023-02-30" = none := by decide +kernel
example : (DateTime.ofText? "2000-02-29t07:32:00z").map DateTime.text
    = some "2000-02-29T07:32:00Z" := by decide +kernel

end SimMetadata.Toml
