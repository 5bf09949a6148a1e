import Rollbook.Text.Number

/-!
# Rollbook — moments in time

A moment counts the seconds since the start of 1970 in universal time, with a fraction in
nanoseconds. Its text is the date of the proleptic Gregorian calendar and the time of day; a year
that does not fit four digits carries a sign.
-/

namespace Rollbook

/-- A moment: whole seconds since the start of 1970, and the nanoseconds after them. -/
structure Timestamp where
  seconds : Int
  nanos : Fin 1000000000
deriving DecidableEq, Repr, Inhabited

/-- A calendar date. -/
structure Date where
  year : Int
  month : Nat
  day : Nat
deriving DecidableEq, Repr

namespace Date

/-- The date of the day that lies `days` after the first of January 1970. The count is moved to the
first of March of the year 0, from where eras of 400 years have 146097 days each and the leap day
ends its year. -/
def ofDays (days : Int) : Date :=
  -- days since the first of March of the year 0, and the era they fall into
  let shifted := days + 719468
  let era := Int.fdiv shifted 146097
  let dayOfEra := (shifted - era * 146097).toNat
  -- the leap days before this one are taken out: one in 4 years, none in 100, one in 400
  let yearOfEra :=
    (dayOfEra - dayOfEra / 1460 + dayOfEra / 36524 - dayOfEra / 146096) / 365
  let dayOfYear := dayOfEra - (365 * yearOfEra + yearOfEra / 4 - yearOfEra / 100)
  -- from March on, every five months have 153 days
  let marchMonth := (5 * dayOfYear + 2) / 153
  let month := if marchMonth < 10 then marchMonth + 3 else marchMonth - 9
  { year := yearOfEra + era * 400 + (if month ≤ 2 then 1 else 0)
    month := month
    day := dayOfYear - (153 * marchMonth + 2) / 5 + 1 }

/-- A year of four digits, or of a sign and at least four. -/
def yearText (year : Int) : String :=
  if 0 ≤ year ∧ year ≤ 9999 then Text.padded 4 year.toNat
  else (if year < 0 then "-" else "+") ++ Text.padded 4 year.natAbs

/-- Year, month and day with dashes between them. -/
def text (d : Date) : String :=
  s!"{yearText d.year}-{Text.padded 2 d.month}-{Text.padded 2 d.day}"

end Date

namespace Timestamp

/-- The moment at which a second starts. -/
def ofSeconds (seconds : Int) : Timestamp := ⟨seconds, ⟨0, by decide⟩⟩

/-- The calendar date of the moment. -/
def date (t : Timestamp) : Date :=
  Date.ofDays (Int.fdiv t.seconds 86400)

/-- Hour, minute and second of the moment, with colons between them. -/
def clock (t : Timestamp) : String :=
  let second := (Int.fmod t.seconds 86400).toNat
  let hour := Text.padded 2 (second / 3600)
  let minute := Text.padded 2 (second / 60 % 60)
  s!"{hour}:{minute}:{Text.padded 2 (second % 60)}"

/-- The moment to the second, as rows are shown. -/
def display (t : Timestamp) : String :=
  s!"{t.date.text} {t.clock}"

/-- The fraction of a second with its point: nothing for a whole second, else the fewest of three,
six and nine digits that lose nothing. -/
def fraction (t : Timestamp) : String :=
  let n := t.nanos.val
  if n = 0 then ""
  else if n % 1000000 = 0 then "." ++ Text.padded 3 (n / 1000000)
  else if n % 1000 = 0 then "." ++ Text.padded 6 (n / 1000)
  else "." ++ Text.padded 9 n

/-- The exact moment in universal time. -/
def exact (t : Timestamp) : String :=
  s!"{t.date.text}T{t.clock}{t.fraction}Z"

/-- Earlier moments come first. -/
def compare (a b : Timestamp) : Ordering :=
  (Ord.compare a.seconds b.seconds).then (Ord.compare a.nanos.val b.nanos.val)

end Timestamp

end Rollbook
