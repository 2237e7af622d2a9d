/-
This file writes instants as calendar dates with the time of day.
-/

namespace Backfill.Time

/-- A day of the calendar. -/
structure Date where
  year : Int
  month : Nat
  day : Nat
deriving DecidableEq, Repr

/-- The days of four hundred years. -/
def eraDays : Nat := 146097

/-- The days from the first of March of the year zero to the first day of the year 1970. -/
def epochShift : Int := 719468

/-- The date of a day that is counted from the first day of the year 1970, by years that start in
March. -/
def dateOfDay (count : Int) : Date :=
  let shifted := count + epochShift
  let era := shifted.fdiv eraDays
  let day := (shifted.fmod eraDays).toNat
  let year := (day - day / 1460 + day / 36524 - day / 146096) / 365
  let dayOfYear := day - (365 * year + year / 4 - year / 100)
  let marchMonth := (5 * dayOfYear + 2) / 153
  let month := if marchMonth < 10 then marchMonth + 3 else marchMonth - 9
  { year := era * 400 + year + if month ≤ 2 then 1 else 0
    month
    day := dayOfYear - (153 * marchMonth + 2) / 5 + 1 }

/-- A number with zeros before it up to a width. -/
def padded (width value : Nat) : String :=
  let digits := Nat.toDigits 10 value
  String.ofList (List.replicate (width - digits.length) '0' ++ digits)

/-- The nanoseconds of a second. -/
def nanosPerSecond : Nat := 1000000000

/-- The seconds of a day. -/
def secondsPerDay : Nat := 86400

/-- The text of an instant that is counted in nanoseconds from the start of the year 1970, with
nine places for the fraction of its second. -/
def stampText (nanoseconds : Int) : String :=
  let seconds := nanoseconds.fdiv nanosPerSecond
  let fraction := (nanoseconds.fmod nanosPerSecond).toNat
  let date := dateOfDay (seconds.fdiv secondsPerDay)
  let second := (seconds.fmod secondsPerDay).toNat
  padded 4 date.year.toNat ++ "-" ++ padded 2 date.month ++ "-" ++ padded 2 date.day ++ "T" ++
    padded 2 (second / 3600) ++ ":" ++ padded 2 (second / 60 % 60) ++ ":" ++
    padded 2 (second % 60) ++ "." ++ padded 9 fraction ++ "Z"

example : dateOfDay 11016 = ⟨2000, 2, 29⟩ := by decide

example : stampText (-1) = "1969-12-31T23:59:59.999999999Z" := by rfl

end Backfill.Time
