import GenSubnet.Library.Rounding
import Mathlib.Order.Bounds.Basic

/-!
# Dates and times

Instants of the years 1 to 9999 by their microseconds, and durations. Arithmetic that leaves these
years, or a duration that is too long, raises.
-/

namespace GenSubnet.Library

/-- The microseconds of a day. -/
def dayLength : Int := 86400000000

/-- The days of the years 1 to 9999. -/
def calendarDays : Int := 3652059

@[ext] structure Date where
  day : Int
  valid : 0 ≤ day ∧ day < calendarDays
deriving DecidableEq

@[ext] structure TimeOfDay where
  micros : Int
  valid : 0 ≤ micros ∧ micros < dayLength
deriving DecidableEq

@[ext] structure Datetime where
  micros : Int
  valid : 0 ≤ micros ∧ micros < calendarDays * dayLength
deriving DecidableEq

instance : LE Datetime := ⟨fun x y => x.micros ≤ y.micros⟩

instance (x y : Datetime) : Decidable (x ≤ y) := inferInstanceAs (Decidable (x.micros ≤ y.micros))

instance : PartialOrder Datetime where
  le_refl x := Int.le_refl x.micros
  le_trans _ _ _ := Int.le_trans
  le_antisymm _ _ below above := Datetime.ext (Int.le_antisymm below above)

namespace Datetime

def date (x : Datetime) : Date where
  day := x.micros / dayLength
  valid := by
    have valid := x.valid
    unfold dayLength calendarDays at *
    omega

def time (x : Datetime) : TimeOfDay where
  micros := x.micros % dayLength
  valid := by
    unfold dayLength
    omega

/-- `datetime.combine` -/
def combine (d : Date) (t : TimeOfDay) : Datetime where
  micros := d.day * dayLength + t.micros
  valid := by
    have date := d.valid
    have time := t.valid
    unfold dayLength calendarDays at *
    omega

/-- The sum with a duration. -/
def add (x : Datetime) (delta : Int) : Option Datetime :=
  if valid : 0 ≤ x.micros + delta ∧ x.micros + delta < calendarDays * dayLength then
    some ⟨x.micros + delta, valid⟩
  else none

theorem le_iff {x y : Datetime} : x ≤ y ↔ x.micros ≤ y.micros := Iff.rfl

theorem add_eq_some {x y : Datetime} {delta : Int} :
    x.add delta = some y ↔ y.micros = x.micros + delta := by
  unfold add
  split
  · rename_i valid
    rw [Option.some_inj, Datetime.ext_iff]
    exact eq_comm
  · rename_i invalid
    constructor
    · simp
    · intro same
      exact absurd (same ▸ y.valid) invalid

theorem add_eq_none {x : Datetime} {delta : Int} :
    x.add delta = none ↔ x.micros + delta < 0 ∨ calendarDays * dayLength ≤ x.micros + delta := by
  unfold add
  split
  · rename_i valid
    simp only [reduceCtorEq, false_iff]
    omega
  · rename_i invalid
    simp only [true_iff]
    omega

@[simp] theorem date_combine (d : Date) (t : TimeOfDay) : (combine d t).date = d := by
  apply Date.ext
  have time := t.valid
  simp only [date, combine, dayLength] at *
  omega

@[simp] theorem time_combine (d : Date) (t : TimeOfDay) : (combine d t).time = t := by
  apply TimeOfDay.ext
  have bounds := t.valid
  simp only [time, combine, dayLength] at *
  omega

theorem combine_date_time (x : Datetime) : combine x.date x.time = x := by
  apply Datetime.ext
  simp only [combine, date, time, dayLength]
  omega

theorem micros_eq (x : Datetime) : x.micros = x.date.day * dayLength + x.time.micros :=
  congrArg micros (combine_date_time x).symm

theorem le_iff_of_time_eq {x y : Datetime} (same : x.time = y.time) :
    x ≤ y ↔ x.date.day ≤ y.date.day := by
  rw [le_iff, micros_eq x, micros_eq y, same]
  unfold dayLength
  omega

theorem time_of_add_days {x y : Datetime} {days : Int}
    (later : y.micros = x.micros + days * dayLength) : y.time = x.time := by
  apply TimeOfDay.ext
  simp only [time, dayLength] at *
  omega

theorem date_of_add_days {x y : Datetime} {days : Int}
    (later : y.micros = x.micros + days * dayLength) : y.date.day = x.date.day + days := by
  simp only [date, dayLength] at *
  omega

end Datetime

/-! ## Durations -/

open Rounding

/-- `timedelta(hours=...)` of a float, as the microseconds that it has after rounding. -/
def timedeltaHours (hours : Rat) : Option Int :=
  let whole := truncate hours
  let micros := halfEven (whole * 3600000000 + nearest (3600000000 * (hours - whole)))
  if -999999999 * dayLength ≤ micros ∧ micros < 1000000000 * dayLength then some micros else none

/-- `timedelta.total_seconds` -/
def totalSeconds (delta : Int) : Rat := nearest (delta / 1000000)

end GenSubnet.Library
