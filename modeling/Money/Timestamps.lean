import Money.Library.Calendar
import Money.Library.Fields

/-! `isoformat` of a UTC instant, as `backtest/lean.py` and `backtest/lean_algorithm.py` write the times of the bars. An
    instant is in microseconds, and the text is given by its code points, by which Python compares strings. -/

namespace Money
open Calendar Fields

/-- `YYYY-MM`. -/
def isoMonth (month : Int) : List ℕ :=
  digits 4 ((month + 2) / 12).toNat ++ '-'.toNat :: digits 2 ((month + 2) % 12 + 1).toNat

def isoDate (day : Int) : List ℕ :=
  isoMonth (monthOf day) ++ '-'.toNat :: digits 2 (day - firstDay (monthOf day) + 1).toNat

def isoHour (hour : Int) : List ℕ := isoDate (hour / 24) ++ 'T'.toNat :: digits 2 (hour % 24).toNat

def isoMinute (minute : Int) : List ℕ := isoHour (minute / 60) ++ ':'.toNat :: digits 2 (minute % 60).toNat

def isoSecond (second : Int) : List ℕ := isoMinute (second / 60) ++ ':'.toNat :: digits 2 (second % 60).toNat

/-- The fraction, which is left out where it is zero, and the offset. -/
def isoFraction (microsecond : ℕ) : List ℕ :=
  (if microsecond = 0 then [] else '.'.toNat :: digits 6 microsecond) ++ "+00:00".toList.map Char.toNat

def isoformat (instant : Int) : List ℕ := isoSecond (instant / 1000000) ++ isoFraction (instant % 1000000).toNat

def yearOf (instant : Int) : Int := (monthOf (instant / 1000000 / 60 / 60 / 24) + 2) / 12

end Money
