import Mathlib.Order.Monotone.Basic
import Mathlib.Tactic.Common

/-! The months of the Gregorian calendar. Days are counted from 1970-01-01, months from March of the year 0, so that the
    leap day ends a year. -/

namespace Calendar

def firstDay (month : Int) : Int :=
  365 * (month / 12) + month / 12 / 4 - month / 12 / 100 + month / 12 / 400 + (153 * (month % 12) + 2) / 5 - 719468

/-- The month of a day. The estimate by the mean length of a month, 146097 days in 4800 months, is at most one off. -/
def monthOf (day : Int) : Int :=
  let month := (day + 719468) * 4800 / 146097
  if day < firstDay month then month - 1 else if day < firstDay (month + 1) then month else month + 1

-- 2024-02-01, 2024-02-29 and 2024-03-01
example : (firstDay (12 * 2023 + 11), monthOf 19782, monthOf 19783) = (19754, 12 * 2023 + 11, 12 * 2024) := by decide

theorem firstDay_succ (month : Int) :
    firstDay month + 28 ≤ firstDay (month + 1) ∧ firstDay (month + 1) ≤ firstDay month + 31 := by
  by_cases hlast : month % 12 = 11
  · have hyear : (month + 1) / 12 = month / 12 + 1 := by omega
    have hmonth : (month + 1) % 12 = 0 := by omega
    simp only [firstDay, hyear, hmonth, hlast]
    omega
  · have hyear : (month + 1) / 12 = month / 12 := by omega
    have hmonth : (month + 1) % 12 = month % 12 + 1 := by omega
    simp only [firstDay, hyear, hmonth]
    omega

theorem firstDay_lt_iff {month month' : Int} : firstDay month < firstDay month' ↔ month < month' :=
  (strictMono_int_of_lt_succ fun month => by
    have hdays := (firstDay_succ month).1
    omega : StrictMono firstDay).lt_iff_lt

theorem firstDay_mean (month : Int) :
    146097 * (month - 1) ≤ 4800 * (firstDay month + 719468) ∧ 4800 * (firstDay month + 719468) ≤ 146097 * (month + 1) := by
  unfold firstDay
  omega

theorem monthOf_spec (day : Int) : firstDay (monthOf day) ≤ day ∧ day < firstDay (monthOf day + 1) := by
  have hbefore := firstDay_mean ((day + 719468) * 4800 / 146097 - 1)
  have hafter := firstDay_mean ((day + 719468) * 4800 / 146097 + 2)
  unfold monthOf
  generalize hm : (day + 719468) * 4800 / 146097 = month at hbefore hafter
  have hsucc : month + 1 + 1 = month + 2 := by omega
  have hpred : month - 1 + 1 = month := by omega
  dsimp only
  split
  · rw [hpred]
    omega
  · split
    · omega
    · rw [hsucc]
      omega

theorem monthOf_eq {month day : Int} (hfirst : firstDay month ≤ day) (hlast : day < firstDay (month + 1)) :
    monthOf day = month := by
  obtain ⟨hfirst', hlast'⟩ := monthOf_spec day
  have hbelow := firstDay_lt_iff.mp (hfirst'.trans_lt hlast)
  have habove := firstDay_lt_iff.mp (hfirst.trans_lt hlast')
  omega

end Calendar
