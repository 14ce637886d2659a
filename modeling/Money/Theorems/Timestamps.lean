import Money.Timestamps

/-! The text of an instant is a row of fields of a fixed width up to the seconds, and `+` comes before `.`. -/

namespace Money
open Calendar Fields List

def inYears (month : Int) : Prop := 1 ≤ (month + 2) / 12 ∧ (month + 2) / 12 ≤ 9999

theorem lt_of_monthOf_lt {x y : Int} (h : monthOf x < monthOf y) : x < y := by
  have first : ¬firstDay (monthOf y) < firstDay (monthOf x + 1) := by
    rw [firstDay_lt_iff]
    omega
  have hx := (monthOf_spec x).2
  have hy := (monthOf_spec y).1
  omega

theorem ordered_isoMonth : Ordered inYears isoMonth :=
  ordered_digits.field _ (fun _ h => by unfold inYears at h; omega) (fun _ => by omega)
    fun _ _ hx hy => by unfold inYears at *; omega

theorem ordered_isoDate : Ordered (fun day => inYears (monthOf day)) isoDate := by
  refine ordered_isoMonth.field _ (fun _ h => h) (fun day => ?_) fun x y _ _ => ?_
  · have last := (monthOf_spec day).2
    have length := (firstDay_succ (monthOf day)).2
    omega
  · rcases lt_trichotomy (monthOf x) (monthOf y) with lt | eq | gt
    · exact iff_of_true (lt_of_monthOf_lt lt) (.inl lt)
    · have first := (monthOf_spec x).1
      rw [eq] at *
      omega
    · have := lt_of_monthOf_lt gt
      omega

theorem ordered_isoSecond : Ordered (fun second => inYears (monthOf (second / 60 / 60 / 24))) isoSecond := by
  have hour : Ordered _ isoHour := ordered_isoDate.field _ (fun _ h => h) (fun _ => by omega) fun _ _ _ _ => by omega
  have minute : Ordered _ isoMinute := hour.field _ (fun _ h => h) (fun _ => by omega) fun _ _ _ _ => by omega
  exact minute.field _ (fun _ h => h) (fun _ => by omega) fun _ _ _ _ => by omega

theorem isoFraction_lt_iff {n m : ℕ} (hn : n < 1000000) (hm : m < 1000000) : isoFraction n < isoFraction m ↔ n < m := by
  unfold isoFraction
  by_cases n0 : n = 0 <;> by_cases m0 : m = 0
  · simp [n0, m0]
  · simp [n0, m0, Nat.pos_iff_ne_zero, cons_lt_cons_iff]
  · simp [n0, m0, cons_lt_cons_iff]
  · rw [if_neg n0, if_neg m0, cons_append, cons_append, cons_lt_cons_iff, append_lt_append_iff (by simp),
      ordered_digits.lt_iff n m hn hm]
    simp

theorem isoformat_lt_iff {a b : Int} (ha : 1 ≤ yearOf a ∧ yearOf a ≤ 9999) (hb : 1 ≤ yearOf b ∧ yearOf b ≤ 9999) :
    isoformat a < isoformat b ↔ a < b := by
  rw [isoformat, isoformat, append_lt_append_iff (ordered_isoSecond.width _ _ ha hb), ordered_isoSecond.lt_iff _ _ ha hb,
    ordered_isoSecond.eq_iff ha hb, isoFraction_lt_iff (by omega) (by omega)]
  omega

/-- Within the years of `datetime`, the texts of instants are ordered as the instants are. -/
theorem isoformat_chronological (a b : Int) (ha : 1 ≤ yearOf a ∧ yearOf a ≤ 9999) (hb : 1 ≤ yearOf b ∧ yearOf b ≤ 9999) :
    (isoformat a < isoformat b ↔ a < b) ∧ (isoformat a = isoformat b ↔ a = b) := by
  refine ⟨isoformat_lt_iff ha hb, fun same => ?_, congrArg isoformat⟩
  have before : ¬a < b := (isoformat_lt_iff ha hb).not.mp same.not_lt
  have after : ¬b < a := (isoformat_lt_iff hb ha).not.mp same.not_gt
  omega

-- 2024-02-29T23:59:59+00:00 and half a second later
theorem isoformat_chronological_leap : isoformat 1709251199000000 < isoformat 1709251199500000 :=
  (isoformat_chronological 1709251199000000 1709251199500000 (by decide) (by decide)).1.mpr (by decide)

end Money
