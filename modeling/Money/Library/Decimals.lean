import Mathlib.Data.Rat.Floor
import Mathlib.Tactic.Positivity

/-! Rounding exact decimals to a number of places, by mode. -/

namespace Decimals

inductive Rounding where
  | floor | ceiling | halfEven | halfUp
  deriving DecidableEq

/-- The integer a mode rounds to; a half goes to the even neighbour or away from zero. -/
def Rounding.apply (mode : Rounding) (x : Rat) : Int :=
  let k := x.floor
  let rest := x - k
  match mode with
  | .floor => k
  | .ceiling => if rest = 0 then k else k + 1
  | .halfEven => if rest < 1 / 2 then k else if 1 / 2 < rest then k + 1 else k + k % 2
  | .halfUp => if rest < 1 / 2 then k else if 1 / 2 < rest then k + 1 else if x < 0 then k else k + 1

/-- The multiple of `10 ^ -places` that a mode rounds to; none where it has more than 28 digits. -/
def quantize (places : Nat) (mode : Rounding) (x : Rat) : Option Rat :=
  let n := mode.apply (x * 10 ^ places)
  if n.natAbs < 10 ^ 28 then some (n / 10 ^ places) else none

/-! ### Half up -/

variable {x y : Rat} {places : Nat}

theorem floor_eq {k : Int} (below : (k : Rat) ≤ x) (above : x < k + 1) : x.floor = k := by
  refine le_antisymm (Int.lt_add_one_iff.mp ?_) (Rat.le_floor_iff.mpr below)
  rw [Rat.floor_lt_iff]
  push_cast
  exact above

theorem halfUp_eq_floor (nonneg : 0 ≤ x) : Rounding.halfUp.apply x = (x + 1 / 2).floor := by
  have below := Rat.floor_le x
  have above := Rat.lt_floor_add_one x
  push_cast at above
  simp only [Rounding.apply]
  split
  next small => exact (floor_eq (by linarith) (by linarith)).symm
  next large =>
    have up : (x + 1 / 2).floor = x.floor + 1 := floor_eq (by push_cast; linarith) (by push_cast; linarith)
    rw [up]
    split
    · rfl
    · rw [if_neg (not_lt.mpr nonneg)]

theorem halfUp_mono (nonneg : 0 ≤ x) (le : x ≤ y) : Rounding.halfUp.apply x ≤ Rounding.halfUp.apply y := by
  rw [halfUp_eq_floor nonneg, halfUp_eq_floor (nonneg.trans le), Rat.le_floor_iff]
  exact (Rat.floor_le _).trans (by linarith)

theorem quantize_eq_some {mode : Rounding} : quantize places mode x = some y ↔
    (mode.apply (x * 10 ^ places)).natAbs < 10 ^ 28 ∧ (mode.apply (x * 10 ^ places) : Rat) / 10 ^ places = y := by
  simp only [quantize, Option.ite_none_right_eq_some, Option.some.injEq]

theorem quantize_floor_le (h : quantize places .floor x = some y) : y ≤ x := by
  obtain ⟨-, rfl⟩ := quantize_eq_some.mp h
  rw [div_le_iff₀ (by positivity)]
  exact Rat.floor_le _

theorem le_quantize_ceiling (h : quantize places .ceiling x = some y) : x ≤ y := by
  obtain ⟨-, rfl⟩ := quantize_eq_some.mp h
  rw [le_div_iff₀ (by positivity)]
  have above := Rat.lt_floor_add_one (x * 10 ^ places)
  push_cast at above
  simp only [Rounding.apply]
  split
  next whole => linarith
  next =>
    push_cast
    linarith

theorem quantize_halfUp_mono {a b : Rat} (nonneg : 0 ≤ x) (le : x ≤ y)
    (hx : quantize places .halfUp x = some a) (hy : quantize places .halfUp y = some b) : a ≤ b := by
  have power : (0 : Rat) < 10 ^ places := by positivity
  obtain ⟨-, rfl⟩ := quantize_eq_some.mp hx
  obtain ⟨-, rfl⟩ := quantize_eq_some.mp hy
  have := halfUp_mono (mul_nonneg nonneg power.le) (mul_le_mul_of_nonneg_right le power.le)
  exact div_le_div_of_nonneg_right (by exact_mod_cast this) power.le

theorem quantize_halfUp_isSome (places : Nat) (nonneg : 0 ≤ x) (small : x * 10 ^ places < 10 ^ 27) :
    ∃ y, quantize places .halfUp x = some y ∧ 0 ≤ y ∧ y * 10 ^ places ≤ x * 10 ^ places + 1 := by
  have scaled : 0 ≤ x * 10 ^ places := by positivity
  have apply_ := halfUp_eq_floor scaled
  have below := Rat.floor_le (x * 10 ^ places + 1 / 2)
  have least : 0 ≤ (x * 10 ^ places + 1 / 2).floor := by
    rw [Rat.le_floor_iff]
    push_cast
    linarith
  have most : (x * 10 ^ places + 1 / 2).floor < 10 ^ 28 := by
    have : ((x * 10 ^ places + 1 / 2).floor : Rat) < 10 ^ 28 := by linarith
    exact_mod_cast this
  refine ⟨_, quantize_eq_some.mpr ⟨?_, rfl⟩, ?_, ?_⟩
  · rw [apply_]
    omega
  · rw [apply_]
    have : (0 : Rat) ≤ ((x * 10 ^ places + 1 / 2).floor : Rat) := by exact_mod_cast least
    positivity
  · rw [apply_, div_mul_cancel₀ _ (by positivity)]
    linarith

end Decimals
