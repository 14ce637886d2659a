import Mathlib.Algebra.Group.Nat.Defs
import Mathlib.Data.List.Lex
import Mathlib.Order.Lattice

/-! Numbers written as text with decimal fields of a fixed width: the text, as a list of codes, is ordered as the numbers
    are. -/

namespace Fields
open List

/-- The codes of the last `width` decimal digits of `n`. -/
def digits : ℕ → ℕ → List ℕ
  | 0, _ => []
  | width + 1, n => digits width (n / 10) ++ [48 + n % 10]

variable {α ι κ : Type} [LinearOrder α] [LinearOrder ι] [LinearOrder κ] {l l' r r' : List α} {width n : ℕ} {D : ι → Prop}
  {f : ι → List ℕ}

theorem append_lt_append_iff (h : l.length = l'.length) : l ++ r < l' ++ r' ↔ l < l' ∨ l = l' ∧ r < r' := by
  induction l generalizing l' with
  | nil =>
    obtain rfl : l' = [] := length_eq_zero_iff.mp h.symm
    simp
  | cons a l ih =>
    cases l' with
    | nil => cases h
    | cons b l' =>
      simp only [cons_append, cons_lt_cons_iff, ih (Nat.succ.inj h), cons.injEq]
      tauto

@[simp] theorem length_digits : (digits width n).length = width := by
  induction width generalizing n with
  | zero => rfl
  | succ width ih => simp [digits, ih]

/-- On `D`, `f` writes with one width and in the order of what it writes. -/
structure Ordered (D : ι → Prop) (f : ι → List ℕ) : Prop where
  width : ∀ x y, D x → D y → (f x).length = (f y).length
  lt_iff : ∀ x y, D x → D y → (f x < f y ↔ x < y)

theorem Ordered.eq_iff (h : Ordered D f) {x y : ι} (hx : D x) (hy : D y) : f x = f y ↔ x = y := by
  refine ⟨fun same => ?_, congrArg f⟩
  rcases lt_trichotomy x y with lt | eq | gt
  · exact absurd same ((h.lt_iff x y hx hy).mpr lt).ne
  · exact eq
  · exact absurd same ((h.lt_iff y x hy hx).mpr gt).ne'

theorem ordered_digits : Ordered (· < 10 ^ width) (digits width) := by
  induction width with
  | zero => exact ⟨fun _ _ _ _ => rfl, by simp [digits]⟩
  | succ width ih =>
    refine ⟨fun _ _ _ _ => by simp, fun n m hn hm => ?_⟩
    rw [Nat.pow_succ] at hn hm
    have hn' : n / 10 < 10 ^ width := by omega
    have hm' : m / 10 < 10 ^ width := by omega
    rw [digits, digits, append_lt_append_iff (by simp), ih.lt_iff _ _ hn' hm', ih.eq_iff hn' hm', cons_lt_cons_iff]
    simp only [lt_irrefl, and_false, or_false]
    omega

/-- A field of two digits for what `q` leaves out. -/
theorem Ordered.field (h : Ordered D f) (separator : ℕ) {D' : κ → Prop} {q : κ → ι} {rest : κ → ℕ}
    (coarse : ∀ x, D' x → D (q x)) (small : ∀ x, rest x < 100)
    (split : ∀ x y, D' x → D' y → (x < y ↔ q x < q y ∨ q x = q y ∧ rest x < rest y)) :
    Ordered D' fun x => f (q x) ++ separator :: digits 2 (rest x) where
  width x y hx hy := by simp [h.width _ _ (coarse x hx) (coarse y hy)]
  lt_iff x y hx hy := by
    have hx' := coarse x hx
    have hy' := coarse y hy
    rw [append_lt_append_iff (h.width _ _ hx' hy'), h.lt_iff _ _ hx' hy', h.eq_iff hx' hy', cons_lt_cons_iff,
      ordered_digits.lt_iff _ _ (small x) (small y), split x y hx hy]
    simp

end Fields
