import Mathlib.Data.List.Sort

/-! Rankings: lists sorted by a strict order. Their members fix them, and the place of a member is the number of members
    ahead of it. -/

namespace Ranking
open List
variable {α : Type} {R : α → α → Prop}

section
variable (asymm : ∀ a b, R a b → ¬ R b a)
include asymm

theorem countP_ahead [DecidableRel R] {before after : List α} {x : α} (sorted : (before ++ x :: after).Pairwise R) :
    (before ++ x :: after).countP (fun y => R y x) = before.length := by
  obtain ⟨-, later, ahead⟩ := pairwise_append.mp sorted
  have behind : ∀ y ∈ x :: after, ¬ R y x := by
    intro y hy
    rcases mem_cons.mp hy with rfl | hy
    · exact fun self => asymm y y self self
    · exact asymm x y ((pairwise_cons.mp later).1 y hy)
  have first : before.countP (fun y => R y x) = before.length :=
    countP_eq_length.mpr fun y hy => decide_eq_true (ahead y hy x mem_cons_self)
  have rest : (x :: after).countP (fun y => R y x) = 0 :=
    countP_eq_zero.mpr fun y hy => by simpa using behind y hy
  rw [countP_append, first, rest, Nat.add_zero]

theorem mem_take_iff [DecidableRel R] {l : List α} (sorted : l.Pairwise R) {x : α} {n : Nat} :
    x ∈ l.take n ↔ x ∈ l ∧ l.countP (fun y => R y x) < n := by
  constructor
  · intro member
    obtain ⟨before, after, split⟩ := append_of_mem member
    have whole : l = before ++ x :: (after ++ l.drop n) := by
      conv_lhs => rw [← take_append_drop n l, split]
      simp
    refine ⟨mem_of_mem_take member, ?_⟩
    have length := congrArg List.length split
    have bound := length_take_le n l
    rw [whole] at sorted ⊢
    rw [countP_ahead asymm sorted]
    simp only [length_append, length_cons] at length
    omega
  · rintro ⟨member, few⟩
    obtain ⟨before, after, rfl⟩ := append_of_mem member
    rw [countP_ahead asymm sorted] at few
    rw [take_append, mem_append]
    refine .inr ?_
    obtain ⟨k, hk⟩ : ∃ k, n - before.length = k + 1 := ⟨n - before.length - 1, by omega⟩
    rw [hk, take_succ_cons]
    exact mem_cons_self

end

end Ranking
