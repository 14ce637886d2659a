import Mathlib.Tactic.Common

/-! Lists in which every element is related to the next one. -/

namespace Consecutive
open List
variable {α : Type} {R : α → α → Prop} {l : List α}

theorem pairwise {p : α → Prop} (trans : ∀ a b c, p b → R a b → R b c → R a c) : ∀ {l : List α}, (∀ a ∈ l, p a) →
    (∀ pair ∈ l.zip l.tail, R pair.1 pair.2) → l.Pairwise R
  | [], _, _ => .nil
  | [_], _, _ => pairwise_singleton _ _
  | a :: b :: l, inner, next => by
    have later := pairwise trans (fun c hc => inner c (mem_cons_of_mem a hc))
      fun pair hpair => next pair (mem_cons_of_mem _ hpair)
    have first : R a b := next (a, b) mem_cons_self
    refine pairwise_cons.mpr ⟨fun c hc => ?_, later⟩
    rcases mem_cons.mp hc with rfl | hc
    · exact first
    · have carried := inner b (mem_cons_of_mem a mem_cons_self)
      exact trans a b c carried first ((pairwise_cons.mp later).1 c hc)

theorem getElem (next : ∀ pair ∈ l.zip l.tail, R pair.1 pair.2) {i : Nat} {a b : α} (ha : l[i]? = some a)
    (hb : l[i + 1]? = some b) : R a b := by
  refine next (a, b) (mem_of_getElem? (i := i) ?_)
  rw [List.getElem?_zip_eq_some, List.getElem?_tail]
  exact ⟨ha, hb⟩

end Consecutive
