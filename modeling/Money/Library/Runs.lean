import Mathlib.Tactic.Common

/-! Runs of a fallible step function. A step that fails leaves the state as it was, so every list of operations is a
    run. -/

namespace Runs
open List
variable {ε σ ω : Type} (step : σ → ω → Except ε σ)

def next (s : σ) (o : ω) : σ :=
  match step s o with
  | .ok t => t
  | .error _ => s

def run (s : σ) (ops : List ω) : σ := ops.foldl (next step) s

variable {step}

theorem next_of_ok {s t : σ} {o : ω} (h : step s o = .ok t) : next step s o = t := by
  simp only [next, h]

theorem next_of_error {s : σ} {o : ω} {e : ε} (h : step s o = .error e) : next step s o = s := by
  simp only [next, h]

theorem next_cases (step : σ → ω → Except ε σ) (s : σ) (o : ω) : next step s o = s ∨ step s o = .ok (next step s o) := by
  cases h : step s o with
  | ok t => exact Or.inr (by rw [next_of_ok h])
  | error e => exact Or.inl (next_of_error h)

@[simp] theorem run_nil (s : σ) : run step s [] = s := rfl
@[simp] theorem run_cons (s : σ) (o : ω) (ops : List ω) : run step s (o :: ops) = run step (next step s o) ops := rfl

theorem run_append (step : σ → ω → Except ε σ) (s : σ) (ops ops' : List ω) :
    run step s (ops ++ ops') = run step (run step s ops) ops' :=
  foldl_append

variable {P : σ → Prop}

theorem run_inv (hstep : ∀ s o t, P s → step s o = .ok t → P t) : ∀ (ops : List ω) {s : σ}, P s → P (run step s ops)
  | [], _, hs => hs
  | o :: ops, s, hs => by
    refine run_inv hstep ops ?_
    rcases next_cases step s o with h | h
    · rw [h]
      exact hs
    · exact hstep s o _ hs h

theorem run_inv_of {Q : ω → Prop} (hstep : ∀ s o t, Q o → P s → step s o = .ok t → P t) :
    ∀ (ops : List ω) {s : σ}, (∀ o ∈ ops, Q o) → P s → P (run step s ops)
  | [], _, _, hs => hs
  | o :: ops, s, hq, hs => by
    refine run_inv_of hstep ops (fun o' ho' => hq o' (mem_cons_of_mem _ ho')) ?_
    rcases next_cases step s o with h | h
    · rw [h]
      exact hs
    · exact hstep s o _ (hq o (mem_cons_self ..)) hs h

def Along (step : σ → ω → Except ε σ) (Q : σ → ω → Prop) : σ → List ω → Prop
  | _, [] => True
  | s, o :: ops => Q s o ∧ Along step Q (next step s o) ops

instance decidableAlong (step : σ → ω → Except ε σ) (Q : σ → ω → Prop) [∀ s o, Decidable (Q s o)] :
    ∀ (s : σ) (ops : List ω), Decidable (Along step Q s ops)
  | _, [] => .isTrue trivial
  | s, _ :: ops => @instDecidableAnd _ _ _ (decidableAlong step Q (next step s _) ops)

theorem run_inv_along {Q : σ → ω → Prop} (hstep : ∀ s o t, Q s o → P s → step s o = .ok t → P t) :
    ∀ (ops : List ω) {s : σ}, Along step Q s ops → P s → P (run step s ops)
  | [], _, _, hs => hs
  | o :: ops, s, ⟨ho, hops⟩, hs => by
    refine run_inv_along hstep ops hops ?_
    rcases next_cases step s o with h | h
    · rw [h]
      exact hs
    · exact hstep s o _ ho hs h

theorem along_iff {I : σ → Prop} {Q : σ → ω → Prop} (hinv : ∀ s o t, I s → step s o = .ok t → I t)
    (hstep : ∀ s o, I s → P s → (P (next step s o) ↔ Q s o)) : ∀ (ops : List ω) {s : σ}, I s → P s →
      (Along step Q s ops ↔ ∀ pre o post, ops = pre ++ o :: post → P (run step s (pre ++ [o])))
  | [], _, _, _ => by simp [Along]
  | o :: ops, s, hi, hs => by
    have hi' : I (next step s o) := by
      rcases next_cases step s o with h | h
      · rw [h]
        exact hi
      · exact hinv s o _ hi h
    constructor
    · rintro ⟨ho, hops⟩ pre o' post hpost
      have hs' : P (next step s o) := (hstep s o hi hs).mpr ho
      cases pre with
      | nil =>
        cases hpost
        exact hs'
      | cons o'' pre =>
        cases hpost
        exact (along_iff hinv hstep (pre ++ o' :: post) hi' hs').mp hops pre o' post rfl
    · intro h
      have hs' : P (next step s o) := h [] o ops rfl
      refine ⟨(hstep s o hi hs).mp hs', (along_iff hinv hstep ops hi' hs').mpr fun pre o' post hpost => ?_⟩
      exact h (o :: pre) o' post (by rw [hpost, cons_append])

/-- What every step keeps until something happens that cannot be undone holds after every run in which it has not
    happened. -/
theorem run_until {I E : σ → Prop} (hinv : ∀ s o t, P s → step s o = .ok t → P t)
    (hended : ∀ s o t, P s → step s o = .ok t → E s → E t)
    (hstep : ∀ s o t, P s → I s → step s o = .ok t → ¬ E t → I t) (ops : List ω) {s : σ} (hs : P s) (hi : ¬ E s → I s)
    (he : ¬ E (run step s ops)) : I (run step s ops) := by
  refine (run_inv (P := fun s => P s ∧ (¬ E s → I s)) (fun s o t ⟨hs, hi⟩ h => ?_) ops ⟨hs, hi⟩).2 he
  exact ⟨hinv s o t hs h, fun ht => hstep s o t hs (hi fun he => ht (hended s o t hs h he)) h ht⟩

theorem run_first : ∀ (ops : List ω) {s : σ}, ¬ P s → P (run step s ops) →
    ∃ pre o post, ops = pre ++ o :: post ∧ ¬ P (run step s pre) ∧ P (run step s (pre ++ [o]))
  | [], _, hn, hp => absurd hp hn
  | o :: ops, s, hn, hp => by
    by_cases hnext : P (next step s o)
    · exact ⟨[], o, ops, rfl, hn, hnext⟩
    · obtain ⟨pre, o', post, rfl, hbefore, hafter⟩ := run_first ops hnext hp
      exact ⟨o :: pre, o', post, rfl, hbefore, hafter⟩

end Runs
