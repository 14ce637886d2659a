import Mathlib.Tactic.Common

/-! The statements of a transaction write one after the other and may raise in between; the transaction keeps all their
    writes or none. -/

namespace Transactions
variable {σ ε α β : Type}

/-- Statements on a connection: what they return or raise, with the rows as they leave them. -/
abbrev Statements (σ ε α : Type) := ExceptT ε (StateM σ) α

def Statements.on (body : Statements σ ε α) (s : σ) : Except ε α × σ := body.run.run s

def Statements.ofExcept (x : Except ε α) : Statements σ ε α := ExceptT.mk (pure x)

def transaction (body : Statements σ ε α) (s : σ) : Except ε (α × σ) :=
  match body.on s with
  | (.ok a, t) => .ok (a, t)
  | (.error e, _) => .error e

def committed (body : Statements σ ε α) (s : σ) : σ :=
  match transaction body s with
  | .ok (_, t) => t
  | .error _ => s

@[simp] theorem on_pure (a : α) (s : σ) : Statements.on (pure a : Statements σ ε α) s = (.ok a, s) := rfl
@[simp] theorem on_ofExcept (x : Except ε α) (s : σ) : (Statements.ofExcept x).on s = (x, s) := rfl
@[simp] theorem on_get (s : σ) : Statements.on (get : Statements σ ε σ) s = (.ok s, s) := rfl
@[simp] theorem on_modify (f : σ → σ) (s : σ) : Statements.on (modify f : Statements σ ε PUnit) s = (.ok ⟨⟩, f s) := rfl

theorem on_bind (x : Statements σ ε α) (f : α → Statements σ ε β) (s : σ) :
    (x >>= f).on s =
      match x.on s with
      | (.ok a, t) => (f a).on t
      | (.error e, t) => (.error e, t) := by
  simp only [Statements.on, ExceptT.run_bind, StateT.run_bind]
  rcases x.run.run s with ⟨result, t⟩
  cases result <;> rfl

variable {body : Statements σ ε α} {s t : σ} {e : ε}

theorem transaction_eq_ok {a : α} : transaction body s = .ok (a, t) ↔ body.on s = (.ok a, t) := by
  unfold transaction
  split <;> simp_all

theorem transaction_eq_error : transaction body s = .error e ↔ ∃ t, body.on s = (.error e, t) := by
  unfold transaction
  split <;> simp_all

theorem committed_of_error (h : body.on s = (.error e, t)) : committed body s = s := by
  simp only [committed, transaction_eq_error.mpr ⟨t, h⟩]

end Transactions
