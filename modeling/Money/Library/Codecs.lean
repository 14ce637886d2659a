import Mathlib.Tactic.Common

/-! Values stored as documents: what was dumped is read back as it was. -/

structure Codec (Doc α : Type) where
  dump : α → Doc
  validate : Doc → Option α
  validate_dump : ∀ a, validate (dump a) = some a

namespace Codec
variable {Doc α : Type} (c : Codec Doc α)

attribute [simp] validate_dump

end Codec
