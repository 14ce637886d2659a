import Money.Generation
import Money.Theorems.Gates
import Money.Theorems.Text

/-! The eligibility gate hashes the normalized exclusions of the mandate outside of its handler, and the hash refuses
    an exclusion that is blank. It also goes a day back from the instant, which the first day of all has not. -/

namespace Money
open Checked Text

/-- What is used of `str.casefold`: no text but the empty one folds to the empty one, and lower case stays. -/
structure Platform.Folding (P : Platform) : Prop where
  empty : ∀ value, P.casefold value = "" ↔ value = ""
  fixed : ∀ a ∈ excludedActivities, P.casefold a = a

variable {P : Platform}

theorem Platform.policyExclusions_eq_ok {excluded exclusions : List String} :
    Platform.policyExclusions excluded = .ok exclusions ↔ (∀ a ∈ excludedActivities, a ∈ excluded) ∧
      (∀ e ∈ excluded, e ≠ "" ∧ e = strip e) ∧ exclusions = sortedSet excluded := by
  simp only [policyExclusions, ok_iff, mem_sortedSet, eq_comm (a := exclusions)]

theorem Platform.Folding.activity_fixed (folding : P.Folding) {a : String} (ha : a ∈ excludedActivities) :
    activity P.casefold a = a := by
  have plain : ∀ a ∈ excludedActivities, strip a = a ∧ String.ofList (collapse false a.toList) = a := by decide
  obtain ⟨stripped, collapsed⟩ := plain a ha
  rw [activity, stripped, folding.fixed a ha, collapsed]

theorem Platform.Folding.activity_eq_empty (folding : P.Folding) {value : String} :
    Text.activity P.casefold value = "" ↔ Text.strip value = "" := by
  rw [Text.activity_eq_empty, folding.empty]

theorem mem_exclusionsOf {m : ResearchMandate} {e : String} : e ∈ exclusionsOf P m ↔
    ∃ value, (value ∈ excludedActivities ∨ value ∈ m.excludedActivities) ∧ activity P.casefold value = e := by
  simp only [exclusionsOf, mem_sortedSet, List.mem_map, List.mem_append]

theorem ethicalPolicyHash_exclusionsOf (folding : P.Folding) {m : ResearchMandate} :
    (∃ hash, P.ethicalPolicyHash (exclusionsOf P m) = .ok hash) ↔ ∀ e ∈ m.excludedActivities, strip e ≠ "" := by
  simp only [Platform.ethicalPolicyHash, ok_iff, Platform.policyExclusions_eq_ok]
  constructor
  · rintro ⟨_, _, ⟨-, named, -⟩, -⟩ e he blank
    have normal := named _ (mem_exclusionsOf.mpr ⟨e, .inr he, rfl⟩)
    exact normal.1 (folding.activity_eq_empty.mpr blank)
  · intro named
    refine ⟨_, _, ⟨fun a ha => ?_, fun e he => ?_, rfl⟩, rfl⟩
    · exact mem_exclusionsOf.mpr ⟨a, .inl ha, folding.activity_fixed ha⟩
    · obtain ⟨value, origin, rfl⟩ := mem_exclusionsOf.mp he
      refine ⟨fun blank => ?_, (strip_activity value).symm⟩
      rcases origin with fixed | configured
      · rw [folding.activity_fixed fixed] at blank
        subst blank
        exact absurd fixed (by decide)
      · exact named value configured (folding.activity_eq_empty.mp blank)

/-- A mandate that the contract admits, with one exclusion more than the fixed ones. -/
def mandateExcluding (activity : String) : ResearchMandate := { excludedActivities := excludedActivities ++ [activity] }

end Money
