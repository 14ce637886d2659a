import Money.ReferenceTables

/-! Releases compose as long as the time of the update does not go back where a table stays as it is. -/

namespace Money
open Checked Rows

variable {A B C : ReferenceCatalog} {a b c : TableMetadata}

/-- The version never falls, and changed content has another one. -/
structure TableMetadata.Renews (a b : TableMetadata) : Prop where
  name : b.name = a.name
  version : a.dataVersion ≤ b.dataVersion
  newer : a.changed b → a.dataVersion ≠ b.dataVersion

theorem TableMetadata.changed_trans (h : a.changed c) : a.changed b ∨ b.changed c := by
  unfold changed at *
  by_contra same
  simp_all

theorem TableMetadata.Renews.trans (hab : a.Renews b) (hbc : b.Renews c) : a.Renews c := by
  refine ⟨hbc.name.trans hab.name, hab.version.trans hbc.version, fun changed same => ?_⟩
  -- the version in between is the same, so neither step changed the content
  have first : a.dataVersion = b.dataVersion := hab.version.antisymm (same ▸ hbc.version)
  rcases changed_trans changed with h | h
  · exact hab.newer h first
  · exact hbc.newer h (first ▸ same)

def ReferenceCatalog.Accepts (A B : ReferenceCatalog) : Prop := compareReferenceReleases A B = .ok ()
  deriving Decidable

theorem accepts_iff :
    A.Accepts B ↔ ∀ a ∈ A.tables, ∃ b ∈ B.tables, a.Renews b ∧ (a.changed b → a.updatedAt < b.updatedAt) := by
  simp only [ReferenceCatalog.Accepts, compareReferenceReleases, forM_eq_ok, ok_iff]
  refine forall₂_congr fun a _ => ⟨?_, ?_⟩
  · rintro ⟨b, found, version, stamp⟩
    obtain ⟨hb, name⟩ := get?_eq_some found
    rw [not_or, not_lt] at version
    exact ⟨b, hb, ⟨name, version.1, fun h same => version.2 ⟨h, same.symm⟩⟩, fun h => not_le.mp fun le => stamp ⟨h, le⟩⟩
  · rintro ⟨b, hb, h, later⟩
    refine ⟨b, h.name ▸ get?_of_mem B.keyed hb, ?_, fun older => not_le.mpr (later older.1) older.2⟩
    rintro (older | ⟨changed, same⟩)
    · exact not_lt.mpr h.version older
    · exact h.newer changed same.symm

/-- No table that keeps its content gets an earlier time of update. -/
def ReferenceCatalog.Steady (A B : ReferenceCatalog) : Prop :=
  ∀ a ∈ A.tables, ∀ b ∈ B.tables, b.name = a.name → ¬ a.changed b → a.updatedAt ≤ b.updatedAt

theorem ReferenceCatalog.Steady.updated_le (steady : A.Steady B) (ha : a ∈ A.tables) (hb : b ∈ B.tables) (h : a.Renews b)
    (later : a.changed b → a.updatedAt < b.updatedAt) : a.updatedAt ≤ b.updatedAt := by
  by_cases changed : a.changed b
  · exact (later changed).le
  · exact steady a ha b hb h.name changed

theorem ReferenceCatalog.Accepts.trans (hAB : A.Accepts B) (hBC : B.Accepts C) (steady : A.Steady B) (steady' : B.Steady C) :
    A.Accepts C := by
  rw [accepts_iff] at *
  intro a ha
  obtain ⟨b, hb, hab, later⟩ := hAB a ha
  obtain ⟨c, hc, hbc, later'⟩ := hBC b hb
  refine ⟨c, hc, hab.trans hbc, fun changed => ?_⟩
  rcases TableMetadata.changed_trans changed with h | h
  · exact (later h).trans_le (steady'.updated_le hb hc hbc later')
  · exact (steady.updated_le ha hb hab later).trans_lt (later' h)

def ReferenceCatalog.Extends (A B : ReferenceCatalog) : Prop := ∀ a ∈ A.tables, ∃ b ∈ B.tables, a.Renews b

instance ReferenceCatalog.extends_trans : IsTrans ReferenceCatalog Extends where
  trans A B C hAB hBC a ha := by
    obtain ⟨b, hb, hab⟩ := hAB a ha
    obtain ⟨c, hc, hbc⟩ := hBC b hb
    exact ⟨c, hc, hab.trans hbc⟩

/-- Releases compose where no unchanged table gets an earlier time of update; and in a chain of releases a data version
    of a table stands for one content. -/
theorem reference_releases_compose :
    (∀ A B C : ReferenceCatalog, A.Accepts B → B.Accepts C → A.Steady B → B.Steady C → A.Accepts C) ∧
    ∀ chain : List ReferenceCatalog, chain.IsChain ReferenceCatalog.Accepts → chain.Pairwise fun A B =>
      ∀ a ∈ A.tables, ∀ b ∈ B.tables, a.name = b.name → a.dataVersion = b.dataVersion →
        a.checksum = b.checksum ∧ a.schemaChecksum = b.schemaChecksum := by
  refine ⟨fun A B C hAB hBC steady steady' => hAB.trans hBC steady steady', fun chain accepted => ?_⟩
  have kept : chain.IsChain ReferenceCatalog.Extends := accepted.imp fun A B h a ha => by
    obtain ⟨b, hb, hab, -⟩ := accepts_iff.mp h a ha
    exact ⟨b, hb, hab⟩
  refine kept.pairwise.imp fun {A B} h a ha b hb name version => ?_
  obtain ⟨b', hb', hab⟩ := h a ha
  obtain rfl : b' = b := eq_of_key B.keyed hb' hb (hab.name.trans name)
  have same : ¬ a.changed b' := fun changed => hab.newer changed version
  simpa [TableMetadata.changed] using same

def release (version : ℕ) (updatedAt : Int) (checksum : Hash) : ReferenceCatalog :=
  ⟨[⟨"plans", [version, 0, 0], updatedAt, checksum, "schema"⟩], by simp⟩

/-- The table changes twice, each time with a newer version and a later update. -/
theorem reference_releases_compose_changed : (release 1 10 "a").Accepts (release 3 30 "c") := by
  refine reference_releases_compose.1 _ (release 2 20 "b") _ (by decide +kernel) (by decide +kernel) ?_ ?_ <;>
    unfold ReferenceCatalog.Steady <;> decide

/-- The time of an update goes back without a change, and the next change is stamped before the first release. -/
theorem releases_do_not_compose : (release 1 30 "a").Accepts (release 1 10 "a") ∧
    (release 1 10 "a").Accepts (release 2 20 "b") ∧ ¬ (release 1 30 "a").Accepts (release 2 20 "b") := by
  decide +kernel

end Money
