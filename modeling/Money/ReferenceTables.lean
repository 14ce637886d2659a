import Money.State

/-! The releases of the reference tables: `compare_reference_releases` of `reference/catalog.py`. -/

namespace Money
open Checked

/-- The metadata of a table. A data version is the tuple of its parts, and the time of the update, a text of fixed width,
    its instant. -/
structure TableMetadata where
  name : String
  dataVersion : List ℕ
  updatedAt : Int
  checksum : Hash
  schemaChecksum : Hash
  deriving DecidableEq

def TableMetadata.changed (before after : TableMetadata) : Prop :=
  before.checksum ≠ after.checksum ∨ before.schemaChecksum ≠ after.schemaChecksum
  deriving Decidable

structure ReferenceCatalog where
  tables : List TableMetadata
  keyed : (tables.map TableMetadata.name).Nodup

def compareReferenceReleases (previous current : ReferenceCatalog) : Except Err Unit :=
  previous.tables.forM fun before => do
    let after ← demand (Rows.get? TableMetadata.name current.tables before.name)
      (.referenceTable "a data release cannot silently drop a table")
    require (¬ (after.dataVersion < before.dataVersion ∨ before.changed after ∧ after.dataVersion = before.dataVersion))
      (.referenceTable "changed data requires a strictly newer data version")
    require (¬ (before.changed after ∧ after.updatedAt ≤ before.updatedAt))
      (.referenceTable "changed data requires a later update timestamp")

end Money
