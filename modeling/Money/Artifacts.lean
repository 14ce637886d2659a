import Mathlib.Data.List.Infix
import Money.Contracts

/-! The content-addressed artifacts of `qualification/core.py`: a file is created once, under the hash of its bytes. -/

namespace Money
open Checked

abbrev Bytes := List UInt8

def maximumBytes : ℕ := 2000000

/-- `[a-f0-9]{64}`. -/
def isDigest (digest : Hash) : Prop :=
  digest.length = 64 ∧ ∀ c ∈ digest.toList, ('a' ≤ c ∧ c ≤ 'f') ∨ ('0' ≤ c ∧ c ≤ '9')
  deriving Decidable

/-- `hashlib` and `json`. -/
structure Encoding (J : Type) where
  sha256 : Bytes → Hash
  hexadecimal : ∀ raw, isDigest (sha256 raw)
  jsonBytes : J → Bytes

/-- The files under the root of a `QualificationContext`, and the encodings of the credentials in its environment. -/
structure QualificationFiles where
  files : String → Option Bytes := fun _ => none
  secrets : List Bytes := []

/-- Where a write ends: before the file is created, or with that many bytes of it on the disk. -/
inductive Stop where
  | unopened
  | written (n : ℕ)
  deriving DecidableEq

namespace QualificationFiles
variable (q : QualificationFiles) (relative : String) (raw : Bytes)

def checkSecrets : Except Err Unit :=
  require (∀ encoded ∈ q.secrets, encoded = [] ∨ ¬encoded <:+: raw) (.value "QUALIFICATION_SECRET_DETECTED")

def readBytes : Except Err (Option Bytes) :=
  match q.files relative with
  | none => pure none
  | some raw => do
    require (raw.length ≤ maximumBytes) (.value "QUALIFICATION_ARTIFACT_INVALID")
    q.checkSecrets raw
    pure (some raw)

/-- `O_EXCL`: a file that is there is left as it is. -/
def create : Stop → QualificationFiles
  | .unopened => q
  | .written n =>
    if (q.files relative).isSome then q
    else { q with files := Function.update q.files relative (some (raw.take n)) }

/-- `write_bytes` without `replace`, as far as `stop`. -/
def writeBytes (stop : Stop) : Except Err QualificationFiles := do
  require (raw ≠ [] ∧ raw.length ≤ maximumBytes) (.value "QUALIFICATION_FILE_SIZE_INVALID")
  q.checkSecrets raw
  pure (q.create relative raw stop)

end QualificationFiles

inductive ArtifactValue (J : Type) where
  | bytes (raw : Bytes)
  | json (value : J)

variable {J : Type} (S : Encoding J)

def ArtifactValue.raw : ArtifactValue J → Bytes
  | .bytes raw => raw
  | .json value => S.jsonBytes value

def ArtifactValue.extension : ArtifactValue J → String
  | .bytes _ => "bin"
  | .json _ => "json"

def ArtifactValue.digest (v : ArtifactValue J) : Hash := S.sha256 (v.raw S)

def ArtifactValue.relative (v : ArtifactValue J) : String := "artifacts/" ++ v.digest S ++ "." ++ v.extension

/-- A call of `artifact` whose write ends at `stop`. -/
def QualificationFiles.interrupted (q : QualificationFiles) (v : ArtifactValue J) (stop : Stop) :
    Except Err QualificationFiles := do
  let existing ← q.readBytes (v.relative S)
  require (∀ raw ∈ existing, raw = v.raw S) (.value "QUALIFICATION_ARTIFACT_COLLISION")
  q.writeBytes (v.relative S) (v.raw S) stop

def QualificationFiles.artifact (q : QualificationFiles) (v : ArtifactValue J) :
    Except Err ((Hash × String) × QualificationFiles) := do
  let q ← q.interrupted S v (.written (v.raw S).length)
  pure ((v.digest S, v.relative S), q)

def QualificationFiles.verifyArtifact (q : QualificationFiles) (digest : Hash) (relative : String) : Except Err Bytes := do
  require (isDigest digest) (.value "QUALIFICATION_ARTIFACT_HASH_INVALID")
  let raw ← demand (← q.readBytes relative) (.value "QUALIFICATION_ARTIFACT_HASH_MISMATCH")
  require (S.sha256 raw = digest) (.value "QUALIFICATION_ARTIFACT_HASH_MISMATCH")
  pure raw

end Money
