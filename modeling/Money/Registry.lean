import Mathlib.Data.List.MinMax
import Mathlib.Data.Prod.Lex
import Money.Governance
import Money.Library.Rows
import Money.Library.Runs

/-! The model registry of `models/registry.py` and the gate of `offline_research/promotion.py`. A promotion reads its
    stamp before it locks the row, a withdrawal while it holds the lock, and `load_active` reads without a lock. -/

namespace Money
open Checked

/-! ### Promotion evidence -/

/-- What the registry reads of `LinearModelArtifact`; the coefficients and their provenance are its `body`. -/
structure LinearModelArtifact where
  modelId : String
  modelVersion : String
  datasetHash : Hash
  validationEnd : Int
  pitValidated : Bool
  body : String := ""
  deriving DecidableEq

inductive ValidationKind where
  | pointInTime | walkForward | outOfSample | regression
  deriving DecidableEq

def ValidationKind.name : ValidationKind → String
  | pointInTime => "POINT_IN_TIME"
  | walkForward => "WALK_FORWARD"
  | outOfSample => "OUT_OF_SAMPLE"
  | regression => "REGRESSION"

def requiredValidations : List ValidationKind := [.pointInTime, .walkForward, .outOfSample, .regression]

structure OfflineValidationEvidence where
  kind : ValidationKind
  passed : Bool
  testedArtifactHash : Hash
  datasetHash : Hash
  reportHash : Hash
  completedAt : Int
  deriving DecidableEq

structure IndependentApproval where
  reviewerId : String
  approved : Bool
  reviewedArtifactHash : Hash
  reviewedValidationHashes : List Hash
  reviewedAt : Int
  deriving DecidableEq

structure PromotionEvidence where
  artifactId : String
  artifactHash : Hash
  proposedBy : String
  validations : List OfflineValidationEvidence
  approval : Option IndependentApproval := none
  deriving DecidableEq

structure QualifiedLinearModel where
  artifact : LinearModelArtifact
  promotion : PromotionEvidence
  deriving DecidableEq

structure Hashing where
  /-- The digest of an artifact's JSON. -/
  artifactHash : LinearModelArtifact → Hash
  sha256 : String → Hash
  casefold : String → String

/-- The state is eligible for a manual promotion exactly if there are no reasons. -/
structure PromotionAssessment where
  artifactId : String
  artifactHash : Hash
  assessedAt : Int
  reasons : List String
  deriving DecidableEq

variable (H : Hashing)

def approvalReasons (item : PromotionEvidence) (asOf : Int) : List String :=
  match item.approval with
  | none => ["INDEPENDENT_APPROVAL_REQUIRED"]
  | some approval =>
    if approval.approved = false then ["INDEPENDENT_APPROVAL_REQUIRED"]
    else if Text.strip approval.reviewerId = "" ∨
        H.casefold (Text.strip approval.reviewerId) = H.casefold (Text.strip item.proposedBy) then
      ["REVIEWER_NOT_INDEPENDENT"]
    else
      let hashes := item.validations.map (·.reportHash)
      flag (approval.reviewedArtifactHash ≠ item.artifactHash) "APPROVAL_ARTIFACT_MISMATCH" ++
        flag (¬ (approval.reviewedValidationHashes ⊆ hashes ∧ hashes ⊆ approval.reviewedValidationHashes))
          "APPROVAL_VALIDATION_MISMATCH" ++
        flag (asOf < approval.reviewedAt ∨ ∃ v ∈ item.validations, approval.reviewedAt < v.completedAt)
          "APPROVAL_TIME_INVALID"

def assessPromotion (item : PromotionEvidence) (asOf : Int) : PromotionAssessment :=
  let kinds := item.validations.map (·.kind)
  let checked := item.validations.flatMap fun v =>
    flag (v.passed = false) (v.kind.name ++ "_FAILED") ++
      flag (v.testedArtifactHash ≠ item.artifactHash) "VALIDATION_ARTIFACT_MISMATCH" ++
      flag (asOf < v.completedAt) "VALIDATION_FROM_FUTURE"
  { artifactId := item.artifactId
    artifactHash := item.artifactHash
    assessedAt := asOf
    reasons := (flag (Text.strip item.proposedBy = "") "PROPOSER_IDENTITY_MISSING" ++
      flag (¬ requiredValidations ⊆ kinds) "REQUIRED_VALIDATION_MISSING" ++
      flag (¬ kinds.Nodup) "DUPLICATE_VALIDATION_KIND" ++ checked ++ approvalReasons H item asOf).eraseDups }

def QualifiedLinearModel.requireQualified (m : QualifiedLinearModel) (cutoff : Int) : Except Err Unit := do
  require (m.artifact.pitValidated = true)
    (.upstream "Qlib artifact requires independently reviewed point-in-time qualification")
  require (m.promotion.artifactHash = H.artifactHash m.artifact) (.upstream "promoted artifact hash differs from model bytes")
  require (∀ v ∈ m.promotion.validations, v.datasetHash = m.artifact.datasetHash)
    (.upstream "model validation dataset hash mismatch")
  require (m.artifact.validationEnd < cutoff) (.upstream "model validation was unavailable at prediction cutoff")
  require ((assessPromotion H m.promotion cutoff).reasons = [])
    (.upstream "Qlib model is not manually approved with complete validation")

/-! ### Tables -/

structure RegistryRow where
  id : String
  artifactHash : Hash
  payload : QualifiedLinearModel
  createdAt : Int
  deriving DecidableEq

inductive PromotionEvent where
  | approved (promotedBy : String) (artifactHash : Hash) (rollbackTarget : Option String)
      (assessment : PromotionAssessment)
  | withdrawn (reviewerId reason : String)
  deriving DecidableEq

def PromotionEvent.isApproved : PromotionEvent → Bool
  | approved .. => true
  | withdrawn .. => false

structure PromotionRow where
  id : String
  modelId : String
  createdAt : Int
  revision : Nat
  event : PromotionEvent
  deriving DecidableEq

structure Registry where
  models : List RegistryRow := []
  promotions : List PromotionRow := []
  deriving DecidableEq

namespace Registry
variable (r : Registry)

def model? (recordId : String) : Option RegistryRow := Rows.get? RegistryRow.id r.models recordId

def eventsOf (recordId : String) : List PromotionRow := r.promotions.filter fun row => row.modelId = recordId

def revision (recordId : String) : Nat := (r.eventsOf recordId).length + 1

def insertEvent (row : PromotionRow) : Except Err Registry := do
  let promotions ← demand (Rows.insert? PromotionRow.id r.promotions row) .integrity
  pure { r with promotions }

/-- `register`, with the bytes of the validation reports by their hash. -/
def register (model : QualifiedLinearModel) (validationReports : Hash → Option String) (now : Int) : Except Err Registry := do
  let artifactHash := H.artifactHash model.artifact
  require (artifactHash = model.promotion.artifactHash) (.store "Model and promotion hashes differ")
  require (∀ v ∈ model.promotion.validations, v.datasetHash = model.artifact.datasetHash)
    (.store "Model and validation datasets differ")
  require (∀ v ∈ model.promotion.validations, ∃ report ∈ validationReports v.reportHash,
      report.utf8ByteSize ≤ 2000000 ∧ H.sha256 report = v.reportHash)
    (.store "Validation report bytes do not match the reviewed evidence")
  let id := model.artifact.modelId ++ ":" ++ model.artifact.modelVersion
  require (id.length ≤ 128) (.store "Model registry identity is too long")
  match r.model? id with
  | some previous => do
    require (previous.payload = model) (.store "A registered model version is immutable")
    pure r
  | none => do
    require (∀ row ∈ r.models, row.artifactHash ≠ artifactHash) .integrity
    pure { r with models := r.models ++ [{ id, artifactHash, payload := model, createdAt := now }] }

/-- The transaction of `promote`, which came with its stamp. -/
def promote (recordId reviewerId : String) (rollbackTarget : Option String) (stamp : Int) (eventId : String) :
    Except Err Registry := do
  let record ← demand (r.model? recordId) (.store "Model version is not registered")
  let assessment := assessPromotion H record.payload.promotion stamp
  require (assessment.reasons = []) (.store "Model validation or independent approval is incomplete")
  let approval ← demand record.payload.promotion.approval (.store "Model validation or independent approval is incomplete")
  require (reviewerId = approval.reviewerId) (.store "The authenticated operator must match the independent reviewer")
  record.payload.requireQualified H stamp
  require (∀ target ∈ rollbackTarget, r.model? target ≠ none) (.store "Rollback target is not registered")
  r.insertEvent {
    id := eventId
    modelId := recordId
    createdAt := stamp
    revision := r.revision recordId
    event := .approved reviewerId record.artifactHash rollbackTarget assessment }

/-- The row with the later stamp, or with the greater revision at one stamp. -/
def newer (a b : PromotionRow) : PromotionRow :=
  if a.createdAt < b.createdAt ∨ a.createdAt = b.createdAt ∧ a.revision < b.revision then b else a

/-- `order_by(created_at.desc(), revision.desc()).limit(1)`. -/
def newest : List PromotionRow → Option PromotionRow
  | [] => none
  | row :: rest => some (rest.foldl newer row)

/-- The latest event of a model that was stamped by `asOf`. -/
def latest (recordId : String) (asOf : Int) : Option PromotionRow :=
  newest ((r.eventsOf recordId).filter fun row => row.createdAt ≤ asOf)

def current (recordId : String) : Option PromotionRow := newest (r.eventsOf recordId)

end Registry

/-- A call of `promote` between its stamp and its transaction. -/
structure PromoteCall where
  recordId : String
  reviewerId : String
  rollbackTarget : Option String
  stamp : Int
  deriving DecidableEq

/-- A call of `withdraw` that has stamped its event and still holds the row lock. -/
structure WithdrawCall where
  recordId : String
  reviewerId : String
  reason : String
  revision : Nat
  stamp : Int
  deriving DecidableEq

structure LoadCall where
  recordId : String
  expectedHash : Hash
  asOf : Int
  deriving DecidableEq

/-- How far a call of `load_active` has come, with what its statements have read. -/
inductive LoadPhase where
  | begun
  | recorded (record : Option RegistryRow)
  | dated (record : Option RegistryRow) (latest : Option PromotionRow)
  | ended (result : Except Err QualifiedLinearModel)
  deriving DecidableEq

def LoadCall.serve (call : LoadCall) (record : Option RegistryRow) (latest current : Option PromotionRow) :
    Except Err QualifiedLinearModel := do
  let refusal : Err := .store "No manually promoted model matches the selected artifact"
  let record ← demand record refusal
  require (record.artifactHash = call.expectedHash) refusal
  let latest ← demand latest refusal
  require (latest.event.isApproved = true) refusal
  let current ← demand current refusal
  require (current.event.isApproved = true) refusal
  require (H.artifactHash record.payload.artifact = call.expectedHash)
    (.store "Stored model artifact failed its integrity check")
  record.payload.requireQualified H call.asOf
  pure record.payload

/-! ### Interleavings -/

structure RegistrySystem where
  clock : Int
  registry : Registry := {}
  promoting : List PromoteCall := []
  withdrawing : List WithdrawCall := []
  loads : List (LoadCall × LoadPhase) := []
  deriving DecidableEq

/-- What happens next. Every read of the clock is later than the one before, by `elapsed` microseconds more than one. -/
inductive RegistryOp where
  | register (model : QualifiedLinearModel) (validationReports : Hash → Option String) (elapsed : Nat)
  | startPromote (recordId reviewerId : String) (manual : Bool) (rollbackTarget : Option String) (elapsed : Nat)
  | commitPromote (call : PromoteCall) (eventId : String)
  | stampWithdraw (recordId reviewerId reason : String) (elapsed : Nat)
  | commitWithdraw (call : WithdrawCall) (eventId : String)
  | abortWithdraw (call : WithdrawCall)
  | beginLoad (call : LoadCall)
  | readRecord (i : Nat)
  | readLatest (i : Nat)
  | readCurrent (i : Nat)

namespace RegistrySystem
variable (s : RegistrySystem)

def tick (elapsed : Nat) : Int := s.clock + 1 + elapsed

def locked (recordId : String) : Prop := ∃ call ∈ s.withdrawing, call.recordId = recordId
  deriving Decidable

def startPromote (recordId reviewerId : String) (manual : Bool) (rollbackTarget : Option String) (elapsed : Nat) :
    Except Err RegistrySystem := do
  require (manual = true) (.store "Model activation requires explicit manual promotion")
  let stamp := s.tick elapsed
  pure { s with clock := stamp, promoting := s.promoting ++ [{ recordId, reviewerId, rollbackTarget, stamp }] }

/-- The transaction of a promotion waits for the row lock; if it fails, the call is over. -/
def commitPromote (call : PromoteCall) (eventId : String) : Except Err RegistrySystem := do
  require (call ∈ s.promoting ∧ ¬ s.locked call.recordId) .absent
  let promoting := s.promoting.erase call
  match s.registry.promote H call.recordId call.reviewerId call.rollbackTarget call.stamp eventId with
  | .ok registry => pure { s with registry, promoting }
  | .error _ => pure { s with promoting }

/-- A withdrawal locks the row, counts its revision and reads its stamp. -/
def stampWithdraw (recordId reviewerId reason : String) (elapsed : Nat) : Except Err RegistrySystem := do
  require (Text.strip reviewerId ≠ "" ∧ Text.strip reason ≠ "" ∧ reason.length ≤ 512)
    (.store "Withdrawal requires bounded operator identity and reason")
  require (¬ s.locked recordId) .absent
  require (s.registry.model? recordId ≠ none) (.store "Model version is not registered")
  let stamp := s.tick elapsed
  let call : WithdrawCall := { recordId, reviewerId, reason, revision := s.registry.revision recordId, stamp }
  pure { s with clock := stamp, withdrawing := s.withdrawing ++ [call] }

def commitWithdraw (call : WithdrawCall) (eventId : String) : Except Err RegistrySystem := do
  require (call ∈ s.withdrawing) .absent
  let registry ← s.registry.insertEvent {
    id := eventId
    modelId := call.recordId
    createdAt := call.stamp
    revision := call.revision
    event := .withdrawn call.reviewerId call.reason }
  pure { s with registry, withdrawing := s.withdrawing.erase call }

def setLoad (i : Nat) (call : LoadCall) (phase : LoadPhase) : RegistrySystem :=
  { s with loads := s.loads.set i (call, phase) }

def readRecord (i : Nat) : Except Err RegistrySystem :=
  match s.loads[i]? with
  | some (call, .begun) => pure (s.setLoad i call (.recorded (s.registry.model? call.recordId)))
  | _ => .error .absent

def readLatest (i : Nat) : Except Err RegistrySystem :=
  match s.loads[i]? with
  | some (call, .recorded record) =>
    pure (s.setLoad i call (.dated record (s.registry.latest call.recordId call.asOf)))
  | _ => .error .absent

def readCurrent (i : Nat) : Except Err RegistrySystem :=
  match s.loads[i]? with
  | some (call, .dated record latest) =>
    pure (s.setLoad i call (.ended (call.serve H record latest (s.registry.current call.recordId))))
  | _ => .error .absent

def step (s : RegistrySystem) : RegistryOp → Except Err RegistrySystem
  | .register model validationReports elapsed => do
    let registry ← s.registry.register H model validationReports (s.tick elapsed)
    pure { s with clock := s.tick elapsed, registry }
  | .startPromote recordId reviewerId manual rollbackTarget elapsed =>
    s.startPromote recordId reviewerId manual rollbackTarget elapsed
  | .commitPromote call eventId => s.commitPromote H call eventId
  | .stampWithdraw recordId reviewerId reason elapsed => s.stampWithdraw recordId reviewerId reason elapsed
  | .commitWithdraw call eventId => s.commitWithdraw call eventId
  | .abortWithdraw call => do
    require (call ∈ s.withdrawing) .absent
    pure { s with withdrawing := s.withdrawing.erase call }
  | .beginLoad call => pure { s with loads := s.loads ++ [(call, .begun)] }
  | .readRecord i => s.readRecord i
  | .readLatest i => s.readLatest i
  | .readCurrent i => s.readCurrent H i

def after (start : Int) (ops : List RegistryOp) : RegistrySystem := Runs.run (step H) { clock := start } ops

end RegistrySystem
end Money
