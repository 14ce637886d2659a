import Money.Library.Codecs
import Money.Platform

/-! The documents of the store, of an arbitrary type `Doc`. The contracts that are read back have a codec, and the
    fields that are read without a contract have an accessor. -/

namespace Money
open Checked

structure UniverseMember where
  ticker : String
  snapshotHash : Option Hash
  deriving DecidableEq

/-- What is read of `UniverseResearchContext`: the frozen universe, its screen and the acquired snapshots. -/
structure UniverseContext where
  members : List UniverseMember
  observedAt : Int
  validUntil : Int
  universeHash : Hash
  selectedTickers : List String
  snapshots : List ResearchSnapshot
  deriving DecidableEq

/-- `bind_universe_snapshot`: a candidate's snapshot with the hash of the universe it was screened in. -/
def bindUniverseSnapshot (P : Platform) (context : UniverseContext) (s : ResearchSnapshot) : Except Err ResearchSnapshot := do
  let member ← demand (context.members.find? fun m => m.ticker = s.ticker) (.value "UNIVERSE_SNAPSHOT_BINDING_MISMATCH")
  require (member.snapshotHash = some s.hash) (.value "UNIVERSE_SNAPSHOT_BINDING_MISMATCH")
  P.validateSnapshot { s with universeHash := some context.universeHash, hash := "" }

/-- The snapshot is the bound one of its ticker, was selected, and the universe is current. -/
def verifyMembership (P : Platform) (context : UniverseContext) (s : ResearchSnapshot) (now : Int) : Except Err Unit := do
  let source ← demand (context.snapshots.find? fun item => item.ticker = s.ticker)
    (.value "RESEARCH_UNIVERSE_CONTEXT_MISMATCH")
  require (s.ticker ∈ context.selectedTickers) (.value "RESEARCH_UNIVERSE_CONTEXT_MISMATCH")
  let bound ← bindUniverseSnapshot P context source
  require (s = bound ∧ context.observedAt ≤ now ∧ now < context.validUntil)
    (.value "RESEARCH_UNIVERSE_CONTEXT_MISMATCH")

/-- `RndSnapshot`, with its market data as text and the provider and status of each official source. -/
structure RndSnapshot where
  snapshotId : String
  ticker : String
  createdAt : Int
  market : String
  sources : List (String × String) := []
  details : String := ""
  hash : Hash := ""
  deriving DecidableEq

structure RndComponent where
  component : String
  status : String
  reason : String
  deriving DecidableEq

/-- `RndResult`: a persisted evidence study is not a qualified multi-firm recommendation. -/
structure RndResult where
  researchId : String
  ticker : String
  issuedAt : Int
  snapshotId : String
  snapshotHash : Hash
  analysis : String
  components : List RndComponent
  details : String := ""
  deriving DecidableEq

/-- `CorrespondenceCheckpoint`: one sealed correspondence call. -/
structure CorrespondenceCheckpoint (Doc : Type) where
  inputHash : Hash
  reservationId : String
  result : Doc
  usage : Usage
  deriving DecidableEq

structure Rejection where
  researchId : String
  ticker : String
  snapshotId : Option String := none
  mandate : Option ResearchMandate := none
  reasons : List String
  runtime : Runtime
  issuedAt : Option Int := none
  deriving DecidableEq

structure Env (Doc : Type) extends Platform where
  lean : Codec Doc LeanValidationReport
  audit : Codec Doc CIOAuditReport
  redTeam : Codec Doc RedTeamReport
  independence : Codec Doc EvidenceIndependenceReport
  crossExamination : Codec Doc CrossExaminationPacket
  design : Codec Doc SignalDesign
  instrument : Codec Doc InstrumentMetadata
  candidate : Codec Doc Candidate
  response : Codec Doc ChallengeResponse
  verification : Codec Doc ChallengeVerification
  checkpoint : Codec Doc (CorrespondenceCheckpoint Doc)
  /-- `UniverseResearchContext.model_validate`. -/
  universeContext : Doc → Option UniverseContext
  /-- `.get("completed")`, as a truth value. -/
  completed : Doc → Bool
  /-- `Usage.model_validate(payload["usage"] or {})`. -/
  usage : Doc → Option Usage
  usage_checkpoint : ∀ c, usage (checkpoint.dump c) = some c.usage
  /-- `payload["reservation_id"]`. -/
  reservationId : Doc → Option String
  reservationId_checkpoint : ∀ c, reservationId (checkpoint.dump c) = some c.reservationId
  /-- The fields of a rejection packet. -/
  researchId : Doc → Option String
  finalState : Doc → Option String
  signalPresent : Doc → Bool
  rejection : Rejection → Doc
  researchId_rejection : ∀ r, researchId (rejection r) = some r.researchId
  finalState_rejection : ∀ r, finalState (rejection r) = some "REJECT"
  signalPresent_rejection : ∀ r, signalPresent (rejection r) = false
  /-- The document of a failed eligibility check: it has the key `passed`. -/
  failedEligibility : List String → Doc
  isFailedEligibility : Doc → Bool
  /-- `content_hash` of a document. -/
  documentHash : Doc → Hash
  /-- `digest` of an enqueue request. -/
  requestHash : String → ResearchMandate → Bool → Hash
  /-- `content_hash` of the identities of the call accounting. -/
  reservationHash : String → Hash
  aggregateHash : String → Hash
  /-- The monthly tokens of a plan of the reference catalogue. -/
  monthlyTokens : String → Option Nat
  /-- The evidence checks and the seal of `RndSnapshot`. -/
  freezeStudy : RndSnapshot → Except Err RndSnapshot
  studyAnalysis : String → String

/-- `_verify_universe_context` of the store: recheck frozen membership at durable boundaries. -/
def Env.verifyUniverseContext {Doc : Type} (E : Env Doc) (s : ResearchSnapshot) (raw : Option Doc) (now : Int) :
    Except Err Unit :=
  if s.universeHash = none then .ok ()
  else do
    let context ← demand (raw.bind E.universeContext) (.value "UniverseResearchContext")
    verifyMembership E.toPlatform context s now

/-- `CrossExaminationPacket.model_validate` of a document. -/
def Env.validateCross {Doc : Type} (E : Env Doc) (doc : Doc) : Except Err CrossExaminationPacket := do
  let packet ← demand (E.crossExamination.validate doc) (.value "CrossExaminationPacket")
  packet.sealed E.crossHash

/-! ### An environment to run the store in -/

/-- The documents of that environment: each is the value that it was dumped from. -/
inductive Document where
  | lean (r : LeanValidationReport)
  | audit (r : CIOAuditReport)
  | redTeam (r : RedTeamReport)
  | independence (r : EvidenceIndependenceReport)
  | crossExamination (p : CrossExaminationPacket)
  | design (d : SignalDesign)
  | instrument (m : InstrumentMetadata)
  | candidate (c : Candidate)
  | response (r : ChallengeResponse)
  | verification (v : ChallengeVerification)
  | checkpoint (inputHash : Hash) (reservationId : String) (result : Document) (usage : Usage)
  | runtime (usage : Usage)
  | universe_ (c : UniverseContext)
  | rejection (researchId finalState : String) (signal : Bool)
  | failedEligibility (reasons : List String)
  deriving DecidableEq

namespace Document

def checkpoint? : Document → Option (CorrespondenceCheckpoint Document)
  | checkpoint inputHash reservationId result usage => some { inputHash, reservationId, result, usage }
  | _ => none

def usage? : Document → Option Usage
  | checkpoint _ _ _ usage | runtime usage => some usage
  | _ => none

end Document

/-- The monthly tokens of the plans in `data/reference/plans.csv`. -/
def referenceTokens (plan : String) : Option Nat :=
  (([("FREE", 0), ("PRO", 100000), ("TEAM", 500000), ("ENTERPRISE", 1000000)] : List (String × Nat)).find?
    fun entry => entry.1 = plan).map (·.2)

def plainEnv : Env Document where
  toPlatform := plainPlatform
  lean := ⟨.lean, fun | .lean r => some r | _ => none, fun _ => rfl⟩
  audit := ⟨.audit, fun | .audit r => some r | _ => none, fun _ => rfl⟩
  redTeam := ⟨.redTeam, fun | .redTeam r => some r | _ => none, fun _ => rfl⟩
  independence := ⟨.independence, fun | .independence r => some r | _ => none, fun _ => rfl⟩
  crossExamination := ⟨.crossExamination, fun | .crossExamination p => some p | _ => none, fun _ => rfl⟩
  design := ⟨.design, fun | .design d => some d | _ => none, fun _ => rfl⟩
  instrument := ⟨.instrument, fun | .instrument m => some m | _ => none, fun _ => rfl⟩
  candidate := ⟨.candidate, fun | .candidate c => some c | _ => none, fun _ => rfl⟩
  response := ⟨.response, fun | .response r => some r | _ => none, fun _ => rfl⟩
  verification := ⟨.verification, fun | .verification v => some v | _ => none, fun _ => rfl⟩
  checkpoint := ⟨fun c => .checkpoint c.inputHash c.reservationId c.result c.usage, Document.checkpoint?, fun _ => rfl⟩
  universeContext := fun | .universe_ c => some c | _ => none
  completed := fun | .audit r => r.completed | _ => false
  usage := Document.usage?
  usage_checkpoint _ := rfl
  reservationId := fun | .checkpoint _ id _ _ => some id | _ => none
  reservationId_checkpoint _ := rfl
  researchId := fun | .rejection id _ _ => some id | _ => none
  finalState := fun | .rejection _ state _ => some state | _ => none
  signalPresent := fun | .rejection _ _ signal => signal | _ => false
  rejection r := .rejection r.researchId "REJECT" false
  researchId_rejection _ := rfl
  finalState_rejection _ := rfl
  signalPresent_rejection _ := rfl
  failedEligibility := .failedEligibility
  isFailedEligibility := fun | .failedEligibility _ => true | _ => false
  documentHash _ := ""
  requestHash ticker _ _ := ticker
  reservationHash id := "reservation-" ++ id
  aggregateHash id := "aggregate-" ++ id
  monthlyTokens := referenceTokens
  freezeStudy s := .ok s
  studyAnalysis market := market

end Money
