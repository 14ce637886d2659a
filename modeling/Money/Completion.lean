import Money.Generation
import Money.Store

/-! `complete_job`: the final persistence boundary. It compares a decision packet with everything sealed for the job and
    recomputes the gates. The studies of `research/rnd_store.py` complete here as well. -/

namespace Money
open Checked

variable {Doc : Type} [DecidableEq Doc] {E : Env Doc}

def allFirms : List Firm := [.tradingagents, .aiHedgeFund, .qlib]

/-- `{item["firm"]: item for item in reports}`: the last report of a firm. -/
def reportOf (reports : List FirmReport) (firm : Firm) : Option FirmReport := reports.reverse.find? fun r => r.firm = firm

/-- The clock reads of `complete_job` after the lease check, in their order. -/
structure CompletionReads where
  universe_ : Int
  consensus : Int
  design : Int
  completed : Int
  updated : Int
  deriving DecidableEq

variable (db : Database E) (jobId : String)

/-- The packet is about this job, in consensus, and repeats its sealed reports and its mandate. -/
def checkIdentity (row : Job) (p : DecisionPacket) : Except Err Unit := do
  require (row.status = .consensus ∧ p.researchId = jobId)
    (.store "Completed research requires consensus and matching job identity")
  require (∀ f ∈ allFirms, reportOf p.reports f = db.report? jobId f)
    (.store "Decision packet reports differ from the sealed reports")
  require (p.mandate = row.mandate) (.store "Decision packet mandate differs from the immutable job mandate")

/-- The packet repeats the evidence of the frozen snapshot, which is returned. -/
def checkEvidence (row : Job) (p : DecisionPacket) : Except Err ResearchSnapshot := do
  let refusal := Err.store "Decision packet evidence differs from the frozen snapshot"
  let s ← frozenSnapshot db row refusal
  require (some p.snapshotId = row.snapshotId ∧ p.snapshotHash = s.hash ∧ p.sources = s.evidence ∧
    p.eligibility = s.instrument ∧ p.candidate.ticker = row.ticker) refusal
  pure s

def checkArtifacts (p : DecisionPacket) : Except Err Unit :=
  require (db.artifact? jobId .lean = some (E.lean.dump p.lean) ∧ db.artifact? jobId .audit = some (E.audit.dump p.audit) ∧
      db.artifact? jobId .redTeam = some (E.redTeam.dump p.redTeam) ∧
      db.artifact? jobId .independence = some (E.independence.dump p.independence))
    (.store "Decision packet validation differs from persisted audit evidence")

/-- The cross-examination belongs to the sealed evidence of the packet. -/
def crossMatches (E : Env Doc) (s : ResearchSnapshot) (p : DecisionPacket) (x : CrossExaminationPacket) : Prop :=
  (x.snapshotId = s.snapshotId ∧ x.snapshotHash = s.hash ∧ x.qlibEnabled = s.qlibEnabled ∧
    x.reportHashes.length = s.requiredFirstPassFirms.length) ∧
  (∀ f ∈ allFirms, x.originalHash (.firm f) = (reportOf p.reports f).map E.reportHash) ∧
  (x.leanHash = E.leanHash p.lean ∧ x.initialAuditHash = E.auditHash p.audit) ∧
  (x.rounds.length = p.crossExaminationRounds ∧ some x.hash = p.crossExaminationHash) ∧
  (s.createdAt ≤ x.issuedAt ∧ x.issuedAt ≤ p.issuedAt)
  deriving Decidable

def noCross (p : DecisionPacket) : Prop :=
  p.crossExaminationRounds = 0 ∧ (p.crossExaminationHash = none ∨ p.crossExaminationHash = some "")
  deriving Decidable

/-- Whether the persisted cross-examination left a material disagreement. -/
def checkCrossExamination (artifact : Option Doc) (s : ResearchSnapshot) (p : DecisionPacket) (mismatch missing : Err) :
    Except Err Bool :=
  match artifact with
  | some doc => do
    let x ← E.validateCross doc
    require (crossMatches E s p x) mismatch
    pure x.materialDisagreement
  | none => do
    require (noCross p) missing
    pure false

def SignalDesign.consistent (design : SignalDesign) : Except Err Unit := do
  design.signal.forM ResearchSignal.limits
  require ((∀ p ∈ design.policy, p.bounded) ∧ ∀ c ∈ design.costApplicability, c.bounded) (.value "SignalDesign")

def Env.validateDesign (E : Env Doc) (doc : Doc) : Except Err SignalDesign := do
  let design ← demand (E.design.validate doc) (.value "SignalDesign")
  design.consistent
  pure design

/-- `DecisionPacket.model_validate`. The packet that it returns has the hash of its snapshot filled in. -/
def Env.validatePacket (E : Env Doc) (p : DecisionPacket) : Except Err Unit := do
  require (∀ s ∈ p.frozenSnapshot, E.validateSnapshot s = .ok s) (.value "ResearchSnapshot")
  p.consistentPacket

def DecisionPacket.request (p : DecisionPacket) (jobId : String) (s : ResearchSnapshot) (state : ResearchState)
    (designedAt : Int) (quality : MarketQuality) (costs : CostApplicability) (policy : SignalPolicy) : SignalRequest where
  researchId := jobId
  mandate := p.mandate
  snapshot := s
  reports := p.reports
  lean := p.lean
  audit := p.audit
  redTeam := p.redTeam
  state
  issuedAt := designedAt
  marketQuality := quality
  costApplicability := costs
  policy
  rounds := p.crossExaminationRounds

/-- A design with a signal is generated again from the sealed inputs and has to come out the same. -/
def checkPublished (s : ResearchSnapshot) (p : DecisionPacket) (design : SignalDesign)
    (signal : ResearchSignal) (state : ResearchState) (now : Int) : Except Err Unit := do
  let refusal := Err.store "Signal design lacks reproducible current inputs"
  let policy ← demand design.policy refusal
  let quality ← demand design.marketQuality refusal
  let costs ← demand design.costApplicability refusal
  let designedAt ← demand design.designedAt refusal
  require (designedAt ≤ p.issuedAt ∧ now < signal.validUntil) refusal
  let recalculated ← generateSignal E.toPlatform (p.request jobId s state designedAt quality costs policy)
  require (recalculated = design ∧ p.signal = design.signal)
    (.store "Published signal differs from its deterministic sealed design")

def positive (state : ResearchState) : Prop := state = .researchCandidate ∨ state = .watch
  deriving Decidable

/-- A positive state without a signal is downgraded for the reasons of the design. -/
def downgrade (design : SignalDesign) (result : ResearchState × List String) (refusal : Err) :
    Except Err (ResearchState × List String) :=
  if positive result.1 then do
    require (design.reasons ≠ [] ∧ ∀ reason ∈ design.reasons, reason ∈ downgradeReasons) refusal
    pure (.insufficientEvidence, design.reasons)
  else pure result

def checkDesign (artifact : Option Doc) (s : ResearchSnapshot) (p : DecisionPacket)
    (result : ResearchState × List String) (now : Int) : Except Err (ResearchState × List String) :=
  match artifact with
  | none => do
    require (p.signal = none) (.store "Published signal requires a sealed deterministic design")
    pure result
  | some doc => do
    let design ← E.validateDesign doc
    match design.signal with
    | some signal => do
      checkPublished (E := E) jobId s p design signal result.1 now
      pure result
    | none => do
      require (p.signal = none) (.store "Signal cannot bypass the sealed unavailable design")
      downgrade design result (.store "Signal design downgrade reasons are invalid")

def checkDecision (row : Job) (p : DecisionPacket) (now : CompletionReads) : Except Err Unit := do
  require (row.lockedAt ≠ none) (.barrierNotLocked "Completed research requires locked reports")
  checkIdentity db jobId row p
  let s ← checkEvidence db row p
  checkArtifacts db jobId p
  require (s.usageMode ≠ .personalResearch)
    (.store "Personal research cannot publish commercial decision packets or raw sources")
  E.verifyUniverseContext s (db.artifact? jobId .universeContext) now.universe_
  let independence ← evidenceIndependence s p.reports
  require (independence = p.independence)
    (.store "Decision packet evidence independence was not derived from its sources")
  let disagreement ← checkCrossExamination (E := E) (db.artifact? jobId .crossExamination) s p
    (.store "Cross-examination differs from sealed research evidence")
    (.store "Cross-examination rounds require a persisted immutable artifact")
  let calculated ← consensus E.toPlatform p.mandate s p.reports p.lean p.audit p.redTeam independence now.consensus
    p.crossExaminationRounds disagreement
  let final ← checkDesign (E := E) jobId (db.artifact? jobId .signalDesign) s p calculated now.design
  require ((p.finalState, p.reasons) = final) (.store "Decision packet bypasses deterministic consensus gates")

/-- What `complete_job` is given: a decision packet, or the document of a rejection. -/
inductive Completion (Doc : Type) where
  | decision (packet : DecisionPacket)
  | rejection (data : Doc)

def finish (status : Status) (completed updated : Int) (j : Job) : Job :=
  { j with
    status
    currentStage := status
    completedAt := some completed
    updatedAt := updated
    leaseToken := none
    leaseUntil := none }

variable (h : Handle)

def completeDecision (jobId : String) (r : Reads) (p : DecisionPacket) (now : CompletionReads) : Except Err (Database E) := do
  E.validatePacket p
  claimed db h jobId r fun row => do
    require (row.kind = .standard) (.store "Personal R&D cannot publish commercial decision packets")
    checkDecision db jobId row p now
    pure {
      job := finish .complete now.completed now.updated
      packets := [{ jobId, payload := .decision p }]
      signals := (p.signal.map fun signal => { jobId, signal }).toList }

/-- `complete_job` with a rejection, which no signal may come with. -/
def completeRejection (jobId : String) (r : Reads) (data : Doc) (now : CompletionReads) : Except Err (Database E) :=
  claimed db h jobId r fun row => do
    require (row.kind = .standard) (.store "Personal R&D cannot publish commercial decision packets")
    require (E.researchId data = some jobId ∧ E.finalState data = some "REJECT")
      (.store "Rejected packets require the job identity and REJECT state")
    require (E.signalPresent data = false) (.store "Signals can only be published after consensus")
    pure {
      job := finish .rejected now.completed now.updated
      packets := [{ jobId, payload := .rejection data }] }

def completeJob (jobId : String) (r : Reads) (completion : Completion Doc)
    (now : CompletionReads) : Except Err (Database E) :=
  match completion with
  | .decision p => completeDecision db h jobId r p now
  | .rejection data => completeRejection db h jobId r data now

/-! ### Studies -/

def saveStudySnapshot (jobId : String) (r : Reads) (snapshot : RndSnapshot) : Except Err (Database E) := do
  let checked ← E.freezeStudy snapshot
  claimed db h jobId r fun row => do
    require (row.kind = .liveRnd ∧ row.status = .snapshotBuild ∧ row.snapshotId = none ∧ row.ticker = checked.ticker)
      (.store "RND_SNAPSHOT_BOUNDARY")
    pure {
      job := fun j => { j with snapshotId := some checked.snapshotId }
      snapshots := [{ id := checked.snapshotId, jobId, payload := .study checked }] }

/-- The study snapshot of a job, found by the job; a research snapshot is refused by its contract. -/
def studySnapshot : Except Err RndSnapshot := do
  let stored ← demand (db.snapshots.find? fun s => s.jobId = jobId) (.value "RndSnapshot")
  match stored.payload with
  | .study s => pure s
  | .research _ => .error (.value "RndSnapshot")

def nativeComponents : List String := ["tradingagents", "ai_hedge_fund", "qlib", "lean", "crewai"]

/-- The component statuses that the sources of a study imply: a later source of one provider wins. -/
def expectedStatus (s : RndSnapshot) (component : String) : Option String :=
  ((("yfinance", "READY") :: s.sources).reverse.find? fun source => source.1 = component).map (·.2)

/-- The components of a result are the native ones, none of them ready, and the sources of the study. -/
def componentsMatch (s : RndSnapshot) (components : List RndComponent) : Prop :=
  (components.map (·.component)).Nodup ∧
    (∀ source ∈ ("yfinance", "READY") :: s.sources, ∃ c ∈ components, c.component = source.1 ∧
      some c.status = expectedStatus s source.1) ∧
    ∀ c ∈ components, c.component ∈ nativeComponents ∨ expectedStatus s c.component ≠ none
  deriving Decidable

/-- `rnd_store.complete_study`: no firm is marked as executed and no signal is issued. -/
def completeStudy (jobId : String) (r : Reads) (result : RndResult) (completed updated : Int) : Except Err (Database E) :=
  claimed db h jobId r fun row => do
    require (row.kind = .liveRnd ∧ row.status = .snapshotBuild ∧ result.researchId = jobId ∧ result.ticker = row.ticker)
      (.store "RND_RESULT_BOUNDARY")
    let s ← studySnapshot db jobId
    require (result.snapshotId = s.snapshotId ∧ result.snapshotHash = s.hash ∧ s.createdAt ≤ result.issuedAt)
      (.store "RND_RESULT_SNAPSHOT_MISMATCH")
    require (result.analysis = E.studyAnalysis s.market) (.store "RND_RESULT_ANALYSIS_MISMATCH")
    require ((∀ n ∈ nativeComponents, n ∈ result.components.map (·.component)) ∧
        ∀ c ∈ result.components, c.component ∈ nativeComponents → c.status ≠ "READY")
      (.store "RND_NATIVE_QUALIFICATION_REQUIRED")
    require (componentsMatch s result.components) (.store "RND_COMPONENT_STATUS_MISMATCH")
    pure {
      job := finish .complete completed updated
      packets := [{ jobId, payload := .study result }] }

end Money
