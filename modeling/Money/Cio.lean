import Money.Library.Calendar
import Money.Library.Grouping
import Money.Market

/-! The supervisory workflow of `crews/cio.py`: the deterministic audit, the specialists and the Red Team. The texts of
    claims are read through `Auditor`, and the answers of the models are arguments. -/

namespace Money.Cio
open Checked Grouping

/-! ### Texts of instants -/

def digits : Nat → Nat → List Char
  | 0, _ => []
  | width + 1, n => digits width (n / 10) ++ [(n % 10).digitChar]

def hourMinute (t : Nat) : List Char := digits 2 (t / 3600000000) ++ ':' :: digits 2 (t / 60000000 % 60)

def secondText (t : Nat) : List Char :=
  ':' :: digits 2 (t / 1000000 % 60) ++ if t % 1000000 = 0 then [] else '.' :: digits 6 (t % 1000000)

def offsetText (offset : Int) : List Char :=
  (if offset < 0 then '-' else '+') :: hourMinute offset.natAbs ++
    if offset.natAbs % 60000000 = 0 then [] else secondText offset.natAbs

/-- `datetime.isoformat` of an instant with an offset from UTC. -/
def isoformat (instant offset : Int) : String :=
  let wall := instant + offset
  let month := Calendar.monthOf (dateOf wall)
  let year := if month % 12 < 10 then month / 12 else month / 12 + 1
  let monthOfYear := if month % 12 < 10 then month % 12 + 3 else month % 12 - 9
  let day := dateOf wall - Calendar.firstDay month + 1
  let time := (wall % days 1).toNat
  String.ofList (digits 4 year.toNat ++ '-' :: digits 2 monthOfYear.toNat ++ '-' :: digits 2 day.toNat ++
    'T' :: hourMinute time ++ secondText time ++ offsetText offset)

example : isoformat (days 19783) (hours (-5)) = "2024-02-29T19:00:00-05:00" := by decide +kernel

def isClose (a b relative absolute : Rat) : Prop := |a - b| ≤ max (relative * max |a| |b|) absolute
  deriving Decidable

variable (s : ResearchSnapshot)

/-- `relative_volume_20` with its evidence: the latest volume over the mean of the twenty before it. -/
def relativeVolume : Option (Option Rat × List String) :=
  let bars := byObservation (priceRecords s)
  let window := bars.drop (bars.length - 21)
  match window.getLast? with
  | none => none
  | some latest =>
    if 21 ≤ bars.length then
      let average : Rat := ((window.take 20).map fun b => (b.2.volume : Rat)).sum / 20
      some (if 0 < average then some (latest.2.volume / average) else none, window.map (·.1.evidenceId))
    else none

def fundamental (metric : String) : List (EvidenceRecord × FinancialFact) :=
  s.evidence.filterMap fun e =>
    match e.payload with
    | .financial fact => if fact.metric = metric then some (e, fact) else none
    | _ => none

def periodText (r : EvidenceRecord × FinancialFact) : String := isoformat r.2.periodEnd r.2.periodOffset

def periodKey (r : EvidenceRecord × FinancialFact) : List Nat := (periodText r).toList.map Char.toNat

/-! ### The deterministic audit -/

/-- The fields that `QlibQuantResearchReport` adds to a report. -/
structure QuantOutput where
  predictionScore : Option Rat
  rank : Option Nat
  modelVersion : String
  deriving DecidableEq

/-- What the audit reads with libraries: the subclass of a report, the qualified model, and two patterns in a claim. -/
structure Auditor where
  quant : FirmReport → Option QuantOutput
  qualifiedModel : Option (ResearchSnapshot → Except Err (Rat × String))
  statedRelativeVolume : ReportClaim → Option Rat
  statesCashIncrease : ReportClaim → Bool

def availabilityFindings : List AuditFinding :=
  s.evidence.filterMap fun e =>
    if e.availableAt (s.cutoffFor e) = false ∨ e.conflicting = true then
      some {
        auditor := "Point-in-Time Auditor", state := .contradicted
        explanation := "Evidence is unavailable at the decision cutoff or conflicting."
        evidenceIds := [e.evidenceId] }
    else none

def leanFindings (lean : LeanValidationReport) : List AuditFinding :=
  if lean.state = .pass ∧ leanComplete lean then []
  else [{
    auditor := "LEAN Auditor", state := .unsupported
    explanation := "LEAN does not establish all required validation controls." }]

variable (A : Auditor)

/-- The state and the explanation of the prediction of a quantitative report. -/
def predictionState (s : ResearchSnapshot) (output : QuantOutput) : Except Err (FindingState × String) :=
  match A.qualifiedModel with
  | none => .ok (.unsupported, "An independently loaded qualified model is required to verify Qlib output.")
  | some model => do
    let (expected, version) ← model s
    let matched := output.modelVersion = version ∧
      output.predictionScore.any fun score => isClose expected score (1 / 1000000000) (1 / 1000000000000)
    pure (if matched then .verified else .contradicted,
      "Independently reconstructed PIT features and recomputed the qualified linear prediction.")

def predictionFindings (report : FirmReport) (state : FindingState) (explanation : String) : List AuditFinding :=
  report.claims.filterMap fun c =>
    if c.claimId = "qlib:prediction" then
      some { auditor := "Qlib Quant Auditor", claimId := some c.claimId, state, explanation, evidenceIds := c.evidenceIds }
    else none

def rankFindings (report : FirmReport) (output : QuantOutput) : List AuditFinding :=
  if output.rank = none then []
  else [{
    auditor := "Qlib Quant Auditor", state := .unsupported
    explanation := "Cross-sectional rank cannot be independently recalculated from " ++
      "this single-instrument snapshot; a frozen comparison universe is required."
    claimId := report.claims.head?.map (·.claimId)
    evidenceIds := (report.claims.head?.map (·.evidenceIds)).getD [] }]

def quantFindings (s : ResearchSnapshot) (report : FirmReport) : Except Err (List AuditFinding) :=
  match A.quant report with
  | none => .ok []
  | some output => do
    let (state, explanation) ← predictionState A s output
    pure (predictionFindings report state explanation ++ rankFindings report output)

def volumeFinding (claim : ReportClaim) (stated : Rat) : AuditFinding :=
  let measured := relativeVolume s
  let present := measured.bind (·.1)
  { auditor := "Technical Auditor"
    claimId := some claim.claimId
    state := match present with
      | some value => if isClose stated value (1 / 100) 0 then .verified else .contradicted
      | none => .unsupported
    explanation := "Recomputed relative volume as latest / previous 20 mean, with 1% rounding tolerance."
    evidenceIds := (measured.map (·.2)).getD claim.evidenceIds }

/-- Two cash facts are comparable if their units match and their period ends are written differently. -/
def Comparable (prior current : EvidenceRecord × FinancialFact) : Prop :=
  current.2.unit = prior.2.unit ∧ periodText current ≠ periodText prior
  deriving Decidable

/-- The state of a claim that cash increased, with the evidence of a comparison that was made. -/
def cashComparison : FindingState × Option (List String) :=
  match lastTwo periodKey (fundamental s "cash") with
  | none => (.unsupported, none)
  | some (prior, current) =>
    if Comparable prior current then
      (if prior.2.value < current.2.value then .verified else .contradicted,
        some [prior.1.evidenceId, current.1.evidenceId])
    else (.unsupported, none)

def cashFinding (claim : ReportClaim) : AuditFinding :=
  { auditor := "Fundamental Auditor"
    claimId := some claim.claimId
    state := (cashComparison s).1
    explanation := "Compared the latest two published cash facts with matching units and distinct periods."
    evidenceIds := (cashComparison s).2.getD claim.evidenceIds }

def claimFindings (s : ResearchSnapshot) (claim : ReportClaim) : List AuditFinding :=
  (A.statedRelativeVolume claim).toList.map (volumeFinding s claim) ++
    if A.statesCashIncrease claim then [cashFinding s claim] else []

def deterministicAudit (s : ResearchSnapshot) (reports : List FirmReport) (lean : LeanValidationReport) :
    Except Err (List AuditFinding) := do
  require (reports.length = s.requiredFirstPassFirms.length ∧ (∀ r ∈ reports, r.firm ∈ s.requiredFirstPassFirms) ∧
      ∀ f ∈ s.requiredFirstPassFirms, f ∈ reports.map (·.firm))
    (.upstream "CIO requires configured sealed report identities")
  require (lean.snapshotId = s.snapshotId ∧ ∀ r ∈ reports, r.snapshotId = s.snapshotId ∧ r.snapshotHash = s.hash)
    (.upstream "CIO artifacts do not match the locked snapshot")
  let claims := reports.flatMap (·.claims)
  require (claims.map (·.claimId)).Nodup (.upstream "CIO found duplicate claim identity")
  require (∀ c ∈ claims, c.evidenceIds ≠ [] ∧ ∀ e ∈ c.evidenceIds, e ∈ s.evidenceIds)
    (.upstream "CIO found untraceable claim evidence")
  let quantitative ← reports.mapM (quantFindings A s)
  pure (availabilityFindings s ++ leanFindings lean ++ quantitative.flatten ++ claims.flatMap (claimFindings A s))

/-! ### The flow -/

/-- What a specialist returns: at least one finding, and whether it disagrees materially. -/
structure SpecialistResult where
  findings : List AuditFinding
  materialDisagreement : Bool := false
  nonempty : findings ≠ []

def specialist : Family → String
  | .technical => "Technical Auditor"
  | .fundamental => "Fundamental Auditor"
  | .catalyst => "Catalyst Auditor"
  | .quantitative => "Qlib Quant Auditor"
  | .risk => "Risk Auditor"

def unfit (e : EvidenceRecord) : Bool :=
  let currentAvailable := decide (e.observationTime ≤ s.cutoffFor e) && decide (e.retrievalTime ≤ s.createdAt) &&
    decide (s.createdAt < e.freshUntil) && e.publicationTime.all (· ≤ s.cutoffFor e)
  let researchNow := decide (s.purpose = .researchTesting) && !s.historical
  e.conflicting || !(if researchNow then currentAvailable else e.availableAt (s.cutoffFor e))

/-- `qualitative_evidence`: the latest eighty bars and every other fact, as the identifiers that a specialist may cite. -/
def qualitativeEvidence : Except Err (List String) := do
  require (∀ e ∈ s.evidence, unfit s e = false)
    (.upstream "native input contains unavailable or conflicting evidence")
  let ordered := s.evidence.insertionSort fun a b =>
    a.observationTime < b.observationTime ∨ a.observationTime = b.observationTime ∧ Text.before a.evidenceId b.evidenceId
  let bars := (ordered.filter (·.payload.isOhlcv)).map (·.evidenceId)
  let latest := bars.drop (bars.length - 80)
  pure ((ordered.filter fun e => !e.payload.isOhlcv || decide (e.evidenceId ∈ latest)).map (·.evidenceId))

def checkFinding (claims : List ReportClaim) (allowed : List String) (family : Family) (f : AuditFinding) :
    Except Err Unit := do
  require (f.auditor = specialist family) (.upstream "CIO specialist identity mismatch")
  require (∀ e ∈ f.evidenceIds, e ∈ allowed) (.upstream "CIO cited evidence outside snapshot")
  -- The identity was compared with the selected claims before.
  require (f.state = .verified → ∃ c ∈ claimOf claims (f.claimId.getD ""), ∃ e ∈ f.evidenceIds, e ∈ c.evidenceIds)
    (.upstream "CIO verification lacks claim evidence")

/-- The answer of the specialist of a family, checked against the selected claims. -/
def checkSpecialist (claims : List ReportClaim) (allowed : List String) (family : Family) (result : SpecialistResult) :
    Except Err Unit := do
  let selected : List (Option String) := (claims.filter (·.family = family)).map (some ·.claimId)
  let answered : List (Option String) := result.findings.map (·.claimId)
  require ((∀ id ∈ answered, id ∈ selected) ∧ (∀ id ∈ selected, id ∈ answered) ∧ answered.length = selected.length)
    (.upstream "CIO specialist omitted or duplicated a claim")
  result.findings.forM (checkFinding claims allowed family)

/-- `verify`: the fixed findings, then those of one specialist after the other. -/
def verify (reports : List FirmReport) (allowed : List String) (fixed : List AuditFinding)
    (answers : Family → Except Err SpecialistResult) : Except Err CIOAuditReport := do
  let claims := reports.flatMap (·.claims)
  let families := sortedFamilies (claims.map (·.family))
  let results ← families.mapM fun family => do
    let result ← answers family
    checkSpecialist claims allowed family result
    pure result
  pure {
    snapshotId := s.snapshotId
    completed := !claims.isEmpty
    findings := fixed ++ results.flatMap (·.findings)
    activeSpecialists := ["Evidence Auditor", "LEAN Auditor"] ++ families.map specialist
    materialDisagreement := results.any (·.materialDisagreement) }

def redTeam (fixed : List AuditFinding) (answer : RedTeamReport) : RedTeamReport :=
  if fixed ≠ [] ∧ answer.state = .pass then
    { state := .warn
      findings := answer.findings ++
        ["Deterministic verification found incomplete validation or evidence controls."] }
  else answer

def flow (reports : List FirmReport) (fixed : List AuditFinding)
    (answers : Family → Except Err SpecialistResult) (answer : Except Err RedTeamReport) :
    Except Err (CIOAuditReport × RedTeamReport) := do
  let allowed ← qualitativeEvidence s
  let audit ← verify s reports allowed fixed answers
  let answer ← answer
  pure (audit, redTeam fixed answer)

/-- `CrewAINativeRunner.__call__`: the evidence is selected before the audit. -/
def run (s : ResearchSnapshot) (reports : List FirmReport) (lean : LeanValidationReport)
    (answers : Family → Except Err SpecialistResult) (answer : Except Err RedTeamReport) :
    Except Err (CIOAuditReport × RedTeamReport) := do
  let _ ← qualitativeEvidence s
  let fixed ← deterministicAudit A s reports lean
  flow s reports fixed answers answer

end Money.Cio
