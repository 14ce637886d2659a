import Mathlib.Data.List.Infix
import Mathlib.Data.List.Sort
import Money.Governance

/-! `research/ethics.py`: one screening of an issuer, reused as long as nothing it rests on changes. The evaluator may
    answer anything, raise, or change a state of its own. -/

namespace Money
open Checked

def maximumEvidenceBytes : Nat := 160000

/-! ### Contracts -/

inductive EvidenceKind where
  | annualReport | regulatoryFiling | businessProfile | businessDescription | news
  deriving DecidableEq

def EvidenceKind.name : EvidenceKind → String
  | .annualReport => "annual_report"
  | .regulatoryFiling => "regulatory_filing"
  | .businessProfile => "business_profile"
  | .businessDescription => "business_description"
  | .news => "news"

structure IssuerIdentity where
  issuerKey : String
  legalName : String
  isins : List String
  identityEvidenceHashes : List Hash
  deriving DecidableEq

structure EthicalEvidence where
  sourceId : String
  provider : String
  issuerKey : String
  content : String
  contentSha256 : Hash
  publishedAt : Option Int := none
  retrievedAt : Int
  evidenceKind : EvidenceKind
  deriving DecidableEq

structure GlobalSourceApproval where
  provider : String
  evidenceHashes : List Hash
  validUntil : Int
  deriving DecidableEq

structure EthicalCitation where
  sourceId : String
  evidenceHash : Hash
  quote : String
  deriving DecidableEq

structure BusinessActivity where
  activity : String
  citations : List EthicalCitation
  deriving DecidableEq

inductive Conclusion where
  | noMaterialExposure | materialExposure | unknown | conflicting
  deriving DecidableEq

inductive ConclusionBasis where
  | explicitNonParticipation | completeBusinessScope | explicitExposure | insufficient
  deriving DecidableEq

structure ExclusionAssessment where
  category : String
  conclusion : Conclusion
  basis : ConclusionBasis
  citations : List EthicalCitation := []
  deriving DecidableEq

structure EthicalAssessment where
  issuerKey : String
  legalName : String
  completeMaterialBusinessScope : Bool
  scopeCitations : List EthicalCitation := []
  businessActivities : List BusinessActivity := []
  assessments : List ExclusionAssessment
  conflictingEvidence : Bool := false
  unresolvedQuestions : List String := []
  deriving DecidableEq

def EthicalAssessment.citations (a : EthicalAssessment) : List EthicalCitation :=
  a.scopeCitations ++ a.businessActivities.flatMap (·.citations) ++ a.assessments.flatMap (·.citations)

structure EvidenceReference where
  sourceId : String
  provider : String
  contentSha256 : Hash
  publishedAt : Option Int
  retrievedAt : Int
  evidenceKind : EvidenceKind
  deriving DecidableEq

structure IssuerScreening where
  issuer : IssuerIdentity
  cacheKey : Hash
  clearance : EthicalClearance
  sourceReferences : List EvidenceReference := []
  globalRightsEvidenceHashes : List Hash := []
  assessment : Option EthicalAssessment := none
  evaluatorIdentity : Option String := none
  reused : Bool := false
  deriving DecidableEq

structure EthicsPlatform extends Platform where
  /-- `str.lower`. -/
  lower : String → String
  /-- The SHA-256 digest of a text. -/
  sha256 : String → Hash
  /-- `content_hash` of an issuer's key and name, its material evidence and the policy hash. -/
  materialHash : String → String → List (List String) → Hash → Hash
  /-- `EthicalAssessment.model_validate(strict_response_json(_))`. -/
  readAssessment : String → Except Err EthicalAssessment

/-- What `_prompt` tells the evaluator besides its fixed instructions. -/
structure Prompt where
  issuer : IssuerIdentity
  excludedActivities : List String
  documents : List EthicalEvidence
  deriving DecidableEq

/-- An evaluator answers a prompt with a text or raises, and leaves a state behind either way. -/
def Evaluator (σ : Type) : Type := Prompt → σ → Except Err String × σ

/-- The arguments of `screen_issuer` but the evaluator and the previous screening. -/
structure ScreeningRequest where
  issuer : IssuerIdentity
  evidence : List EthicalEvidence
  now : Int
  sourceApprovals : List GlobalSourceApproval := []
  evaluatorIdentity : Option String := none
  validityDays : Int := 30
  excludedActivities : List String := Money.excludedActivities
  maximumEvidenceBytes : Nat := Money.maximumEvidenceBytes
  credibleContradiction : Bool := false
  evidenceIntegrityFailed : Bool := false
  deriving DecidableEq

section
variable (T : EthicsPlatform)

/-! ### Assessment -/

/-- `sources.get(source_id)`: a later document replaces an earlier one. -/
def sourceOf (evidence : List EthicalEvidence) (sourceId : String) : Option EthicalEvidence :=
  evidence.reverse.find? fun e => e.sourceId = sourceId

def EthicalCitation.supported (evidence : List EthicalEvidence) (c : EthicalCitation) : Prop :=
  ∃ source ∈ sourceOf evidence c.sourceId, source.contentSha256 = c.evidenceHash ∧
    c.quote.toList <:+: source.content.toList
  deriving Decidable

def citationsValid (evidence : List EthicalEvidence) (citations : List EthicalCitation) : Prop :=
  citations ≠ [] ∧ ∀ c ∈ citations, c.supported evidence
  deriving Decidable

/-- The screening's own normal form of an activity, which keeps every blank and hyphen as an underscore. -/
def normalizedActivity (value : String) : String :=
  String.ofList ((T.lower (Text.strip value)).toList.map fun c => if c = '-' ∨ c = ' ' then '_' else c)

/-- `scope_valid`: headlines alone cannot establish comprehensive issuer-wide activity scope. -/
def scopeValid (evidence : List EthicalEvidence) (a : EthicalAssessment) : Prop :=
  a.completeMaterialBusinessScope = true ∧ citationsValid evidence a.scopeCitations ∧
    ∃ c ∈ a.scopeCitations, ∃ source ∈ sourceOf evidence c.sourceId, source.evidenceKind ≠ .news
  deriving Decidable

def activitiesValid (evidence : List EthicalEvidence) (a : EthicalAssessment) : Prop :=
  a.businessActivities ≠ [] ∧ (∀ b ∈ a.businessActivities, citationsValid evidence b.citations) ∧
    ∀ b ∈ a.businessActivities,
      normalizedActivity T b.activity ∉ ["unknown", "unverified", "unclassified", "n/a"]
  deriving Decidable

def exposed (evidence : List EthicalEvidence) (item : ExclusionAssessment) : Prop :=
  item.conclusion = .materialExposure ∧ item.basis = .explicitExposure ∧ citationsValid evidence item.citations
  deriving Decidable

def clears (evidence : List EthicalEvidence) (a : EthicalAssessment) (item : ExclusionAssessment) : Prop :=
  item.conclusion = .noMaterialExposure ∧ citationsValid evidence item.citations ∧
    (item.basis = .explicitNonParticipation ∨ item.basis = .completeBusinessScope ∧ scopeValid evidence a)
  deriving Decidable

def openReason (evidence : List EthicalEvidence) (a : EthicalAssessment) (item : ExclusionAssessment) : List String :=
  match item.conclusion with
  | .materialExposure => flag (¬ exposed evidence item) ("ETHICAL_UNSUPPORTED_EXPOSURE:" ++ item.category)
  | .noMaterialExposure => flag (¬ clears evidence a item) ("ETHICAL_UNSUPPORTED_CLEARANCE:" ++ item.category)
  | .unknown | .conflicting => ["ETHICAL_EXPOSURE_UNKNOWN:" ++ item.category]

/-- The reasons for which an assessment without exposure stays unknown. -/
def openReasons (evidence : List EthicalEvidence) (a : EthicalAssessment) (exclusions : List String) : List String :=
  a.assessments.flatMap (openReason evidence a) ++
    flag (∃ b ∈ a.businessActivities, normalizedActivity T b.activity ∈ exclusions)
      "ETHICAL_ACTIVITY_ASSESSMENT_CONFLICT" ++
    flag (¬ scopeValid evidence a) "ISSUER_WIDE_MATERIAL_BUSINESS_EVIDENCE_REQUIRED" ++
    flag (¬ activitiesValid T evidence a) "EVIDENCE_SUPPORTED_BUSINESS_ACTIVITIES_REQUIRED" ++
    flag (a.unresolvedQuestions ≠ []) "ETHICAL_MATERIAL_QUESTIONS_UNRESOLVED"

/-- `_assess`: the result, its reasons and the business activities. -/
def EthicalAssessment.assess (issuer : IssuerIdentity) (evidence : List EthicalEvidence) (a : EthicalAssessment)
    (exclusions : List String) : ClearanceResult × List String × List String :=
  let categories := a.assessments.map (·.category)
  let activities := a.businessActivities.map (·.activity)
  if a.issuerKey ≠ issuer.issuerKey ∨ a.legalName ≠ issuer.legalName then
    (.unknown, ["ETHICAL_ASSESSMENT_ISSUER_MISMATCH"], [])
  else if ¬ categories.Nodup ∨ ¬ CrossExaminationPacket.sameMembers categories exclusions then
    (.unknown, ["ETHICAL_EVERY_EXCLUSION_MUST_BE_ASSESSED"], [])
  else if a.conflictingEvidence = true ∨ ∃ item ∈ a.assessments, item.conclusion = .conflicting then
    (.unknown, ["ETHICAL_CONFLICTING_EVIDENCE"], [])
  else
    let exposure := a.assessments.filter fun item => exposed evidence item
    let reasons := openReasons T evidence a exclusions
    if exposure ≠ [] then
      (.fail, exposure.map fun item => "ETHICAL_MATERIAL_EXPOSURE:" ++ item.category, activities)
    else if reasons ≠ [] then (.unknown, reasons, [])
    else (.pass, ["ALL_CONFIGURED_EXCLUSIONS_SCREENED_FROM_ISSUER_EVIDENCE"], activities)

/-! ### Screening -/

def tupleBefore (a b : List String) : Prop :=
  a.map (fun s => s.toList.map Char.toNat) ≤ b.map fun s => s.toList.map Char.toNat
  deriving Decidable

/-- What a document contributes to the key of a screening; its dates are not part of it. -/
def EthicalEvidence.material (e : EthicalEvidence) : List String :=
  [e.sourceId, e.provider, e.contentSha256, e.evidenceKind.name]

def materialEvidence (evidence : List EthicalEvidence) : List (List String) :=
  (evidence.map (·.material)).insertionSort tupleBefore

def screeningCacheKey (issuer : IssuerIdentity) (evidence : List EthicalEvidence) (excluded : List String) :
    Except Err Hash := do
  pure (T.materialHash issuer.issuerKey issuer.legalName (materialEvidence evidence) (← T.ethicalPolicyHash excluded))

/-- `_clearance`: the signed summary, validated like one that is read. -/
def clearanceOf (issuer : IssuerIdentity) (evidence : List EthicalEvidence) (screenedAt validityDays : Int)
    (exclusions : List String) (result : ClearanceResult) (reasons activities : List String) :
    Except Err EthicalClearance := do
  let policyHash ← T.ethicalPolicyHash exclusions
  let unsigned : EthicalClearance := {
    result
    issuerKey := issuer.issuerKey
    isins := issuer.isins.foldr Text.insertSorted []
    screenedAt
    validUntil := screenedAt + days validityDays
    policyHash
    evidenceHashes := Text.sortedSet (evidence.map (·.contentSha256))
    assessedExclusions := exclusions
    reasons := distinct reasons
    businessActivities := Text.sortedSet activities
    screeningHash := "" }
  let signed := { unsigned with screeningHash := T.screeningHash unsigned }
  T.consistentScreening signed
  pure signed

def EthicalEvidence.reference (e : EthicalEvidence) : EvidenceReference where
  sourceId := e.sourceId
  provider := e.provider
  contentSha256 := e.contentSha256
  publishedAt := e.publishedAt
  retrievedAt := e.retrievedAt
  evidenceKind := e.evidenceKind

/-- What an answer of the evaluator is worth: the assessment in it, unless the answer is oversized or malformed. -/
def interpret (answer : Except Err String) : Option EthicalAssessment :=
  match answer with
  | .error _ => none
  | .ok raw =>
    if 100000 < raw.utf8ByteSize then none
    else
      match T.readAssessment raw with
      | .ok a => some a
      | .error _ => none

namespace ScreeningRequest
variable (r : ScreeningRequest)

/-- `approvals.get(provider)`, over the approvals that are still valid. -/
def approval (provider : String) : Option GlobalSourceApproval :=
  (r.sourceApprovals.filter fun a => r.now < a.validUntil).reverse.find? fun a => a.provider = provider

def rightsHashes : List Hash :=
  Text.sortedSet (r.evidence.flatMap fun e => ((r.approval e.provider).map (·.evidenceHashes)).getD [])

def refusals : List String :=
  flag (r.evidence = []) "ADMISSIBLE_ISSUER_BUSINESS_EVIDENCE_REQUIRED" ++
    flag (¬ (r.evidence.map (·.sourceId)).Nodup) "ETHICAL_DUPLICATE_SOURCE_ID" ++
    flag (∃ e ∈ r.evidence, T.sha256 e.content ≠ e.contentSha256) "ETHICAL_SOURCE_HASH_MISMATCH" ++
    flag (∃ e ∈ r.evidence, e.issuerKey ≠ r.issuer.issuerKey) "ETHICAL_SOURCE_ISSUER_MISMATCH" ++
    flag (∃ e ∈ r.evidence, (∃ p ∈ e.publishedAt, r.now < p) ∨ r.now < e.retrievedAt) "ETHICAL_FUTURE_EVIDENCE_DENIED" ++
    flag (∃ e ∈ r.evidence, r.approval e.provider = none) "GLOBAL_SOURCE_ETHICAL_USE_RIGHTS_REQUIRED" ++
    flag (r.maximumEvidenceBytes < (r.evidence.map (·.content.utf8ByteSize)).sum)
      "ETHICAL_EVIDENCE_EXCEEDS_BOUNDED_CONTEXT" ++
    flag (r.credibleContradiction = true) "ETHICAL_CREDIBLE_CONTRADICTION_REQUIRES_RESCREEN" ++
    flag (r.evidenceIntegrityFailed = true) "ETHICAL_SOURCE_NOT_ADMISSIBLE"

/-- The screening of this run, from its clearance and its assessment. -/
def screening (key : Hash) (clearance : EthicalClearance) (assessment : Option EthicalAssessment) : IssuerScreening where
  issuer := r.issuer
  cacheKey := key
  clearance
  sourceReferences := r.evidence.map (·.reference)
  globalRightsEvidenceHashes := r.rightsHashes
  assessment
  evaluatorIdentity := if assessment = none then none else r.evaluatorIdentity

/-- The previous screening and its assessment, where nothing they rest on has changed. -/
def unchanged (key policyHash : Hash) (previous : Option IssuerScreening) : Option (IssuerScreening × EthicalAssessment) := do
  let p ← previous
  let a ← p.assessment
  if r.refusals T = [] ∧ p.cacheKey = key ∧ p.clearance.screenedAt ≤ r.now ∧ r.now < p.clearance.validUntil ∧
      p.clearance.validUntil ≤ p.clearance.screenedAt + days r.validityDays ∧ p.clearance.policyHash = policyHash then
    some (p, a)
  else none

/-- The previous screening that is reused: its quotations and conclusions are checked again. -/
def reusable (key policyHash : Hash) (exclusions : List String) (previous : Option IssuerScreening) :
    Option (IssuerScreening × EthicalAssessment) :=
  (r.unchanged T key policyHash previous).filter fun (p, a) =>
    (a.assess T r.issuer r.evidence exclusions).1 = p.clearance.result

/-- The previous screening with the identity, the documents and the rights of this run. -/
def reuse (exclusions : List String) (p : IssuerScreening) (a : EthicalAssessment) : Except Err IssuerScreening := do
  let (result, reasons, activities) := a.assess T r.issuer r.evidence exclusions
  let clearance ← clearanceOf T r.issuer r.evidence p.clearance.screenedAt
    ((p.clearance.validUntil - p.clearance.screenedAt) / days 1) exclusions result reasons activities
  pure { p with
    issuer := r.issuer
    clearance
    sourceReferences := r.evidence.map (·.reference)
    globalRightsEvidenceHashes := r.rightsHashes
    reused := true }

/-- The screening of a run that reuses nothing, from the assessment that it obtained. -/
def conclude (key : Hash) (exclusions : List String) (assessment : Option EthicalAssessment) (reasons : List String) :
    Except Err IssuerScreening := do
  let (result, assessed, activities) :=
    match assessment with
    | some a => a.assess T r.issuer r.evidence exclusions
    | none => (.unknown, [], [])
  let clearance ← clearanceOf T r.issuer r.evidence r.now r.validityDays exclusions result (reasons ++ assessed) activities
  pure (r.screening key clearance assessment)

end ScreeningRequest

inductive Consultation where
  | settled (screening : IssuerScreening)
  | pending (key : Hash) (exclusions : List String)

/-- `screen_issuer` up to the evaluator: a changed document, identity or policy invalidates what was screened before. -/
def ScreeningRequest.consult (r : ScreeningRequest) (previous : Option IssuerScreening) : Except Err Consultation := do
  require ((1 ≤ r.validityDays ∧ r.validityDays ≤ 365) ∧
      1 ≤ r.maximumEvidenceBytes ∧ r.maximumEvidenceBytes ≤ Money.maximumEvidenceBytes)
    (.value "ETHICAL_SCREENING_LIMIT_INVALID")
  let exclusions ← Platform.policyExclusions r.excludedActivities
  let key ← screeningCacheKey T r.issuer r.evidence exclusions
  let policyHash ← T.ethicalPolicyHash exclusions
  match r.reusable T key policyHash exclusions previous with
  | some (p, a) => .settled <$> r.reuse T exclusions p a
  | none =>
    if r.refusals T = [] then pure (.pending key exclusions)
    else .settled <$> r.conclude T key exclusions none (r.refusals T)

def ScreeningRequest.answered (r : ScreeningRequest) (key : Hash) (exclusions : List String) (answer : Except Err String) :
    Except Err IssuerScreening :=
  match interpret T answer with
  | none => r.conclude T key exclusions none ["ETHICAL_EVALUATION_FAILED_OR_UNSUPPORTED"]
  | some a => r.conclude T key exclusions (some a) []

/-- `screen_issuer`: screen once, or reuse unchanged, unexpired issuer evidence. -/
def screenIssuer {σ : Type} (r : ScreeningRequest) (evaluator : Option (Evaluator σ)) (previous : Option IssuerScreening)
    (s : σ) : Except Err IssuerScreening × σ :=
  match r.consult T previous with
  | .error e => (.error e, s)
  | .ok (.settled screening) => (.ok screening, s)
  | .ok (.pending key exclusions) =>
    match evaluator with
    | none => (r.conclude T key exclusions none ["ETHICAL_EVIDENCE_EVALUATOR_REQUIRED"], s)
    | some ask =>
      let (answer, s') := ask ⟨r.issuer, exclusions, r.evidence⟩ s
      (r.answered T key exclusions answer, s')

end
end Money
