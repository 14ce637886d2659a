import Money.Ethics
import Money.Qualification

/-! `qualification/universe_ethics.py`: the screenings of all issuers in one run, with a budget for the evaluator and a
    cursor that tells where the next run begins. What the run finds on disk is part of its input. -/

namespace Money
open Checked
open InstrumentIdentifiers (bounded)

structure ProviderRights where
  admissibleDatasets : List String
  /-- `source_use_valid_until`, or else `valid_until`. -/
  deadline : Option Int
  evidenceHashes : List Hash

structure EthicalDocumentInput where
  isin : String
  provider : String
  dataset : String
  evidenceFile : String
  publishedAt : Option Int := none
  retrievedAt : Int
  evidenceKind : EvidenceKind := .annualReport

/-- A fact of the provider evidence, with the text of its material fields. -/
structure IssuerFact where
  provider : String
  dataset : String
  raw : String
  observedAt : Int

/-- A document that `validated_issuer_documents` returns. -/
structure OfficialDocument where
  provider : String
  dataset : String
  textPath : String
  textSha256 : Hash
  publishedAt : Option Int := none
  retrievedAt : Int
  evidenceKind : EvidenceKind

structure IssuerGroup where
  key : String
  name : String
  /-- The identifiers of the members, one for each. -/
  isins : List String
  facts : List IssuerFact := []
  /-- The official documents of each member; none where their validation raises. -/
  official : List (Option (List OfficialDocument)) := []

/-- How a run finds what an earlier one has written. -/
inductive Reading where
  | intact
  /-- Not readable or not valid, with one of the exceptions that the run catches. -/
  | unreadable
  /-- Nested too deeply for the parser, which the run does not catch. -/
  | nested
  deriving DecidableEq

def Reading.read {α : Type} (value : Option α) : Reading → Except Err (Option α)
  | .intact => .ok value
  | .unreadable => .ok none
  | .nested => .error .recursion

structure EthicsRun where
  now : Int
  validityDays : Int := 30
  /-- `MONEY_ETHICAL_SCREENINGS_PER_RUN`. -/
  maximum : Nat := 20
  rights : List (String × ProviderRights)
  inputs : List EthicalDocumentInput := []
  /-- The identifiers of malformed entries of the index. -/
  invalidInputs : List String := []
  groups : List IssuerGroup
  /-- The issuers are the keys of a dictionary. -/
  distinct : (groups.map (·.key)).Nodup
  /-- The text of a file; none where it cannot be read. -/
  files : String → Option String := fun _ => none
  identityHash : String → String → Hash
  /-- The configured evaluator, with the number of calls that the run has made before. -/
  evaluator : Option (Prompt → Nat → Except Err String) := none
  evaluatorIdentity : Option String := none
  legacy : Ethics := []
  cursorFile : Reading := .intact
  /-- The files of the persisted screenings, by issuer. -/
  screeningFiles : String → Reading := fun _ => .intact

structure EthicsState where
  cursor : Option String := none
  screenings : String → Option IssuerScreening := fun _ => none

section
variable (T : EthicsPlatform)

/-! ### Evidence -/

/-- The field bounds of a document and `actual_content_hash`. -/
def EthicalEvidence.valid (e : EthicalEvidence) : Prop :=
  bounded e.sourceId 500 ∧ bounded e.provider 100 ∧ bounded e.issuerKey 200 ∧ bounded e.content maximumEvidenceBytes ∧
    Platform.isHash e.contentSha256 = true ∧ T.sha256 e.content = e.contentSha256 ∧
    ∀ p ∈ e.publishedAt, p ≤ e.retrievedAt
  deriving Decidable

/-- The documents of an issuer, and whether some evidence was not admissible. -/
structure CollectedEvidence where
  documents : List EthicalEvidence := []
  invalid : Bool := false

namespace CollectedEvidence

def spoil (c : CollectedEvidence) : CollectedEvidence := { c with invalid := true }

/-- `documents[digest] = EthicalEvidence(..)`: a document of the same digest is replaced where it stands. -/
def put (c : CollectedEvidence) (e : EthicalEvidence) : CollectedEvidence :=
  if e.valid T then
    if ∃ d ∈ c.documents, d.sourceId = e.sourceId then
      { c with documents := c.documents.map fun d => if d.sourceId = e.sourceId then e else d }
    else { c with documents := c.documents ++ [e] }
  else c.spoil

end CollectedEvidence

def documentOf (key provider content : String) (publishedAt : Option Int) (retrievedAt : Int) (kind : EvidenceKind) :
    EthicalEvidence where
  sourceId := T.sha256 content
  provider := provider
  issuerKey := key
  content := content
  contentSha256 := T.sha256 content
  publishedAt := publishedAt
  retrievedAt := retrievedAt
  evidenceKind := kind

def contains (text part : String) : Prop := part.toList <:+: text.toList
  deriving Decidable

def companiesHouse : String := "companies-house:"

/-- The document names the registration number of the issuer and its legal name. -/
def companyBound (g : IssuerGroup) (content : String) : Prop :=
  companiesHouse.toList <+: g.key.toList ∧
    contains content (String.ofList (g.key.toList.drop companiesHouse.length)) ∧
    contains (T.casefold content) (T.casefold g.name)
  deriving Decidable

namespace EthicsRun
variable (run : EthicsRun)

def admissible (provider dataset : String) : Prop :=
  ∃ rights ∈ run.rights.lookup provider, dataset ∈ rights.admissibleDatasets
  deriving Decidable

/-- A current profile is admissible evidence, not a complete-business assertion. -/
def collectFact (g : IssuerGroup) (c : CollectedEvidence) (f : IssuerFact) : CollectedEvidence :=
  if run.admissible f.provider f.dataset then
    c.put T (documentOf T g.key f.provider f.raw none f.observedAt
      (if f.dataset = "issuer-profile" then .businessProfile else .businessDescription))
  else c

/-- A document of the index: it has to be readable, published before it was retrieved, and to name the issuer. -/
def collectInput (g : IssuerGroup) (c : CollectedEvidence) (item : EthicalDocumentInput) : CollectedEvidence :=
  if item.isin ∉ g.isins then c
  else if ¬ run.admissible item.provider item.dataset ∨ item.provider = "official-issuer" ∨
      ¬ "inputs/".toList <+: item.evidenceFile.toList then c.spoil
  else
    match run.files item.evidenceFile with
    | none => c.spoil
    | some content =>
      if content = "" ∨ run.now < item.retrievedAt ∨ (∃ p ∈ item.publishedAt, item.retrievedAt < p) then c.spoil
      else if (∀ isin ∈ g.isins, ¬ contains content isin) ∧ ¬ companyBound T g content then c.spoil
      else c.put T (documentOf T g.key item.provider content item.publishedAt item.retrievedAt item.evidenceKind)

/-- An official document, whose text has to be the one that was validated. -/
def collectOfficial (g : IssuerGroup) (c : CollectedEvidence) (d : OfficialDocument) : CollectedEvidence :=
  if run.admissible d.provider d.dataset then
    match run.files d.textPath with
    | none => c.spoil
    | some content =>
      if content = "" ∨ T.sha256 content ≠ d.textSha256 then c.spoil
      else c.put T (documentOf T g.key d.provider content d.publishedAt d.retrievedAt d.evidenceKind)
  else c

def collectMember (g : IssuerGroup) (c : CollectedEvidence) : Option (List OfficialDocument) → CollectedEvidence
  | none => c.spoil
  | some documents => documents.foldl (run.collectOfficial T g) c

def collect (g : IssuerGroup) : CollectedEvidence :=
  let start : CollectedEvidence := { invalid := g.isins.any (· ∈ run.invalidInputs) }
  g.official.foldl (run.collectMember T g) (run.inputs.foldl (run.collectInput T g) (g.facts.foldl (run.collectFact T g) start))

/-! ### One issuer -/

/-- The approval of a provider whose rights admit a dataset and have an end. -/
def approvalOf (entry : String × ProviderRights) : Option (Except Err GlobalSourceApproval) := do
  let deadline ← entry.2.deadline
  if entry.2.admissibleDatasets = [] then none
  else some (do
    require (entry.2.evidenceHashes ≠ []) (.value "ETHICAL_SOURCE_APPROVAL_INVALID")
    pure { provider := entry.1, evidenceHashes := entry.2.evidenceHashes, validUntil := deadline })

def identityOf (g : IssuerGroup) : Except Err IssuerIdentity := do
  let isins := Text.sortedSet g.isins
  require (bounded g.key 200 ∧ bounded g.name 300 ∧ isins ≠ [] ∧ ∀ i ∈ isins, Platform.isIsin i = true)
    (.value "ETHICAL_ISSUER_IDENTITY_INVALID")
  pure { issuerKey := g.key, legalName := g.name, isins, identityEvidenceHashes := [run.identityHash g.key g.name] }

def request (g : IssuerGroup) : Except Err ScreeningRequest := do
  let issuer ← run.identityOf g
  let sourceApprovals ← (run.rights.filterMap approvalOf).mapM id
  let collected := run.collect T g
  pure {
    issuer
    evidence := collected.documents
    now := run.now
    sourceApprovals
    evaluatorIdentity := run.evaluatorIdentity
    validityDays := run.validityDays
    evidenceIntegrityFailed := collected.invalid }

/-- The state of a run between two issuers. The number of calls is the number of issuers attempted. -/
structure Pass where
  state : EthicsState
  attempted : List String := []
  result : Ethics := []

/-- `bounded_evaluate`: count actual inference calls, not cache hits or missing evidence. -/
def boundedEvaluate (key : String) : Evaluator Pass := fun prompt p =>
  match run.evaluator with
  | none => (.error (.value "ETHICAL_INFERENCE_DEFERRED"), p)
  | some ask =>
    if run.maximum ≤ p.attempted.length then (.error (.value "ETHICAL_INFERENCE_DEFERRED"), p)
    else (ask prompt p.attempted.length,
      { p with attempted := p.attempted ++ [key], state := { p.state with cursor := some key } })

/-- The end of an issuer's clearance, which the approvals of its documents may bring forward. -/
def assessedUntil (r : ScreeningRequest) (clearance : EthicalClearance) : Int :=
  (r.sourceApprovals.filter fun a => ∃ d ∈ r.evidence, d.provider = a.provider).foldl
    (fun until_ a => min until_ a.validUntil) clearance.validUntil

/-- A machine failure or contradiction takes precedence over a historical pass. -/
def publish (r : ScreeningRequest) (screening : IssuerScreening) (proof : Hash) (result : Ethics) (isin : String) : Ethics :=
  if result.lookup isin = none ∨ screening.clearance.result = .fail ∨ r.evidence ≠ [] ∨
      r.evidenceIntegrityFailed = true then
    (isin, { clearance := screening.clearance, validUntil := assessedUntil r screening.clearance, proof }) :: result
  else result

def Pass.record (p : Pass) (g : IssuerGroup) (r : ScreeningRequest) (screening : IssuerScreening) : Pass :=
  { p with
    state := { p.state with screenings := Function.update p.state.screenings g.key (some screening) }
    result := r.issuer.isins.foldl (publish r screening screening.clearance.screeningHash) p.result }

/-- The persisted screening of an issuer, none where it cannot be read. -/
def previous (s : EthicsState) (key : String) : Except Err (Option IssuerScreening) :=
  (run.screeningFiles key).read (s.screenings key)

/-- The screening of one issuer, kept for the next run whatever its result. -/
def screenGroup (p : Pass) (g : IssuerGroup) : Pass × Option Err :=
  match run.request T g, run.previous p.state g.key with
  | .error e, _ => (p, some e)
  | .ok _, .error e => (p, some e)
  | .ok r, .ok previous =>
    match screenIssuer T r (some (run.boundedEvaluate g.key)) previous p with
    | (.error e, p') => (p', some e)
    | (.ok screening, p') => (p'.record g r screening, none)

def screenGroups : List IssuerGroup → Pass → Pass × Option Err
  | [], p => (p, none)
  | g :: gs, p =>
    match run.screenGroup T p g with
    | (p', some e) => (p', some e)
    | (p', none) => screenGroups gs p'

/-- The issuers in the order of their keys, beginning after the one that was attempted last if it is still there. -/
def ordered (cursor : Option String) : List IssuerGroup :=
  let sorted := run.groups.insertionSort fun a b => Text.before a.key b.key = true
  match cursor with
  | none => sorted
  | some key =>
    match sorted.findIdx? fun g => g.key = key with
    | none => sorted
    | some index => sorted.drop (index + 1) ++ sorted.take (index + 1)

/-- `screen_universe`: what the run leaves on disk and returns, and the exception that ended it early. -/
def screenUniverse (s : EthicsState) : Pass × Option Err :=
  if 1 ≤ run.validityDays ∧ run.validityDays ≤ 365 then
    if run.maximum ≤ 100000 then
      match run.cursorFile.read s.cursor with
      | .ok cursor => run.screenGroups T (run.ordered cursor) { state := s, result := run.legacy }
      | .error e => ({ state := s }, some e)
    else ({ state := s }, some (.value "ETHICAL_SCREENING_BUDGET_INVALID"))
  else ({ state := s }, some (.value "ETHICAL_CLEARANCE_VALIDITY_INVALID"))

end EthicsRun
end
end Money
