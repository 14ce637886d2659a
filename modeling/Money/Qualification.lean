import Money.Governance

/-! `classify_row` of `qualification/universe.py`: whether a row of the instrument master becomes an eligibility review,
    and until when. A time that is missing or malformed is `none`. -/

namespace Money
open Checked

/-! ### Identifiers -/

structure InstrumentIdentifiers where
  ticker : String
  companyName : String
  trading212Id : String
  exchangeTicker : String
  exchange : String
  isin : String
  quoteCurrency : String
  companiesHouseNumber : Option String := none
  providerSymbols : List (String × String) := []
  verifiedAt : Int
  validUntil : Int
  source : String
  deriving DecidableEq

namespace InstrumentIdentifiers

/-- The text has a first character of one class, then up to `most` characters of another one. -/
def isWord (first rest : Char → Bool) (most : Nat) (value : String) : Bool :=
  match value.toList with
  | [] => false
  | c :: cs => first c && cs.all rest && cs.length ≤ most

def isTicker (value : String) : Bool :=
  isWord (fun c => c.isUpper || c.isDigit) (fun c => c.isUpper || c.isDigit || c ∈ ['.', '_', '-']) 31 value

def isProvider (value : String) : Bool :=
  isWord (fun c => c.isLower || c.isDigit) (fun c => c.isLower || c.isDigit || c ∈ ['_', '-']) 49 value

def isSymbol (value : String) : Bool :=
  isWord Char.isAlphanum (fun c => c.isAlphanum || c ∈ ['.', '_', '/', '-']) 99 value

def isCompanyNumber (value : String) : Bool :=
  value.length = 8 && value.toList.all fun c => c.isUpper || c.isDigit

/-- The digits of an ISIN: a letter stands for the two digits of its place after nine. -/
def isinDigits (isin : String) : List Nat :=
  isin.toList.flatMap fun c => if c.isAlpha then [(c.toNat - 55) / 10, (c.toNat - 55) % 10] else [c.toNat - 48]

/-- The sum that the check digit makes a multiple of ten: from the right, every second digit counts twice. -/
def checkSum (isin : String) : Nat :=
  ((isinDigits isin).reverse.zipIdx.map fun (d, i) =>
    let doubled := d * if i % 2 = 1 then 2 else 1
    doubled / 10 + doubled % 10).sum

def bounded (value : String) (most : Nat) : Prop := 0 < value.length ∧ value.length ≤ most
  deriving Decidable

def uniqueMapping (i : InstrumentIdentifiers) : Except Err Unit := do
  require (isTicker i.ticker = true ∧ bounded i.companyName 200 ∧ bounded i.trading212Id 100 ∧
      bounded i.exchangeTicker 32 ∧ bounded i.exchange 20 ∧ Platform.isIsin i.isin = true ∧
      i.quoteCurrency ∈ ["GBP", "GBX"] ∧ (∀ n ∈ i.companiesHouseNumber, isCompanyNumber n = true) ∧
      0 < i.source.length)
    (.value "IDENTIFIER_FIELD_INVALID")
  require (∀ entry ∈ i.providerSymbols, isProvider entry.1 = true ∧ isSymbol entry.2 = true)
    (.value "invalid provider mapping")
  require (i.providerSymbols.map (·.1)).Nodup (.value "ambiguous provider mapping")
  require (i.verifiedAt < i.validUntil) (.value "invalid identifier validity")
  require (checkSum i.isin % 10 = 0) (.value "invalid ISIN check digit")

def requireCurrent (i : InstrumentIdentifiers) (now : Int) : Except Err Unit :=
  require (i.verifiedAt ≤ now ∧ now < i.validUntil) (.value "IDENTIFIER_MAPPING_STALE")

end InstrumentIdentifiers

/-! ### Provider rights -/

inductive IssuerSourcePolicy where
  | companiesHouse | officialDisclosures
  deriving DecidableEq

def issuerSourcePolicy (environ : List (String × String)) : Except Err IssuerSourcePolicy :=
  match (environ.lookup "MONEY_ISSUER_SOURCE_POLICY").getD "companies_house" with
  | "companies_house" => .ok .companiesHouse
  | "official_disclosures" => .ok .officialDisclosures
  | _ => .error (.value "ISSUER_SOURCE_POLICY_INVALID")

def usageMode (upper : String → String) (environ : List (String × String)) : Except Err UsageMode :=
  match upper (Text.strip ((environ.lookup "MONEY_USAGE_MODE").getD "hosted_commercial_production")) with
  | "PERSONAL_RESEARCH" => .ok .personalResearch
  | "HOSTED_COMMERCIAL_PRODUCTION" => .ok .hostedCommercialProduction
  | _ => .error (.value "MONEY_USAGE_MODE_INVALID")

structure PersonalUseAudit where
  provider : String
  datasets : List String
  deriving DecidableEq

def PersonalUseAudit.requireLocalUse (a : PersonalUseAudit) (provider dataset : String) : Except Err Unit :=
  require (a.provider = provider ∧ dataset ∈ a.datasets) (.value "PERSONAL_USE_AUDIT_COVERAGE_MISSING")

structure ProviderQualification where
  provider : String
  datasets : List String
  geography : List String := ["GB"]
  instrumentTypes : List String := ["STOCK"]
  currencies : List String := ["GBP", "GBX"]
  originalPublication : Bool := false
  productionQualified : Bool := false
  developmentOnly : Bool := false
  qualifiedBy : Option String := none
  qualificationReportHash : Option Hash := none
  verifiedAt : Int
  validUntil : Int
  redistributionProhibited : Bool := false
  personalUse : Option PersonalUseAudit := none
  deriving DecidableEq

def ProviderQualification.inForce (q : ProviderQualification) (now : Int) : Prop :=
  q.verifiedAt ≤ now ∧ now < q.validUntil
  deriving Decidable

/-- Personal use by its own audit, any other use by a signed production qualification. -/
def ProviderQualification.requireScope (q : ProviderQualification) (dataset : String) (mode : UsageMode) : Except Err Unit :=
  match q.personalUse, mode with
  | some audit, .personalResearch => do
    audit.requireLocalUse q.provider dataset
    Checked.require (q.productionQualified = false ∧ q.redistributionProhibited = true)
      (.value "PERSONAL_USE_CANNOT_CLAIM_PRODUCTION_RIGHTS")
  | personal, _ =>
    Checked.require (q.productionQualified = true ∧ q.qualifiedBy.getD "" ≠ "" ∧ personal = none)
      (.value "PROVIDER_UNQUALIFIED")

/-- `ProviderQualification.require`, with `str.lower` given. -/
def ProviderQualification.require (lower : String → String) (q : ProviderQualification) (dataset : String) (now : Int)
    (historical : Bool) (mode : UsageMode) : Except Err Unit := do
  Checked.require
    (q.developmentOnly = false ∧ lower q.provider ≠ "yfinance" ∧ q.qualificationReportHash.getD "" ≠ "")
    (.value "PROVIDER_UNQUALIFIED")
  q.requireScope dataset mode
  Checked.require (dataset ∈ q.datasets ∧ q.inForce now) (.value "PROVIDER_COVERAGE_MISSING")
  Checked.require (historical = true → q.originalPublication = true)
    (.value "PROVIDER_HISTORICAL_AVAILABILITY_UNKNOWN")

/-! ### Rows -/

inductive QualificationState where
  | excluded (code : String)
  | unresolvedIdentity | unresolvedProviderMapping | unresolvedEthical | unresolvedLiveRetrieval
  | expired | staleEvidence | qualified | productionNotEvaluated
  deriving DecidableEq

inductive EthicalState where
  | notYetScreened
  | screened (result : ClearanceResult)
  deriving DecidableEq

inductive EvidenceFreshness where
  | currentMetadata | expired | staleProviderEvidence | providerObservationsMissing
  deriving DecidableEq

structure EligibilityReview where
  metadata : InstrumentMetadata
  identifiers : InstrumentIdentifiers
  eligibilityProofHash : Hash
  ethicalProofHash : Hash
  deriving DecidableEq

structure DatasetFact where
  status : String := ""
  recordCount : Int := 0
  latestObservation : Option Int := none
  deriving DecidableEq

/-- A value of a row: missing or null, not of the fields that its contract has, or with them. -/
inductive Given (α : Type) where
  | missing
  | malformed
  | fields (value : α)
  deriving DecidableEq

structure MasterRow where
  qualificationState : QualificationState
  reasons : List String := []
  isin : Option String := none
  name : String := ""
  quoteCurrency : Option String := none
  observedAt : Option Int := none
  validUntil : Option Int := none
  identifiers : Given InstrumentIdentifiers := .missing
  /-- `issuer_facts.CountryISO`. -/
  countryIso : Option String := none
  issuerIdentityVerified : Bool := false
  companiesHouseState : String := ""
  providerDatasets : List (String × DatasetFact) := []
  providerEvidenceObservedAt : Option Int := none
  providerEvidenceValidUntil : Option Int := none
  instrumentRowSha256 : Option Hash := none
  exchangeRowSha256 : Option Hash := none
  brokerResponseRefs : Option (List Hash) := none
  ethicalState : EthicalState := .notYetScreened
  ethicalScreening : Option EthicalClearance := none
  evidenceFreshness : EvidenceFreshness := .currentMetadata
  eligibilityReview : Option EligibilityReview := none
  deriving DecidableEq

/-- What is known of an issuer's screening: an older review also has the company that it was made for. -/
structure Assessment where
  clearance : EthicalClearance
  entryCompany : Option String := none
  validUntil : Int
  proof : Hash
  deriving DecidableEq

structure EligibilityJoin where
  metadata : InstrumentMetadata
  identifiers : InstrumentIdentifiers
  brokerRowHash : Hash
  exchangeRowHash : Hash
  brokerResponses : List Hash
  deriving DecidableEq

/-- The clock and the surroundings of a qualification run. What files decide is a function of what is looked up in them.
    -/
structure QualificationContext where
  platform : Platform
  environ : List (String × String) := []
  now : Int
  upper : String → String
  lower : String → String
  /-- `re.sub(r"\W", "", value)`. -/
  wordChars : String → String
  clearanceHash : EthicalClearance → Hash
  artifact : EligibilityJoin → Except Err Hash
  corroborated : MasterRow → Int → Bool

abbrev Ethics := List (String × Assessment)

/-- The rights per provider; `none` where the record is not a valid qualification. -/
abbrev Rights := List (String × Option ProviderQualification)

/-! ### The checks on the clock -/

namespace MasterRow
variable (row : MasterRow) (now : Int)

/-- The broker has shown the instrument within the last day, and the row is not past its own end. -/
def membership : Option (Int × Int) :=
  match row.observedAt, row.validUntil with
  | some observed, some expires =>
    if observed ≤ now ∧ now < min expires (observed + eligibilityMaximumAge) then some (observed, expires) else none
  | _, _ => none

def fact (dataset : String) : DatasetFact := (row.providerDatasets.lookup dataset).getD {}

def latestBar : Option Int := (row.fact "eodhd:ohlcv").latestObservation

end MasterRow

/-- The window of provider evidence first observed at `first`, which runs out at `last`. -/
def evidenceCurrent (first last now : Int) : Prop := first ≤ now ∧ now < min last (first + eligibilityMaximumAge)
  deriving Decidable

def maximumLatestAge : Int := hours 96

def barCurrent (bar now : Int) : Prop := bar ≤ now ∧ now ≤ bar + maximumLatestAge
  deriving Decidable

/-! ### Classification -/

/-- The local variables of `classify_row`: the row, the state so far and the reasons against admission. -/
structure Progress where
  row : MasterRow
  state : QualificationState := .qualified
  reasons : List String
  deriving DecidableEq

namespace Progress

def note (p : Progress) (reason : String) : Progress := { p with reasons := p.reasons ++ [reason] }

/-- A condition is missing: the first one that is decides the state. -/
def block (p : Progress) (state : QualificationState) (reason : String) : Progress :=
  { p.note reason with state := if p.state = .qualified then state else p.state }

def stale (p : Progress) (reason : String) : Progress :=
  { p.note reason with
    state := .staleEvidence, row := { p.row with evidenceFreshness := .staleProviderEvidence } }

end Progress

section
variable (ctx : QualificationContext)

/-- The identifiers of the row if they are valid; they block where they are not valid or not current. -/
def readIdentifiers (p : Progress) : Option InstrumentIdentifiers × Progress :=
  let blocked := p.block .unresolvedProviderMapping "EXACT_CURRENT_PROVIDER_IDENTITY_REQUIRED"
  match p.row.identifiers with
  | .fields i =>
    match i.uniqueMapping with
    | .ok _ =>
      match i.requireCurrent ctx.now with
      | .ok _ => (some i, p)
      | .error _ => (some i, blocked)
    | .error _ => (none, blocked)
  | _ => (none, blocked)

def sameCompany (entry company : String) : Prop :=
  ctx.platform.casefold (ctx.wordChars entry) = ctx.platform.casefold (ctx.wordChars company)
  deriving Decidable

/-- The screening of the issuer: the row is excluded, or the run goes on with what may be used of it. -/
def screen (ethics : Ethics) (identifiers : Option InstrumentIdentifiers) (p : Progress) :
    Except MasterRow (Option Assessment × Progress) :=
  match ethics.lookup (p.row.isin.getD "") with
  | none => .ok (none, p.block .unresolvedEthical "ISSUER_ETHICAL_SCREENING_REQUIRED")
  | some assessed =>
    let clearance := assessed.clearance
    let row := { p.row with ethicalState := .screened clearance.result, ethicalScreening := some clearance }
    let company := (identifiers.map (·.companyName)).getD p.row.name
    if (∀ isin ∈ p.row.isin, isin ∉ clearance.isins) ∨
        ∃ entry ∈ assessed.entryCompany, ¬ sameCompany ctx entry company then
      .ok (none, { p.note "ETHICAL_COMPANY_IDENTITY_MISMATCH" with
        row := { row with ethicalState := .screened .unknown }, state := .unresolvedEthical })
    else
      match clearance.result with
      | .fail => .error { row with
          qualificationState := .excluded "ETHICAL", reasons := p.reasons ++ ["PROHIBITED_MATERIAL_ACTIVITY"] }
      | .unknown =>
        .ok (none, { p with
          row, state := if p.state = .qualified then .unresolvedEthical else p.state
          reasons := p.reasons ++
            if clearance.reasons = [] then ["ISSUER_ETHICAL_EVIDENCE_INSUFFICIENT"] else clearance.reasons })
      | .pass => .ok (some assessed, { p with row })

def required (policy : IssuerSourcePolicy) (country : Option String) : List String :=
  if policy = .companiesHouse ∧ country = some "GB" then ["eodhd", "companies-house"] else ["eodhd"]

def isCountry (country : Option String) : Bool :=
  match country with
  | some value => value.length = 2 && value.toList.all Char.isUpper
  | none => false

/-- `apply_issuer_sources` on the fields that are read here. -/
def applyIssuerSources (row : MasterRow) : MasterRow × Bool :=
  if ctx.corroborated row ctx.now = true then
    ({ row with countryIso := some "GB", issuerIdentityVerified := true }, true)
  else (row, false)

/-- The issuer's identity and country, by the route that the policy selects. -/
def identifyIssuer (policy : IssuerSourcePolicy) (identifiers : Option InstrumentIdentifiers) (p : Progress) : Progress :=
  match policy with
  | .officialDisclosures =>
    let (row, applied) := applyIssuerSources ctx p.row
    let p := { p with row }
    if applied = false ∨ row.issuerIdentityVerified = false then
      p.block .unresolvedProviderMapping "AUTHORITATIVE_ISSUER_IDENTITY_AND_JURISDICTION_REQUIRED"
    else p
  | .companiesHouse =>
    if p.row.countryIso = some "GB" then
      if p.row.companiesHouseState ≠ "MAPPED" ∨ (identifiers.bind (·.companiesHouseNumber)).getD "" = "" then
        p.block .unresolvedProviderMapping "VERIFIED_ISSUER_JURISDICTION_AND_COMPANY_IDENTITY_REQUIRED"
      else p
    else if p.row.companiesHouseState = "NOT_APPLICABLE" ∧ isCountry p.row.countryIso = true then p
    else p.block .unresolvedProviderMapping "VERIFIED_ISSUER_JURISDICTION_REQUIRED"

def datasetsOf (provider : String) : List String :=
  if provider = "eodhd" then ["ohlcv", "corporate_action", "news"] else ["filing"]

/-- One provider's rights cover its datasets now, and the currency of the row. -/
def qualify (row : MasterRow) (provider : String) (rights : Option ProviderQualification) : Except Err Int := do
  let q ← demand rights (.value "PROVIDER_QUALIFICATION_INVALID")
  (datasetsOf provider).forM fun dataset => do
    q.require ctx.lower dataset ctx.now false (← usageMode ctx.upper ctx.environ)
  let currency ← demand row.quoteCurrency .absent
  require (currency ∈ q.currencies ∧ "GB" ∈ q.geography ∧ "STOCK" ∈ q.instrumentTypes)
    (.value "PROVIDER_SCOPE_MISMATCH")
  pure q.validUntil

/-- One provider of the loop: the expiry of its rights is kept, or the state is blocked. -/
def qualifyNext (rights : Rights) (acc : List Int × Progress) (provider : String) : List Int × Progress :=
  match rights.lookup provider with
  | none => acc
  | some record =>
    match qualify ctx acc.2.row provider record with
    | .ok expiry => (acc.1 ++ [expiry], acc.2)
    | .error _ =>
      (acc.1, acc.2.block .unresolvedProviderMapping "PROVIDER_CURRENCY_DATASET_OR_FRESHNESS_COVERAGE_REQUIRED")

def requireRights (rights : Rights) (providers : List String) (p : Progress) : Except Err Progress :=
  if ∀ provider ∈ providers, (rights.lookup provider).isSome = true then .ok p
  else do
    let mode ← usageMode ctx.upper ctx.environ
    pure (p.block .unresolvedProviderMapping
      (if mode = .personalResearch then "PROVIDER_DATASET_QUALIFICATION_REQUIRED"
        else "PROVIDER_RIGHTS_AND_DATASET_QUALIFICATION_REQUIRED"))

/-- The rights of the required providers, with the instants at which they expire. -/
def checkRights (rights : Rights) (providers : List String) (p : Progress) : Except Err (List Int × Progress) := do
  let p ← requireRights ctx rights providers p
  pure (providers.foldl (qualifyNext ctx rights) ([], p))

def neededDatasets (providers : List String) : List String :=
  ["eodhd:ohlcv", "eodhd:corporate_action", "eodhd:news"] ++
    if "companies-house" ∈ providers then ["companies-house:company", "companies-house:filing"] else []

def observationRequired (dataset : String) : String :=
  let name := dataset.toList.map fun c => if c = ':' then '_' else c.toUpper
  "CURRENT_" ++ String.ofList name ++ "_OBSERVATION_REQUIRED"

/-- An empty answer is recorded honestly, never promoted to a qualifying observation. -/
def checkDataset (p : Progress) (dataset : String) : Progress :=
  let fact := p.row.fact dataset
  if fact.status ≠ "RETRIEVED" ∨ fact.recordCount < 1 then
    p.block .unresolvedProviderMapping (observationRequired dataset)
  else p

def checkWindow (p : Progress) : Progress :=
  match p.row.providerEvidenceObservedAt, p.row.providerEvidenceValidUntil with
  | some first, some last =>
    if evidenceCurrent first last ctx.now then p else p.stale "PROVIDER_EVIDENCE_EXPIRED_OR_FUTURE"
  | _, _ => p

def checkBar (p : Progress) : Progress :=
  match p.row.latestBar with
  | some bar => if barCurrent bar ctx.now then p else p.stale "OHLCV_EVIDENCE_EXPIRED_OR_FUTURE"
  | none => p

def timestampsMissing (row : MasterRow) : Prop :=
  row.providerEvidenceObservedAt = none ∨ row.providerEvidenceValidUntil = none ∨ row.latestBar = none
  deriving Decidable

/-- The observations of the providers are timestamped, and neither they nor the latest bar is too old. -/
def checkTimestamps (p : Progress) : Progress :=
  if p.row.identifiers = .missing then p
  else
    let q := checkBar ctx (checkWindow ctx p)
    if timestampsMissing p.row then
      let q' := q.block .unresolvedProviderMapping "CURRENT_TIMESTAMPED_PROVIDER_OBSERVATIONS_REQUIRED"
      if q'.state = .staleEvidence then q'
      else { q' with row := { q'.row with evidenceFreshness := .providerObservationsMissing } }
    else q

/-- The earliest of the expiries that an admission carries into its review. -/
def admissionDeadline (observed expires : Int) (identifiers : InstrumentIdentifiers) (assessed : Assessment)
    (providerExpiries : List Int) (evidenceUntil : Int) : Int :=
  (identifiers.validUntil :: assessed.validUntil :: providerExpiries ++
    [evidenceUntil, observed + eligibilityMaximumAge]).foldl min expires

def admittedMetadata (identifiers : InstrumentIdentifiers) (assessed : Assessment) (observed : Int) : InstrumentMetadata :=
  { ticker := identifiers.ticker, company := identifiers.companyName, instrumentType := "STOCK"
    quoteCurrency := identifiers.quoteCurrency, currentlyAvailable := some true
    businessActivities := assessed.clearance.businessActivities, activitiesVerified := true
    ethicalClearance := some assessed.clearance, verifiedAt := observed
    source := "hash-bound live broker membership and material-exposure evidence", provider := "trading212"
    sourceId := identifiers.trading212Id }

/-- `matching_identity` with the patterns of the fields. -/
def EligibilityReview.matchingIdentity (r : EligibilityReview) : Except Err Unit := do
  require (Platform.isHash r.eligibilityProofHash = true ∧ Platform.isHash r.ethicalProofHash = true)
    (.value "LIVE_ELIGIBILITY_FIELD_INVALID")
  require (r.metadata.ticker = r.identifiers.ticker ∧ r.metadata.quoteCurrency = r.identifiers.quoteCurrency ∧
      r.metadata.provider ≠ "money-demo")
    (.value "LIVE_ELIGIBILITY_IDENTITY_MISMATCH")
  r.metadata.ethicalClearance.forM fun clearance => do
    require (r.identifiers.isin ∈ clearance.isins) (.value "ETHICAL_CLEARANCE_IDENTITY_MISMATCH")
    require (r.ethicalProofHash = ctx.clearanceHash clearance) (.value "ETHICAL_CLEARANCE_PROOF_MISMATCH")

def sealReview (row : MasterRow) (metadata : InstrumentMetadata) (identifiers : InstrumentIdentifiers)
    (assessed : Assessment) : Except Err EligibilityReview := do
  let brokerRowHash ← demand row.instrumentRowSha256 .absent
  let exchangeRowHash ← demand row.exchangeRowSha256 .absent
  let brokerResponses ← demand row.brokerResponseRefs .absent
  let proof ← ctx.artifact { metadata, identifiers, brokerRowHash, exchangeRowHash, brokerResponses }
  let review : EligibilityReview :=
    { metadata, identifiers, eligibilityProofHash := proof, ethicalProofHash := assessed.proof }
  review.matchingIdentity ctx
  pure review

/-- A `ValueError` or a missing key, which `classify_row` answers itself; any other exception leaves it. -/
def Err.contractual : Err → Bool
  | .value _ | .absent => true
  | _ => false

def reject (p : Progress) : MasterRow :=
  { p.row with
    qualificationState := .unresolvedIdentity, reasons := p.reasons ++ ["ELIGIBILITY_CONTRACT_REJECTED"] }

/-- What the body of the last `try` made of an exception. -/
def guarded (p : Progress) (result : Except Err (MasterRow × Option EligibilityReview)) :
    Except Err (MasterRow × Option EligibilityReview) :=
  match result with
  | .ok r => .ok r
  | .error e => if e.contractual = true then .ok (reject p, none) else .error e

/-- The body of the last `try`, once the deadline is known to be ahead. -/
def admitUntil (deadline observed : Int) (identifiers : InstrumentIdentifiers) (assessed : Assessment) (p : Progress) :
    Except Err (MasterRow × Option EligibilityReview) := do
  let dated := { identifiers with validUntil := deadline }
  match dated.uniqueMapping with
  | .error _ => pure (reject p, none)
  | .ok _ =>
    -- The row carries the new identifiers from here on, whatever becomes of the review.
    let p := { p with row := { p.row with identifiers := .fields dated } }
    let metadata := admittedMetadata dated assessed observed
    guarded p do
      let failures ← eligibilityFailures ctx.platform (some metadata) {} ctx.now
      if failures ≠ [] then
        pure ({ p.row with
          qualificationState := if "ELIGIBILITY_STALE" ∈ failures then .staleEvidence else .unresolvedEthical
          reasons := failures }, none)
      else do
        let review ← sealReview ctx p.row metadata dated assessed
        pure ({ p.row with
          qualificationState := .qualified, reasons := [], eligibilityReview := some review
          validUntil := some deadline }, some review)

def admitReview (observed expires : Int) (identifiers : InstrumentIdentifiers) (assessed : Assessment)
    (providerExpiries : List Int) (p : Progress) : Except Err (MasterRow × Option EligibilityReview) :=
  match p.row.providerEvidenceValidUntil with
  | none => .ok (reject p, none)
  | some evidenceUntil =>
    let deadline := admissionDeadline observed expires identifiers assessed providerExpiries evidenceUntil
    if deadline ≤ ctx.now then .ok (reject p, none)
    else admitUntil ctx deadline observed identifiers assessed p

/-- The end of `classify_row`: whatever is missing, or the admission. -/
def conclude (admissionAllowed : Bool) (observed expires : Int) (identifiers : Option InstrumentIdentifiers)
    (assessed : Option Assessment) (providerExpiries : List Int) (p : Progress) :
    Except Err (MasterRow × Option EligibilityReview) :=
  match p.state, identifiers, assessed with
  | .qualified, some identifiers, some assessed =>
    if admissionAllowed = true then admitReview ctx observed expires identifiers assessed providerExpiries p
    else .ok ({ p.row with
      qualificationState := .unresolvedLiveRetrieval, reasons := ["LIVE_AUTHENTICATED_REFRESH_REQUIRED"] }, none)
  | state, _, _ => .ok ({ p.row with qualificationState := state, reasons := Text.sortedSet p.reasons }, none)

def QualificationState.settled : QualificationState → Bool
  | .excluded _ | .unresolvedIdentity => true
  | _ => false

/-- The rest of `classify_row`, once the issuer's screening is known. -/
def classifyScreened (rights : Rights) (admissionAllowed : Bool) (observed expires : Int)
    (identifiers : Option InstrumentIdentifiers) (assessed : Option Assessment) (p : Progress) :
    Except Err (MasterRow × Option EligibilityReview) := do
  let policy ← issuerSourcePolicy ctx.environ
  -- The country is read before the issuer's documents may fill it in.
  let providers := required policy p.row.countryIso
  let (providerExpiries, p) ← checkRights ctx rights providers (identifyIssuer ctx policy identifiers p)
  let p := checkTimestamps ctx ((neededDatasets providers).foldl checkDataset p)
  conclude ctx admissionAllowed observed expires identifiers assessed providerExpiries p

/-- The part of `classify_row` after the broker's membership. -/
def classifyMember (row : MasterRow) (ethics : Ethics) (rights : Rights) (admissionAllowed : Bool)
    (observed expires : Int) : Except Err (MasterRow × Option EligibilityReview) :=
  let (identifiers, p) := readIdentifiers ctx { row, reasons := row.reasons }
  match screen ctx ethics identifiers p with
  | .error excluded => .ok (excluded, none)
  | .ok (assessed, p) => classifyScreened ctx rights admissionAllowed observed expires identifiers assessed p

def MasterRow.reset (row : MasterRow) : MasterRow :=
  { row with ethicalState := .notYetScreened, evidenceFreshness := .currentMetadata, eligibilityReview := none }

/-- `classify_row`: the row as it is left, and the review if the row is admitted. -/
def classifyRow (row : MasterRow) (ethics : Ethics) (rights : Rights) (admissionAllowed : Bool) :
    Except Err (MasterRow × Option EligibilityReview) :=
  if row.qualificationState.settled = true then .ok (row.reset, none)
  else
    match row.membership ctx.now with
    | none => .ok ({ row.reset with
        qualificationState := .expired, evidenceFreshness := .expired
        reasons := row.reasons ++ ["BROKER_MEMBERSHIP_EXPIRED"] }, none)
    | some (observed, expires) => classifyMember ctx row.reset ethics rights admissionAllowed observed expires

end

end Money
