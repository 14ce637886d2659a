import Money.Env
import Money.Market
import Money.Qualification

/-! The frozen universe, its screen and the live builder: `scanner/universe.py`. A member without usable data stays in
    the universe with a reason. -/

namespace Money
open Checked

/-- Equality of the sets, or of the dictionaries with distinct keys, that two lists are the items of. -/
def sameSet {α : Type} [DecidableEq α] (a b : List α) : Prop := a ⊆ b ∧ b ⊆ a

instance decidableSameSet {α : Type} [DecidableEq α] (a b : List α) : Decidable (sameSet a b) :=
  inferInstanceAs (Decidable (_ ∧ _))

/-! ### Frozen membership -/

structure FrozenUniverseMember where
  instrument : InstrumentMetadata
  qualificationHash : Hash
  validUntil : Int
  snapshotHash : Option Hash := none
  evidenceStatus : String
  deriving DecidableEq

structure QualifiedUniverseSnapshot where
  observedAt : Int
  validUntil : Int
  members : List FrozenUniverseMember
  sourceUniverseHash : Option Hash := none
  hash : Hash := ""
  deriving DecidableEq

/-- `UniverseScreenPolicy`, with the bounds of its contract. -/
structure UniverseScreenPolicy where
  maximumCandidates : Nat := 5
  observationWindow : Nat := 20
  candidates : 1 ≤ maximumCandidates ∧ maximumCandidates ≤ 20 := by decide
  window : 20 ≤ observationWindow ∧ observationWindow ≤ 60 := by decide
  deriving DecidableEq

inductive ScreenState where
  | selected | outsideAttentionBound | unresolvedData
  deriving DecidableEq

structure UniverseScreenEntry where
  ticker : String
  snapshotHash : Option Hash
  averageDailyValueGbp : Option Rat := none
  evidenceIds : List String := []
  state : ScreenState
  reason : String
  deriving DecidableEq

structure UniverseScreen where
  universeHash : Hash
  policy : UniverseScreenPolicy
  methodologyHash : Hash
  entries : List UniverseScreenEntry
  selectedTickers : List String
  hash : Hash := ""
  deriving DecidableEq

structure UniversePlatform extends Platform where
  reviewHash : EligibilityReview → Hash
  membershipHash : QualifiedUniverseSnapshot → Hash
  methodologyHash : UniverseScreenPolicy → Hash
  screenHash : UniverseScreen → Hash

def isStatus (value : String) : Bool :=
  value ≠ "" && value.toList.all fun c => c.isUpper || c.isDigit || c == '_'

variable (U : UniversePlatform)

def FrozenUniverseMember.qualified (m : FrozenUniverseMember) (observedAt : Int) : Except Err Unit := do
  let failures ← eligibilityFailures U.toPlatform (some m.instrument) {} observedAt
  require (failures = []) (.value "UNIVERSE_MEMBER_NOT_QUALIFIED")
  require (observedAt < m.validUntil ∧ m.validUntil ≤ m.instrument.verifiedAt + eligibilityMaximumAge)
    (.value "UNIVERSE_MEMBER_EXPIRED")
  require (∀ c ∈ m.instrument.ethicalClearance, m.validUntil ≤ c.validUntil)
    (.value "UNIVERSE_MEMBER_ETHICAL_EXPIRY_EXCEEDED")
  require (m.snapshotHash.isSome = true ↔ m.evidenceStatus = "READY") (.value "UNIVERSE_EVIDENCE_STATUS_INVALID")

/-- `frozen_membership`, with the statuses of the members: the validator of a universe, which seals its hash. -/
def QualifiedUniverseSnapshot.frozenMembership (u : QualifiedUniverseSnapshot) : Except Err QualifiedUniverseSnapshot := do
  require (∀ m ∈ u.members, isStatus m.evidenceStatus = true) (.value "UNIVERSE_MEMBER_FIELD_INVALID")
  let tickers := u.members.map (·.instrument.ticker)
  require (tickers = Text.sortedSet tickers) (.value "UNIVERSE_MEMBERSHIP_NOT_CANONICAL")
  require (u.observedAt < u.validUntil) (.value "UNIVERSE_MEMBERSHIP_EXPIRED")
  u.members.forM fun m => m.qualified U u.observedAt
  require (u.members ≠ [] → (u.members.map (·.validUntil)).min? = some u.validUntil) (.value "UNIVERSE_VALIDITY_MISMATCH")
  require (u.hash = "" ∨ u.hash = U.membershipHash { u with hash := "" }) (.value "UNIVERSE_SNAPSHOT_HASH_MISMATCH")
  pure { u with hash := U.membershipHash { u with hash := "" } }

/-- Every record of the snapshot is fresh, undisputed and was available at its cutoff. -/
def ResearchSnapshot.currentAt (s : ResearchSnapshot) (at_ : Int) : Prop :=
  s.evidence ≠ [] ∧ ∀ r ∈ s.evidence, at_ < r.freshUntil ∧ r.conflicting = false ∧ r.availableAt (s.cutoffFor r) = true
  deriving Decidable

def EligibilityReview.expiry (review : EligibilityReview) : Int :=
  let expiry := min review.identifiers.validUntil (review.metadata.verifiedAt + eligibilityMaximumAge)
  match review.metadata.ethicalClearance with
  | none => expiry
  | some clearance => min expiry clearance.validUntil

def freezeMember (snapshots : List ResearchSnapshot) (at_ : Int) (missing : List (String × String))
    (review : EligibilityReview) : Except Err FrozenUniverseMember := do
  review.identifiers.requireCurrent at_
  match snapshots.find? fun s => s.ticker = review.metadata.ticker with
  | none =>
    pure {
      instrument := review.metadata
      qualificationHash := U.reviewHash review
      validUntil := review.expiry
      evidenceStatus := (missing.lookup review.metadata.ticker).getD "RESEARCH_EVIDENCE_REQUIRED" }
  | some s => do
    require (s.instrument = review.metadata ∧ s.createdAt ≤ at_) (.value "UNIVERSE_SNAPSHOT_IDENTITY_MISMATCH")
    require (s.universeHash = none) (.value "UNIVERSE_SNAPSHOT_ALREADY_BOUND")
    require (s.currentAt at_) (.value "UNIVERSE_SNAPSHOT_EVIDENCE_INVALID")
    pure {
      instrument := review.metadata
      qualificationHash := U.reviewHash review
      validUntil := (s.evidence.map (·.freshUntil)).foldl min review.expiry
      snapshotHash := some s.hash
      evidenceStatus := "READY" }

def byTicker (reviews : List EligibilityReview) : List EligibilityReview :=
  reviews.insertionSort fun a b => Text.before a.metadata.ticker b.metadata.ticker = true

/-- `freeze_qualified_universe`: the complete admitted set, also the members that lack data. -/
def freezeQualifiedUniverse (reviews : List EligibilityReview) (snapshots : List ResearchSnapshot) (at_ : Int)
    (missing : List (String × String)) (source : Option Hash := none) : Except Err QualifiedUniverseSnapshot := do
  require (reviews ≠ []) (.value "UNIVERSE_QUALIFIED_MEMBERS_REQUIRED")
  let tickers := reviews.map (·.metadata.ticker)
  require (tickers.Nodup ∧ (reviews.map (·.identifiers.trading212Id)).Nodup) (.value "UNIVERSE_DUPLICATE_IDENTITY")
  require ((snapshots.map (·.ticker)).Nodup ∧ ∀ s ∈ snapshots, s.ticker ∈ tickers)
    (.value "UNIVERSE_SNAPSHOT_MEMBERSHIP_MISMATCH")
  let members ← (byTicker reviews).mapM (freezeMember U snapshots at_ missing)
  let validUntil ← demand (members.map (·.validUntil)).min? (.value "min() iterable argument is empty")
  QualifiedUniverseSnapshot.frozenMembership U { observedAt := at_, validUntil, members, sourceUniverseHash := source }

/-! ### The screen -/

/-- `auditable`: the validator of a screen, which seals its hash. -/
def UniverseScreen.auditable (s : UniverseScreen) : Except Err UniverseScreen := do
  require (s.methodologyHash = U.methodologyHash s.policy) (.value "UNIVERSE_SCREEN_METHODOLOGY_MISMATCH")
  require (s.selectedTickers = (s.entries.filter fun e => e.state = .selected).map (·.ticker) ∧
      s.selectedTickers.length ≤ s.policy.maximumCandidates)
    (.value "UNIVERSE_SCREEN_BOUND_INVALID")
  require (s.entries.map (·.ticker)).Nodup (.value "UNIVERSE_SCREEN_DUPLICATE_IDENTITY")
  require (s.hash = "" ∨ s.hash = U.screenHash { s with hash := "" }) (.value "UNIVERSE_SCREEN_HASH_MISMATCH")
  pure { s with hash := U.screenHash { s with hash := "" } }

def recordBefore (a b : EvidenceRecord) : Prop :=
  a.observationTime < b.observationTime ∨
    (a.observationTime = b.observationTime ∧ Text.before a.evidenceId b.evidenceId = true)
  deriving Decidable

def screenWindow (policy : UniverseScreenPolicy) (s : ResearchSnapshot) : List (EvidenceRecord × PriceBar) :=
  let records := (priceRecords s).insertionSort fun a b => recordBefore a.1 b.1
  records.drop (records.length - policy.observationWindow)

def CompleteWindow (policy : UniverseScreenPolicy) (at_ : Int) (s : ResearchSnapshot) : Prop :=
  (screenWindow policy s).length = policy.observationWindow ∧
    (∀ r ∈ screenWindow policy s,
      at_ < r.1.freshUntil ∧ r.1.conflicting = false ∧ r.1.availableAt s.priceCutoff = true) ∧
    ((screenWindow policy s).map (·.1.observationTime)).Nodup
  deriving Decidable

def tradedValue (P : Platform) (quoteCurrency : String) (bar : PriceBar) : Except Err Rat := do
  require (bar.currency.code = quoteCurrency) (.value "UNIVERSE_SCREEN_CURRENCY_MISMATCH")
  let price ← priceGbp P bar.close bar.currency
  pure (P.round (price * bar.volume))

def meanOf (P : Platform) (values : List Rat) : Rat :=
  P.round (values.foldl (fun total v => P.round (total + v)) 0 / values.length)

structure UniverseScore where
  value : Rat
  ticker : String
  snapshotHash : Hash
  evidenceIds : List String
  deriving DecidableEq

inductive Screened where
  | unresolved (entry : UniverseScreenEntry)
  | scored (score : UniverseScore)
  deriving DecidableEq

def Screened.score? : Screened → Option UniverseScore
  | .scored score => some score
  | .unresolved _ => none

def Screened.entry? : Screened → Option UniverseScreenEntry
  | .scored _ => none
  | .unresolved entry => some entry

def screenMember (snapshots : List ResearchSnapshot) (at_ : Int) (policy : UniverseScreenPolicy)
    (m : FrozenUniverseMember) : Except Err Screened :=
  let snapshot := snapshots.find? fun s => s.ticker = m.instrument.ticker
  match m.snapshotHash with
  | none => do
    require (snapshot = none) (.value "UNIVERSE_SCREEN_EVIDENCE_NOT_FROZEN")
    pure (.unresolved {
      ticker := m.instrument.ticker, snapshotHash := none, state := .unresolvedData, reason := m.evidenceStatus })
  | some hash => do
    let s ← demand (snapshot.filter fun s => s.hash = hash) (.value "UNIVERSE_SCREEN_EVIDENCE_NOT_FROZEN")
    if CompleteWindow policy at_ s then do
      let values ← (screenWindow policy s).mapM fun r => tradedValue U.toPlatform s.instrument.quoteCurrency r.2
      pure (.scored {
        value := meanOf U.toPlatform values, ticker := s.ticker, snapshotHash := s.hash
        evidenceIds := (screenWindow policy s).map (·.1.evidenceId) })
    else
      pure (.unresolved {
        ticker := m.instrument.ticker, snapshotHash := some s.hash, state := .unresolvedData
        reason := "SCREEN_CURRENT_PIT_HISTORY_REQUIRED" })

def UniverseScore.before (a b : UniverseScore) : Prop :=
  b.value < a.value ∨ (a.value = b.value ∧ Text.before a.ticker b.ticker = true)
  deriving Decidable

def UniverseScore.entry (policy : UniverseScreenPolicy) (score : UniverseScore) (rank : Nat) : UniverseScreenEntry where
  ticker := score.ticker
  snapshotHash := some score.snapshotHash
  averageDailyValueGbp := some score.value
  evidenceIds := score.evidenceIds
  state := if rank < policy.maximumCandidates then .selected else .outsideAttentionBound
  reason := "AUDITABLE_LIQUIDITY_ATTENTION_ORDER"

def screenQualifiedUniverse (u : QualifiedUniverseSnapshot) (snapshots : List ResearchSnapshot) (at_ : Int)
    (policy : UniverseScreenPolicy) : Except Err UniverseScreen := do
  require (u.observedAt ≤ at_ ∧ at_ < u.validUntil) (.value "UNIVERSE_SCREEN_EXPIRED")
  require ((snapshots.map (·.ticker)).Nodup ∧ ∀ s ∈ snapshots, s.ticker ∈ u.members.map (·.instrument.ticker))
    (.value "UNIVERSE_SCREEN_MEMBERSHIP_MISMATCH")
  let screened ← u.members.mapM (screenMember U snapshots at_ policy)
  let scores := (screened.filterMap Screened.score?).insertionSort UniverseScore.before
  let ranked := scores.zipIdx.map fun (score, rank) => score.entry policy rank
  let unresolved := (screened.filterMap Screened.entry?).insertionSort fun a b => Text.before a.ticker b.ticker = true
  UniverseScreen.auditable U {
    universeHash := u.hash
    policy
    methodologyHash := U.methodologyHash policy
    entries := ranked ++ unresolved
    selectedTickers := (ranked.filter fun e => e.state = .selected).map (·.ticker) }

/-- `UniverseResearchContext`; its `universe` is named `frozen` here. -/
structure UniverseResearchContext where
  frozen : QualifiedUniverseSnapshot
  screen : UniverseScreen
  snapshots : List ResearchSnapshot
  deriving DecidableEq

def UniverseResearchContext.read (c : UniverseResearchContext) : UniverseContext where
  members := c.frozen.members.map fun m => { ticker := m.instrument.ticker, snapshotHash := m.snapshotHash }
  observedAt := c.frozen.observedAt
  validUntil := c.frozen.validUntil
  universeHash := c.frozen.hash
  selectedTickers := c.screen.selectedTickers
  snapshots := c.snapshots

/-- `complete_frozen_context`: the screen is the one of the universe and can be reproduced. -/
def UniverseResearchContext.complete (c : UniverseResearchContext) : Except Err Unit := do
  require (c.screen.universeHash = c.frozen.hash) (.value "UNIVERSE_CONTEXT_SCREEN_MISMATCH")
  require (sameSet (c.screen.entries.map (·.ticker)) (c.frozen.members.map (·.instrument.ticker)))
    (.value "UNIVERSE_CONTEXT_MEMBERSHIP_MISMATCH")
  let expected := c.frozen.members.filterMap fun m => m.snapshotHash.map fun h => (m.instrument.ticker, h)
  require (c.snapshots.length = expected.length ∧
      sameSet (c.snapshots.map fun s => (s.ticker, s.hash)) expected)
    (.value "UNIVERSE_CONTEXT_EVIDENCE_INCOMPLETE")
  let recomputed ← screenQualifiedUniverse U c.frozen c.snapshots c.frozen.observedAt c.screen.policy
  require (recomputed = c.screen) (.value "UNIVERSE_CONTEXT_SCREEN_NOT_REPRODUCIBLE")

/-- `UniverseResearchContext.model_validate` of the fields of a context: the nested contracts first. -/
def UniverseResearchContext.validate (c : UniverseResearchContext) : Except Err UniverseResearchContext := do
  c.frozen.members.forM fun m => m.instrument.ethicalClearance.forM U.consistentScreening
  let frozen ← c.frozen.frozenMembership U
  let screen ← c.screen.auditable U
  let snapshots ← c.snapshots.mapM U.validateSnapshot
  let context : UniverseResearchContext := { frozen, screen, snapshots }
  context.complete U
  pure context

/-! ### The live builder -/

/-- How the snapshot builder of a member may fail; anything but the first four leaves the call. -/
inductive BuildFailure where
  | value | os | timeout | provider
  | other (e : Err)
  deriving DecidableEq

def BuildFailure.reason : BuildFailure → Except Err String
  | .provider => .ok "RESEARCH_PROVIDER_UNAVAILABLE"
  | .value | .os | .timeout => .ok "RESEARCH_EVIDENCE_NOT_VERIFIED"
  | .other e => .error e

structure UniverseCall (U : UniversePlatform) where
  /-- The outcome of `validate_sources`, where the builder has one. -/
  sources : Option (Except Err Unit)
  current : Except Err (List InstrumentMetadata)
  reviews : Except Err (List EligibilityReview)
  now : Int
  frozenAt : Int
  build : InstrumentMetadata → Except BuildFailure (Frozen U.toPlatform)

namespace UniverseCall
variable {U} (c : UniverseCall U)

def admission : Except Err (List EligibilityReview) := do
  c.sources.forM id
  let current ← c.current
  let reviews ← c.reviews
  require ((reviews.map (·.metadata.ticker)).Nodup ∧ (current.map (·.ticker)).Nodup)
    (.value "UNIVERSE_DUPLICATE_IDENTITY")
  let admitted ← current.mapM fun item =>
    demand ((reviews.find? fun r => r.metadata.ticker = item.ticker).filter fun r => r.metadata = item)
      (.value "UNIVERSE_LIVE_REVIEW_MISMATCH")
  require (admitted ≠ []) (.value "UNIVERSE_QUALIFIED_MEMBERS_REQUIRED")
  admitted.forM fun review => do
    review.identifiers.requireCurrent c.now
    let failures ← eligibilityFailures U.toPlatform (some review.metadata) {} c.now
    require (failures = []) (.value "UNIVERSE_MEMBER_NOT_QUALIFIED")
  pure admitted

def acquire (review : EligibilityReview) : Except Err (EligibilityReview × (Frozen U.toPlatform ⊕ String)) :=
  match c.build review.metadata with
  | .ok value =>
    pure (review, if value.snapshot.instrument = review.metadata ∧ value.snapshot.universeHash = none then .inl value
      else .inr "RESEARCH_EVIDENCE_NOT_VERIFIED")
  | .error failure => do
    let reason ← failure.reason
    pure (review, .inr reason)

def fresh (review : EligibilityReview) : Except Err Bool := do
  let failures ← eligibilityFailures U.toPlatform (some review.metadata) {} c.frozenAt
  pure (decide (failures = [] ∧ review.identifiers.verifiedAt ≤ c.frozenAt ∧ c.frozenAt < review.identifiers.validUntil))

def Ready (s : ResearchSnapshot) : Prop := s.createdAt ≤ c.frozenAt ∧ s.currentAt c.frozenAt
  deriving Decidable

/-- The snapshots that were acquired of members that are still fresh. -/
def evidence (fresh : List EligibilityReview) (acquired : List (EligibilityReview × (Frozen U.toPlatform ⊕ String))) :
    List ResearchSnapshot :=
  (acquired.filterMap fun a => a.2.getLeft?.map (·.snapshot)).filter fun s => s.ticker ∈ fresh.map (·.metadata.ticker)

def missing (acquired : List (EligibilityReview × (Frozen U.toPlatform ⊕ String))) (evidence : List ResearchSnapshot) :
    List (String × String) :=
  acquired.filterMap (fun a => a.2.getRight?.map fun reason => (a.1.metadata.ticker, reason)) ++
    (evidence.filter fun s => ¬ c.Ready s).map fun s => (s.ticker, "RESEARCH_CURRENT_EVIDENCE_REQUIRED")

def rebuild (policy : UniverseScreenPolicy) (admitted : List EligibilityReview) : Except Err UniverseResearchContext := do
  let acquired ← (byTicker admitted).mapM c.acquire
  let marks ← admitted.mapM c.fresh
  let fresh := ((admitted.zip marks).filter (·.2)).map (·.1)
  let evidence := evidence fresh acquired
  let ready := evidence.filter fun s => c.Ready s
  let frozen ← freezeQualifiedUniverse U fresh ready c.frozenAt (c.missing acquired evidence)
  let screen ← screenQualifiedUniverse U frozen ready c.frozenAt policy
  let context : UniverseResearchContext := { frozen, screen, snapshots := ready }
  context.complete U
  pure context

/-- The cached context may be used: the sources were checked, it is recent, and no review and no member changed. -/
def Cached (context : UniverseResearchContext) (admitted : List EligibilityReview) : Prop :=
  c.sources.isSome ∧ (context.frozen.observedAt ≤ c.now ∧
      c.now < min context.frozen.validUntil (context.frozen.observedAt + minutes 10)) ∧
    sameSet (admitted.map fun r => (r.metadata.ticker, U.reviewHash r))
      (context.frozen.members.map fun m => (m.instrument.ticker, m.qualificationHash))
  deriving Decidable

/-- The context that a call works with, and whether it was built anew. -/
def contextOf (policy : UniverseScreenPolicy) (state : Option UniverseResearchContext) (admitted : List EligibilityReview) :
    Except Err UniverseResearchContext :=
  match state.filter fun context => c.Cached context admitted with
  | some context => .ok context
  | none => c.rebuild policy admitted

end UniverseCall

/-- The bound snapshot of the requested instrument, if the screen selected it. -/
def UniverseResearchContext.candidate (context : UniverseResearchContext) (instrument : InstrumentMetadata) :
    Except Err ResearchSnapshot := do
  require (instrument.ticker ∈ context.screen.selectedTickers) (.value "UNIVERSE_ATTENTION_BOUND_NOT_SELECTED")
  let selected ← demand (context.snapshots.find? fun s => s.ticker = instrument.ticker) .absent
  require (selected.instrument = instrument) (.value "UNIVERSE_REQUESTED_IDENTITY_MISMATCH")
  bindUniverseSnapshot U.toPlatform context.read selected

/-- `UniverseSnapshotBuilder.__call__`. A failed admission keeps the old context, a failed rebuild none. -/
def UniverseCall.run {U : UniversePlatform} (c : UniverseCall U) (policy : UniverseScreenPolicy)
    (state : Option UniverseResearchContext) (instrument : InstrumentMetadata) :
    Except Err ResearchSnapshot × Option UniverseResearchContext :=
  match c.admission with
  | .error e => (.error e, state)
  | .ok admitted =>
    match c.contextOf policy state admitted with
    | .error e => (.error e, none)
    | .ok context => (context.candidate U instrument, some context)

def contextFor (state : Option UniverseResearchContext) (s : ResearchSnapshot) : Except Err UniverseResearchContext := do
  let context ← demand (state.filter fun context => s.universeHash = some context.frozen.hash)
    (.value "UNIVERSE_RESEARCH_CONTEXT_UNAVAILABLE")
  require (s.ticker ∈ context.screen.selectedTickers) (.value "UNIVERSE_ATTENTION_BOUND_NOT_SELECTED")
  let original ← demand (context.snapshots.find? fun item => item.ticker = s.ticker) .absent
  let bound ← bindUniverseSnapshot U.toPlatform context.read original
  require (bound = s) (.value "UNIVERSE_RESEARCH_CONTEXT_MISMATCH")
  pure context

end Money
