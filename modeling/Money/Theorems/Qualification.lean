import Money.Qualification
import Money.Generation
import Money.Theorems.Gates

/-! An admitted row against the clock. The window of a day after the provider evidence, the age of the latest bar and
    the end of the screening are not among the expiries of a review, which can outlive them. -/

namespace Money
open Checked List

theorem foldl_min_mem (first : Int) (rest : List Int) : rest.foldl min first ∈ first :: rest :=
  (List.min?_eq_some_iff.mp List.min?_cons').1

/-! ### What each check keeps -/

def QualificationState.Fresh (s : QualificationState) : Prop := s ≠ .expired ∧ s ≠ .staleEvidence

/-- `q` came from `p` by checks other than those of the timestamps: the evidence stays, and nothing has become stale. -/
structure Progress.Kept (p q : Progress) : Prop where
  identifiers : q.row.identifiers = p.row.identifiers
  isin : q.row.isin = p.row.isin
  quoteCurrency : q.row.quoteCurrency = p.row.quoteCurrency
  observedAt : q.row.observedAt = p.row.observedAt
  datasets : q.row.providerDatasets = p.row.providerDatasets
  first : q.row.providerEvidenceObservedAt = p.row.providerEvidenceObservedAt
  last : q.row.providerEvidenceValidUntil = p.row.providerEvidenceValidUntil
  qualified : q.state = .qualified → p.state = .qualified
  fresh : p.state.Fresh → q.state.Fresh

namespace Progress
variable {p q r : Progress}

theorem Kept.refl (p : Progress) : Kept p p := ⟨rfl, rfl, rfl, rfl, rfl, rfl, rfl, id, id⟩

theorem Kept.trans (h : Kept p q) (h' : Kept q r) : Kept p r where
  identifiers := h'.identifiers.trans h.identifiers
  isin := h'.isin.trans h.isin
  quoteCurrency := h'.quoteCurrency.trans h.quoteCurrency
  observedAt := h'.observedAt.trans h.observedAt
  datasets := h'.datasets.trans h.datasets
  first := h'.first.trans h.first
  last := h'.last.trans h.last
  qualified := h.qualified ∘ h'.qualified
  fresh := h'.fresh ∘ h.fresh

variable {state : QualificationState}

theorem block_not_qualified (blocking : state ≠ .qualified) (reason : String) :
    (p.block state reason).state ≠ .qualified := by
  simp only [block]
  split
  · exact blocking
  · assumption

theorem kept_block (fresh : state.Fresh) (blocking : state ≠ .qualified)
    (reason : String) : Kept p (p.block state reason) := by
  refine ⟨rfl, rfl, rfl, rfl, rfl, rfl, rfl, fun h => absurd h (block_not_qualified blocking reason), fun h => ?_⟩
  simp only [block]
  split
  · exact fresh
  · exact h

theorem kept_mapping (reason : String) : Kept p (p.block .unresolvedProviderMapping reason) :=
  kept_block ⟨by decide, by decide⟩ (by decide) reason

theorem kept_foldl {α : Type} {f : Progress → α → Progress} (kept : ∀ p a, Kept p (f p a)) :
    ∀ (l : List α) (p : Progress), Kept p (l.foldl f p)
  | [], p => .refl p
  | a :: l, p => (kept p a).trans (kept_foldl kept l (f p a))

end Progress

open Progress

variable {row : MasterRow} {out : Option EligibilityReview} {expires : Int} {allowed : Bool}

section
variable {ctx : QualificationContext} {ethics : Ethics} {rights : Rights}

theorem readIdentifiers_spec (ctx : QualificationContext) (p : Progress) : Kept p (readIdentifiers ctx p).2 ∧
    (readIdentifiers ctx p).2.row = p.row ∧ ∀ i ∈ (readIdentifiers ctx p).1, p.row.identifiers = .fields i ∧
      ((readIdentifiers ctx p).2.state = .qualified → i.requireCurrent ctx.now = .ok ()) := by
  unfold readIdentifiers
  split
  next i fields =>
    split
    · split
      next current =>
        refine ⟨.refl p, rfl, ?_⟩
        rintro _ ⟨⟩
        exact ⟨fields, fun _ => current⟩
      next =>
        refine ⟨kept_mapping _, rfl, ?_⟩
        rintro _ ⟨⟩
        exact ⟨fields, fun qualified => absurd qualified (block_not_qualified (by decide) _)⟩
    · exact ⟨kept_mapping _, rfl, nofun⟩
  · exact ⟨kept_mapping _, rfl, nofun⟩

variable {p q : Progress} {i : InstrumentMetadata} {P : Platform} {m : ResearchMandate} {deadline now : Int}
  {left : MasterRow} {identifiers : Option InstrumentIdentifiers} {assessed : Option Assessment}

theorem screen_spec (h : screen ctx ethics identifiers p = .ok (assessed, q)) : Kept p q ∧
    ∀ a ∈ assessed, ethics.lookup (p.row.isin.getD "") = some a ∧ q.row.countryIso = p.row.countryIso := by
  unfold screen at h
  split at h
  · cases h
    exact ⟨kept_block ⟨by decide, by decide⟩ (by decide) _, nofun⟩
  next a found =>
    dsimp only at h
    split at h
    · cases h
      exact ⟨⟨rfl, rfl, rfl, rfl, rfl, rfl, rfl, fun h => by simp at h, fun _ => by simp [QualificationState.Fresh]⟩, nofun⟩
    · split at h
      · cases h
      · cases h
        refine ⟨⟨rfl, rfl, rfl, rfl, rfl, rfl, rfl, fun h => ?_, fun h => ?_⟩, nofun⟩
        · dsimp only at h
          split at h
          · assumption
          · exact h
        · dsimp only
          split
          · simp [QualificationState.Fresh]
          · exact h
      · cases h
        refine ⟨⟨rfl, rfl, rfl, rfl, rfl, rfl, rfl, id, id⟩, ?_⟩
        rintro _ ⟨⟩
        exact ⟨found, rfl⟩

theorem identifyIssuer_kept (ctx : QualificationContext) (policy : IssuerSourcePolicy)
    (identifiers : Option InstrumentIdentifiers) (p : Progress) :
    Kept p (identifyIssuer ctx policy identifiers p) := by
  cases policy with
  | officialDisclosures =>
    have applied : Kept p { p with row := (applyIssuerSources ctx p.row).1 } := by
      unfold applyIssuerSources
      split
      · exact ⟨rfl, rfl, rfl, rfl, rfl, rfl, rfl, id, id⟩
      · exact .refl p
    simp only [identifyIssuer]
    split
    · exact applied.trans (kept_mapping _)
    · exact applied
  | companiesHouse =>
    simp only [identifyIssuer]
    split
    · split
      · exact kept_mapping _
      · exact .refl p
    · split
      · exact .refl p
      · exact kept_mapping _

theorem qualifyNext_kept (rights : Rights) (acc : List Int × Progress) (provider : String) :
    Kept acc.2 (qualifyNext ctx rights acc provider).2 := by
  unfold qualifyNext
  split
  · exact .refl _
  · split
    · exact .refl _
    · exact kept_mapping _

theorem qualifyAll_kept (rights : Rights) : ∀ (providers : List String) (acc : List Int × Progress),
      Kept acc.2 (providers.foldl (qualifyNext ctx rights) acc).2
  | [], acc => .refl acc.2
  | provider :: providers, acc =>
    (qualifyNext_kept rights acc provider).trans (qualifyAll_kept rights providers _)

variable {providers : List String}

theorem requireRights_kept (h : requireRights ctx rights providers p = .ok q) : Kept p q := by
  unfold requireRights at h
  split at h
  · obtain rfl := Except.ok.inj h
    exact .refl p
  · simp only [ok_iff] at h
    obtain ⟨mode, -, rfl⟩ := h
    exact kept_mapping _

theorem checkRights_kept {expiries : List Int} (h : checkRights ctx rights providers p = .ok (expiries, q)) : Kept p q := by
  simp only [checkRights, ok_iff] at h
  obtain ⟨p', noted, h⟩ := h
  obtain ⟨-, rfl⟩ := Prod.mk.inj h
  exact (requireRights_kept noted).trans (qualifyAll_kept rights providers ([], p'))

theorem checkDataset_kept (p : Progress) (dataset : String) : Kept p (checkDataset p dataset) := by
  unfold checkDataset
  dsimp only
  split
  · exact kept_mapping _
  · exact .refl p

/-! ### What stale evidence takes -/

/-- The provider evidence of the row is within its window, as far as it is there. -/
def EvidenceHolds (row : MasterRow) (now : Int) : Prop :=
  ∀ first ∈ row.providerEvidenceObservedAt, ∀ last ∈ row.providerEvidenceValidUntil, evidenceCurrent first last now

def BarHolds (row : MasterRow) (now : Int) : Prop := ∀ bar ∈ row.latestBar, barCurrent bar now

theorem Progress.Kept.latestBar (h : Kept p q) : q.row.latestBar = p.row.latestBar := by
  simp only [MasterRow.latestBar, MasterRow.fact, h.datasets]

theorem Progress.Kept.evidence (h : Kept p q) (holds : EvidenceHolds p.row now) : EvidenceHolds q.row now := by
  unfold EvidenceHolds
  rw [h.first, h.last]
  exact holds

theorem Progress.Kept.bar (h : Kept p q) (holds : BarHolds p.row now) : BarHolds q.row now := by
  unfold BarHolds
  rw [h.latestBar]
  exact holds

theorem checkWindow_eq (h : EvidenceHolds p.row ctx.now) : checkWindow ctx p = p := by
  unfold checkWindow
  split
  next first last observed expires => rw [if_pos (h first observed last expires)]
  · rfl

theorem checkBar_eq (h : BarHolds p.row ctx.now) : checkBar ctx p = p := by
  unfold checkBar
  split
  next bar latest => rw [if_pos (h bar latest)]
  · rfl

theorem checkTimestamps_kept (evidence : EvidenceHolds p.row ctx.now) (bar : BarHolds p.row ctx.now) :
    Kept p (checkTimestamps ctx p) := by
  unfold checkTimestamps
  split
  · exact .refl p
  · dsimp only
    rw [checkWindow_eq evidence, checkBar_eq bar]
    have kept := kept_mapping (p := p) "CURRENT_TIMESTAMPED_PROVIDER_OBSERVATIONS_REQUIRED"
    split
    · split
      · exact kept
      · exact ⟨rfl, rfl, rfl, rfl, rfl, rfl, rfl, kept.qualified, kept.fresh⟩
    · exact .refl p

theorem checkBar_stale (h : p.state = .staleEvidence) : (checkBar ctx p).state = .staleEvidence := by
  unfold checkBar
  split
  · split
    · exact h
    · rfl
  · exact h

theorem checkTimestamps_qualified (fields : p.row.identifiers ≠ .missing) (h : (checkTimestamps ctx p).state = .qualified) :
    ∃ first last bar, p.row.providerEvidenceObservedAt = some first ∧ p.row.providerEvidenceValidUntil = some last ∧
      p.row.latestBar = some bar ∧ evidenceCurrent first last ctx.now ∧ barCurrent bar ctx.now ∧
      checkTimestamps ctx p = p := by
  unfold checkTimestamps at h ⊢
  rw [if_neg fields] at h ⊢
  dsimp only at h ⊢
  split at h
  · have blocked : ((checkBar ctx (checkWindow ctx p)).block .unresolvedProviderMapping
        "CURRENT_TIMESTAMPED_PROVIDER_OBSERVATIONS_REQUIRED").state ≠ .qualified :=
      block_not_qualified (by decide) _
    split at h <;> exact absurd h blocked
  next present =>
    simp only [timestampsMissing, not_or] at present
    obtain ⟨first, hfirst⟩ := Option.ne_none_iff_exists'.mp present.1
    obtain ⟨last, hlast⟩ := Option.ne_none_iff_exists'.mp present.2.1
    obtain ⟨bar, hbar⟩ := Option.ne_none_iff_exists'.mp present.2.2
    have evidence : evidenceCurrent first last ctx.now := by
      by_contra late
      have stale : (checkWindow ctx p).state = .staleEvidence := by
        simp only [checkWindow, hfirst, hlast, if_neg late]
        rfl
      rw [checkBar_stale stale] at h
      cases h
    rw [checkWindow_eq (by simpa [EvidenceHolds, hfirst, hlast] using evidence)] at h ⊢
    have current : barCurrent bar ctx.now := by
      by_contra late
      simp only [checkBar, hbar, if_neg late] at h
      cases h
    refine ⟨first, last, bar, hfirst, hlast, hbar, evidence, current, ?_⟩
    rw [checkBar_eq (by simpa [BarHolds, hbar] using current),
      if_neg (by simp [timestampsMissing, hfirst, hlast, hbar])]

/-! ### What an admission rests on -/

theorem stale_failure {failures : List String} (h : eligibilityFailures P (some i) m now = .ok failures)
    (stale : "ELIGIBILITY_STALE" ∈ failures) : ¬ (now - eligibilityMaximumAge < i.verifiedAt ∧ i.verifiedAt ≤ now) := by
  intro member
  simp only [eligibilityFailures, ok_iff, current_eq_ok, member, and_self, decide_true] at h
  obtain ⟨screening, screened, _, ⟨-, rfl⟩, rfl⟩ := h
  have other : "ELIGIBILITY_STALE" ∉ screening := by
    unfold screeningFailures at screened
    split at screened
    · cases screened
      simp
    next clearance _ =>
      unfold clearanceFailures at screened
      split at screened
      · cases screened
        simp
      · simp only [ok_iff] at screened
        obtain ⟨policy, -, rfl⟩ := screened
        cases clearance.result <;> simp [mem_flag]
  simp [distinct, listingFailures, mem_flag, other] at stale

theorem guarded_eq_ok {result : Except Err (MasterRow × Option EligibilityReview)} (h : guarded p result = .ok (row, out)) :
    result = .ok (row, out) ∨ row = reject p ∧ out = none := by
  unfold guarded at h
  split at h
  · exact .inl h
  · split at h
    · obtain ⟨rfl, rfl⟩ := Prod.mk.inj (Except.ok.inj h)
      exact .inr ⟨rfl, rfl⟩
    · cases h

theorem reject_fresh (p : Progress) : (reject p).qualificationState.Fresh := by
  simp [reject, QualificationState.Fresh]

/-- The row that classification leaves: the broker row with another deadline. -/
structure Left (row : MasterRow) (deadline : Int) (left : MasterRow) : Prop where
  observedAt : left.observedAt = row.observedAt
  datasets : left.providerDatasets = row.providerDatasets
  first : left.providerEvidenceObservedAt = row.providerEvidenceObservedAt
  last : left.providerEvidenceValidUntil = row.providerEvidenceValidUntil
  validUntil : left.validUntil = some deadline

variable {observed : Int}

theorem admitUntil_spec {identifiers : InstrumentIdentifiers} {assessed : Assessment}
    (h : admitUntil ctx deadline observed identifiers assessed p = .ok (row, out)) :
    (observed ≤ ctx.now ∧ ctx.now < observed + eligibilityMaximumAge → row.qualificationState.Fresh) ∧
    ∀ review ∈ out, review.identifiers.validUntil = deadline ∧ Left p.row deadline row ∧
      assessed.clearance.screenedAt ≤ ctx.now ∧ ctx.now < assessed.clearance.validUntil := by
  unfold admitUntil at h
  dsimp only at h
  split at h
  · cases pure_eq_ok.mp h
    exact ⟨fun _ => reject_fresh p, by simp⟩
  · rcases guarded_eq_ok h with h | ⟨rfl, rfl⟩
    · simp only [bind_eq_ok] at h
      obtain ⟨failures, found, h⟩ := h
      split at h
      · cases pure_eq_ok.mp h
        refine ⟨fun member => ?_, by simp⟩
        have notStale : "ELIGIBILITY_STALE" ∉ failures := by
          intro stale
          refine stale_failure found stale ⟨?_, member.1⟩
          show ctx.now - eligibilityMaximumAge < observed
          omega
        simp [QualificationState.Fresh, notStale]
      next eligible =>
        simp only [bind_eq_ok] at h
        obtain ⟨sealed, review', h⟩ := h
        cases pure_eq_ok.mp h
        rw [ne_eq, not_not] at eligible
        subst eligible
        refine ⟨fun _ => by simp [QualificationState.Fresh], ?_⟩
        rintro _ ⟨⟩
        refine ⟨?_, ⟨rfl, rfl, rfl, rfl, rfl⟩, (eligibilityFailures_eq_nil.mp found).2.cleared _ rfl⟩
        simp only [sealReview, ok_iff] at review'
        obtain ⟨_, -, _, -, _, -, _, -, _, -, rfl⟩ := review'
        rfl
    · exact ⟨fun _ => reject_fresh _, by simp⟩

variable {review : EligibilityReview}

/-- The instant at which the rights of a provider expire, where they are on record. -/
def expiryOf (rights : Rights) (provider : String) : Option Int := (rights.lookup provider).join.map (·.validUntil)

theorem qualify_eq_ok {provider : String} {record : Option ProviderQualification} {expiry : Int}
    (h : qualify ctx row provider record = .ok expiry) :
    ∃ q, record = some q ∧ q.inForce ctx.now ∧ q.validUntil = expiry := by
  simp only [qualify, bind_eq_ok, demand_eq_ok, pure_eq_ok] at h
  obtain ⟨q, known, u, covers, -, -, -, -, expires⟩ := h
  refine ⟨q, known, ?_, expires⟩
  obtain ⟨dataset, member⟩ : ∃ dataset, dataset ∈ datasetsOf provider := by
    unfold datasetsOf
    split
    · exact ⟨"ohlcv", by simp⟩
    · exact ⟨"filing", by simp⟩
  have covered := forM_eq_ok.mp covers dataset member
  simp only [bind_eq_ok, ProviderQualification.require, require_eq_ok] at covered
  obtain ⟨mode, -, -, -, -, -, -, ⟨-, inForce⟩, -⟩ := covered
  exact inForce

theorem qualifyAll_qualified (rights : Rights) : ∀ (providers : List String) (acc : List Int × Progress),
      (providers.foldl (qualifyNext ctx rights) acc).2.state = .qualified →
        providers.foldl (qualifyNext ctx rights) acc = (acc.1 ++ providers.filterMap (expiryOf rights), acc.2) ∧
          ∀ provider ∈ providers, ∀ record ∈ rights.lookup provider,
            ∃ expiry, qualify ctx acc.2.row provider record = .ok expiry
  | [], acc, _ => by simp
  | provider :: providers, acc, h => by
    rw [foldl_cons] at h ⊢
    obtain ⟨folded, rest⟩ := qualifyAll_qualified rights providers _ h
    have first := (qualifyAll_kept rights providers _).qualified h
    rw [folded]
    unfold qualifyNext at first rest ⊢
    split at first
    next absent =>
      simp only [absent] at rest ⊢
      refine ⟨by simp [expiryOf, absent], fun other member record found => ?_⟩
      rcases mem_cons.mp member with rfl | member
      · simp [absent] at found
      · exact rest other member record found
    next record known =>
      simp only [known] at rest ⊢
      split at first
      next expiry qualified =>
        simp only [qualified] at rest ⊢
        have expires : expiryOf rights provider = some expiry := by
          obtain ⟨q, rfl, -, rfl⟩ := qualify_eq_ok qualified
          simp [expiryOf, known]
        refine ⟨by simp [expires], fun other member record' found => ?_⟩
        rcases mem_cons.mp member with rfl | member
        · rw [known] at found
          cases found
          exact ⟨expiry, qualified⟩
        · exact rest other member record' found
      · exact absurd first (block_not_qualified (by decide) _)

theorem requireRights_qualified (h : requireRights ctx rights providers p = .ok q) (qualified : q.state = .qualified) :
    q = p ∧ ∀ provider ∈ providers, (rights.lookup provider).isSome = true := by
  unfold requireRights at h
  split at h
  next known =>
    cases h
    exact ⟨rfl, known⟩
  · simp only [ok_iff] at h
    obtain ⟨mode, -, rfl⟩ := h
    exact absurd qualified (block_not_qualified (by decide) _)

theorem checkRights_qualified {expiries : List Int}
    (h : checkRights ctx rights providers p = .ok (expiries, q)) (qualified : q.state = .qualified) :
    expiries = providers.filterMap (expiryOf rights) ∧ ∀ provider ∈ providers, ∀ record ∈ rights.lookup provider,
      ∃ expiry, qualify ctx p.row provider record = .ok expiry := by
  simp only [checkRights, ok_iff] at h
  obtain ⟨p', noted, folded⟩ := h
  have state : (providers.foldl (qualifyNext ctx rights) ([], p')).2.state = .qualified := by rw [folded]; exact qualified
  obtain ⟨all, covered⟩ := qualifyAll_qualified rights providers ([], p') state
  obtain ⟨rfl, -⟩ := requireRights_qualified noted ((qualifyAll_kept rights providers ([], p')).qualified state)
  rw [folded] at all
  exact ⟨(Prod.mk.inj all).1, covered⟩

theorem admitReview_spec {identifiers : InstrumentIdentifiers} {assessed : Assessment} {expiries : List Int}
    (h : admitReview ctx observed expires identifiers assessed expiries p = .ok (row, out)) :
    (observed ≤ ctx.now ∧ ctx.now < observed + eligibilityMaximumAge → row.qualificationState.Fresh) ∧
    ∀ review ∈ out, ∃ last, p.row.providerEvidenceValidUntil = some last ∧
      review.identifiers.validUntil = admissionDeadline observed expires identifiers assessed expiries last ∧
      Left p.row review.identifiers.validUntil row ∧
      assessed.clearance.screenedAt ≤ ctx.now ∧ ctx.now < assessed.clearance.validUntil := by
  unfold admitReview at h
  split at h
  · cases h
    exact ⟨fun _ => reject_fresh p, by simp⟩
  next last known =>
    dsimp only at h
    split at h
    · cases h
      exact ⟨fun _ => reject_fresh p, by simp⟩
    · obtain ⟨fresh, admitted⟩ := admitUntil_spec h
      refine ⟨fresh, fun review reviewed => ?_⟩
      obtain ⟨dated, left, cleared⟩ := admitted review reviewed
      exact ⟨last, known, dated, dated ▸ left, cleared⟩

theorem conclude_cases {expiries : List Int}
    (h : conclude ctx allowed observed expires identifiers assessed expiries p = .ok (row, out)) :
    (p.state = .qualified ∧ ∃ i a, identifiers = some i ∧ assessed = some a ∧
      admitReview ctx observed expires i a expiries p = .ok (row, out)) ∨
    out = none ∧ (p.state.Fresh → row.qualificationState.Fresh) := by
  unfold conclude at h
  split at h
  next i a state =>
    split at h
    · exact .inl ⟨state, i, a, rfl, rfl, h⟩
    · cases h
      exact .inr ⟨rfl, fun _ => by simp [QualificationState.Fresh]⟩
  · cases h
    exact .inr ⟨rfl, id⟩

/-! ### The evidence behind an admission -/

/-- The evidence of a row that the clock runs against, as the inputs of `classify_row` hold it. -/
structure AdmissionEvidence where
  observed : Int
  expires : Int
  identifiers : InstrumentIdentifiers
  assessed : Assessment
  qualifications : List ProviderQualification
  first : Int
  last : Int
  bar : Int
  deriving DecidableEq

def Given.toOption {α : Type} : Given α → Option α
  | .fields value => some value
  | _ => none

variable (ctx ethics rights) in
def evidenceOf (row : MasterRow) : Option AdmissionEvidence := do
  let policy ← (issuerSourcePolicy ctx.environ).toOption
  pure {
    observed := ← row.observedAt
    expires := ← row.validUntil
    identifiers := ← row.identifiers.toOption
    assessed := ← ethics.lookup (row.isin.getD "")
    qualifications := (required policy row.countryIso).filterMap fun provider => (rights.lookup provider).join
    first := ← row.providerEvidenceObservedAt
    last := ← row.providerEvidenceValidUntil
    bar := ← row.latestBar }

namespace AdmissionEvidence

/-- Everything that the admission rests on is in force. -/
structure Current (e : AdmissionEvidence) (t : Int) : Prop where
  broker : e.observed ≤ t ∧ t < min e.expires (e.observed + eligibilityMaximumAge)
  identity : e.identifiers.requireCurrent t = .ok ()
  clearance : e.assessed.clearance.screenedAt ≤ t ∧ t < e.assessed.clearance.validUntil
  rights : ∀ q ∈ e.qualifications, q.inForce t
  evidence : evidenceCurrent e.first e.last t
  bar : barCurrent e.bar t

def expiries (e : AdmissionEvidence) : List Int :=
  e.expires :: e.identifiers.validUntil :: e.assessed.validUntil :: e.qualifications.map (·.validUntil) ++
    [e.last, e.observed + eligibilityMaximumAge]

/-- The ends that are not among them: of the provider evidence, of the latest bar and of the screening. -/
def limits (e : AdmissionEvidence) : List Int :=
  [e.first + eligibilityMaximumAge, e.bar + maximumLatestAge + 1, e.assessed.clearance.validUntil]

def Covered (e : AdmissionEvidence) : Prop := ∀ limit ∈ e.limits, ∃ expiry ∈ e.expiries, expiry ≤ limit
  deriving Decidable

end AdmissionEvidence

theorem membership_eq_some (h : row.membership now = some (observed, expires)) :
    row.observedAt = some observed ∧ row.validUntil = some expires ∧ observed ≤ now ∧
      now < min expires (observed + eligibilityMaximumAge) := by
  unfold MasterRow.membership at h
  split at h
  next observedAt validUntil =>
    split at h
    next member =>
      obtain ⟨rfl, rfl⟩ := Prod.mk.inj (Option.some.inj h)
      exact ⟨observedAt, validUntil, member⟩
    · cases h
  · cases h

theorem screen_excluded (h : screen ctx ethics identifiers p = .error row) : row.qualificationState.Fresh := by
  unfold screen at h
  split at h
  · cases h
  · dsimp only at h
    split at h
    · cases h
    · split at h
      · cases h
        simp [QualificationState.Fresh]
      · cases h
      · cases h

theorem classifyScreened_fresh
    (h : classifyScreened ctx rights allowed observed expires identifiers assessed p = .ok (row, out))
    (fresh : p.state.Fresh) (member : observed ≤ ctx.now ∧ ctx.now < observed + eligibilityMaximumAge)
    (evidence : EvidenceHolds p.row ctx.now) (bar : BarHolds p.row ctx.now) : row.qualificationState.Fresh := by
  simp only [classifyScreened, bind_eq_ok] at h
  obtain ⟨policy, -, ⟨expiries, q⟩, checked, h⟩ := h
  have kept := ((identifyIssuer_kept ctx policy identifiers p).trans (checkRights_kept checked)).trans
    (kept_foldl checkDataset_kept (neededDatasets (required policy p.row.countryIso)) q)
  rcases conclude_cases h with ⟨-, i, a, -, -, admitted⟩ | ⟨-, concluded⟩
  · exact (admitReview_spec admitted).1 member
  · exact concluded ((kept.trans (checkTimestamps_kept (kept.evidence evidence) (kept.bar bar))).fresh fresh)

theorem classifyRow_fresh {row' : MasterRow}
    (h : classifyRow ctx row ethics rights allowed = .ok (row', out)) (member : row.membership ctx.now ≠ none)
    (evidence : EvidenceHolds row ctx.now) (bar : BarHolds row ctx.now) : row'.qualificationState.Fresh := by
  unfold classifyRow at h
  split at h
  next settled =>
    cases h
    show row.qualificationState.Fresh
    cases state : row.qualificationState <;> simp_all [QualificationState.settled, QualificationState.Fresh]
  · split at h
    next none => exact absurd none member
    next observed expires within =>
      obtain ⟨-, -, since, before⟩ := membership_eq_some within
      simp only [classifyMember] at h
      split at h
      next excluded screened =>
        cases h
        exact screen_excluded screened
      next assessed p screened =>
        have kept := (readIdentifiers_spec ctx ⟨row.reset, .qualified, row.reset.reasons⟩).1.trans
          (screen_spec screened).1
        exact classifyScreened_fresh h (kept.fresh (by simp [QualificationState.Fresh]))
          ⟨since, before.trans_le (min_le_right _ _)⟩ (kept.evidence evidence) (kept.bar bar)

theorem AdmissionEvidence.deadline_le (e : AdmissionEvidence) : ∀ expiry ∈ e.expiries,
    admissionDeadline e.observed e.expires e.identifiers e.assessed (e.qualifications.map (·.validUntil)) e.last ≤ expiry :=
  fun _ member => foldl_min_le member

theorem AdmissionEvidence.deadline_mem (e : AdmissionEvidence) :
    admissionDeadline e.observed e.expires e.identifiers e.assessed (e.qualifications.map (·.validUntil)) e.last ∈
      e.expiries :=
  foldl_min_mem _ _

theorem classifyScreened_admitted (fields : ∀ i ∈ identifiers, p.row.identifiers = .fields i)
    (h : classifyScreened ctx rights allowed observed expires identifiers assessed p = .ok (left, some review)) :
    p.state = .qualified ∧ ∃ policy i a first last bar, issuerSourcePolicy ctx.environ = .ok policy ∧
      identifiers = some i ∧ assessed = some a ∧ p.row.providerEvidenceObservedAt = some first ∧
      p.row.providerEvidenceValidUntil = some last ∧ p.row.latestBar = some bar ∧
      evidenceCurrent first last ctx.now ∧ barCurrent bar ctx.now ∧
      (∀ provider ∈ required policy p.row.countryIso, ∀ q ∈ (rights.lookup provider).join, q.inForce ctx.now) ∧
      (a.clearance.screenedAt ≤ ctx.now ∧ ctx.now < a.clearance.validUntil) ∧
      review.identifiers.validUntil = admissionDeadline observed expires i a
        ((required policy p.row.countryIso).filterMap (expiryOf rights)) last ∧
      Left p.row review.identifiers.validUntil left := by
  simp only [classifyScreened, bind_eq_ok] at h
  obtain ⟨policy, selected, ⟨expiries, q⟩, checked, h⟩ := h
  obtain ⟨qualified, i, a, hi, ha, admitted⟩ := (conclude_cases h).resolve_right (by simp)
  have counted := kept_foldl checkDataset_kept (neededDatasets (required policy p.row.countryIso)) q
  have kept := ((identifyIssuer_kept ctx policy identifiers p).trans (checkRights_kept checked)).trans counted
  obtain ⟨first, last, bar, hfirst, hlast, hbar, evidence, young, same⟩ :=
    checkTimestamps_qualified (by simp [kept.identifiers, fields i hi]) qualified
  rw [same] at qualified admitted
  obtain ⟨rfl, covered⟩ := checkRights_qualified checked (counted.qualified qualified)
  obtain ⟨last', hlast', dated, remains, cleared⟩ := (admitReview_spec admitted).2 review rfl
  obtain rfl : last = last' := Option.some.inj (hlast.symm.trans hlast')
  refine ⟨kept.qualified qualified, policy, i, a, first, last, bar, selected, hi, ha, kept.first ▸ hfirst,
    kept.last ▸ hlast, kept.latestBar ▸ hbar, evidence, young, ?_, cleared, dated, ?_⟩
  · intro provider member record known
    obtain ⟨expiry, qualifies⟩ := covered provider member (some record) (by simpa [Option.join_eq_some_iff] using known)
    obtain ⟨q', same', inForce, -⟩ := qualify_eq_ok qualifies
    cases same'
    exact inForce
  · exact ⟨remains.observedAt.trans kept.observedAt, remains.datasets.trans kept.datasets,
      remains.first.trans kept.first, remains.last.trans kept.last, remains.validUntil⟩

/-- An admission has its evidence in the row and the records, and its deadline is the earliest of their expiries. -/
theorem classifyRow_admitted (h : classifyRow ctx row ethics rights allowed = .ok (left, some review)) :
    ∃ e, evidenceOf ctx ethics rights row = some e ∧ e.Current ctx.now ∧
      review.identifiers.validUntil = admissionDeadline e.observed e.expires e.identifiers e.assessed
        (e.qualifications.map (·.validUntil)) e.last ∧ Left row review.identifiers.validUntil left := by
  unfold classifyRow at h
  split at h
  · cases h
  · split at h
    · cases h
    next observed expires within =>
      obtain ⟨observedAt, validUntil, broker⟩ := membership_eq_some within
      simp only [classifyMember] at h
      split at h
      · cases h
      next assessed p screened =>
        obtain ⟨read, same, known⟩ := readIdentifiers_spec ctx ⟨row.reset, .qualified, row.reset.reasons⟩
        obtain ⟨screening, assessment⟩ := screen_spec screened
        have kept := read.trans screening
        obtain ⟨qualified, policy, i, a, first, last, bar, selected, hi, rfl, hfirst, hlast, hbar, evidence, young,
          covered, cleared, dated, remains⟩ :=
          classifyScreened_admitted (fun i hi => kept.identifiers.trans (known i hi).1) h
        obtain ⟨fields, current⟩ := known i hi
        obtain ⟨found, country⟩ := assessment a rfl
        rw [same] at found country
        rw [country] at covered dated
        refine ⟨⟨observed, expires, i, a, (required policy row.countryIso).filterMap fun provider =>
          (rights.lookup provider).join, first, last, bar⟩, ?_, ?_, ?_, ?_⟩
        · have hfirst' : row.providerEvidenceObservedAt = some first := kept.first.symm.trans hfirst
          have hlast' : row.providerEvidenceValidUntil = some last := kept.last.symm.trans hlast
          have hbar' : row.latestBar = some bar := kept.latestBar.symm.trans hbar
          have fields' : row.identifiers = .fields i := fields
          have found' : ethics.lookup (row.isin.getD "") = some a := found
          simp [evidenceOf, selected, observedAt, validUntil, fields', found', hfirst', hlast', hbar', Given.toOption,
            Except.toOption]
        · refine ⟨broker, current (screening.qualified qualified), cleared, fun q member => ?_, evidence, young⟩
          obtain ⟨provider, needed, known⟩ := mem_filterMap.mp member
          exact covered provider needed q known
        · rw [dated, map_filterMap]
          rfl
        · exact ⟨remains.observedAt.trans kept.observedAt, remains.datasets.trans kept.datasets,
            remains.first.trans kept.first, remains.last.trans kept.last, remains.validUntil⟩

end

namespace AdmissionEvidence
variable {e : AdmissionEvidence} {now deadline t : Int}

theorem Current.later (h : e.Current now) (covered : e.Covered) (earliest : ∀ expiry ∈ e.expiries, deadline ≤ expiry)
    (le : now ≤ t) (lt : t < deadline) : e.Current t := by
  have bound : ∀ limit ∈ e.limits, t < limit := by
    intro limit member
    obtain ⟨expiry, known, before⟩ := covered limit member
    exact lt.trans_le ((earliest expiry known).trans before)
  have expiry : ∀ expiry ∈ e.expiries, t < expiry := fun _ member => lt.trans_le (earliest _ member)
  simp only [limits, forall_mem_cons] at bound
  simp only [expiries, cons_append, forall_mem_cons, forall_mem_append, forall_mem_map] at expiry
  obtain ⟨window, young, cleared, -⟩ := bound
  obtain ⟨expires, identified, -, rights, last, broker, -⟩ := expiry
  exact {
    broker := ⟨h.broker.1.trans le, lt_min expires broker⟩
    identity := require_eq_ok.mpr ⟨(require_eq_ok.mp h.identity).1.trans le, identified⟩
    clearance := ⟨h.clearance.1.trans le, cleared⟩
    rights := fun q member => ⟨(h.rights q member).1.trans le, rights q member⟩
    evidence := ⟨h.evidence.1.trans le, lt_min last window⟩
    bar := ⟨h.bar.1.trans le, by omega⟩ }

theorem covered_of_current (h : e.Current now) (mem : deadline ∈ e.expiries)
    (current : ∀ t, now ≤ t → t < deadline → e.Current t) : e.Covered := by
  intro limit member
  by_contra none
  have late : limit < deadline := by
    by_contra before
    exact none ⟨deadline, mem, not_lt.mp before⟩
  simp only [limits, mem_cons, not_mem_nil, or_false] at member
  have window := h.evidence.2
  have young := h.bar.2
  have cleared := h.clearance.2
  rcases member with rfl | rfl | rfl
  · have := (current _ (by omega) late).evidence.2
    omega
  · have := (current _ (by omega) late).bar.2
    omega
  · have := (current _ (by omega) late).clearance.2
    omega

end AdmissionEvidence

variable {e : AdmissionEvidence} {ethics : Ethics} {rights : Rights}

theorem evidenceOf_eq_some {ctx : QualificationContext} (h : evidenceOf ctx ethics rights row = some e) :
    row.observedAt = some e.observed ∧ row.validUntil = some e.expires ∧
      row.providerEvidenceObservedAt = some e.first ∧ row.providerEvidenceValidUntil = some e.last ∧
      row.latestBar = some e.bar := by
  simp only [evidenceOf, Option.bind_eq_bind, Option.bind_eq_some_iff, Option.pure_def, Option.some.injEq] at h
  obtain ⟨policy, -, observed, hobserved, expires, hexpires, i, -, a, -, first, hfirst, last, hlast, bar, hbar, rfl⟩ := h
  exact ⟨hobserved, hexpires, hfirst, hlast, hbar⟩

theorem fresh_of_current (ctx : QualificationContext) {row' : MasterRow}
    (current : e.Current ctx.now) (observedAt : row.observedAt = some e.observed)
    (validUntil : row.validUntil = some expires) (ahead : ctx.now < expires)
    (first : row.providerEvidenceObservedAt = some e.first) (last : row.providerEvidenceValidUntil = some e.last)
    (bar : row.latestBar = some e.bar) (h : classifyRow ctx row ethics rights allowed = .ok (row', out)) :
    row'.qualificationState.Fresh := by
  refine classifyRow_fresh h ?_ ?_ ?_
  · have within : e.observed ≤ ctx.now ∧ ctx.now < min expires (e.observed + eligibilityMaximumAge) :=
      ⟨current.broker.1, lt_min ahead (current.broker.2.trans_le (min_le_right _ _))⟩
    simp [MasterRow.membership, observedAt, validUntil, within]
  · simpa [EvidenceHolds, first, last] using current.evidence
  · simpa [BarHolds, bar] using current.bar

/-- Until its deadline the evidence of a review is current exactly if the deadline comes no later than a day after the
    first provider observation, the last instant for the latest bar, and the end of the screening. -/
theorem admitted_review_current_iff (ctx : QualificationContext) (row left : MasterRow) (ethics : Ethics)
    (rights : Rights) (allowed : Bool) (review : EligibilityReview)
    (admitted : classifyRow ctx row ethics rights allowed = .ok (left, some review)) :
    ∃ e, evidenceOf ctx ethics rights row = some e ∧ ((∀ t, ctx.now ≤ t → t < review.identifiers.validUntil →
          e.Current t ∧ ∀ again ∈ [row, left], ∀ row' out,
            classifyRow { ctx with now := t } again ethics rights allowed = .ok (row', out) →
              row'.qualificationState ≠ .expired ∧ row'.qualificationState ≠ .staleEvidence) ↔ e.Covered) := by
  obtain ⟨e, known, current, dated, remains⟩ := classifyRow_admitted admitted
  refine ⟨e, known, fun holds => ?_, fun covered t le lt => ?_⟩
  · exact AdmissionEvidence.covered_of_current current (dated ▸ e.deadline_mem) fun t le lt => (holds t le lt).1
  · have later := current.later covered (dated ▸ e.deadline_le) le lt
    refine ⟨later, fun again member row' out classified => ?_⟩
    obtain ⟨observedAt, validUntil, first, last, bar⟩ := evidenceOf_eq_some known
    rcases (by simpa using member : again = row ∨ again = left) with rfl | rfl
    · exact fresh_of_current { ctx with now := t } later observedAt validUntil
        (later.broker.2.trans_le (min_le_left _ _)) first last bar classified
    · refine fresh_of_current { ctx with now := t } later (remains.observedAt.trans observedAt)
        remains.validUntil lt (remains.first.trans first) (remains.last.trans last) ?_ classified
      rw [← bar]
      simp only [MasterRow.latestBar, MasterRow.fact, remains.datasets]

/-! ### A row whose provider evidence was observed a day before -/

def desk (now : Int) : QualificationContext where
  platform := plainPlatform
  now := now
  upper := fun _ => "HOSTED_COMMERCIAL_PRODUCTION"
  lower := id
  wordChars := id
  clearanceHash _ := String.ofList (List.replicate 64 'a')
  artifact _ := .ok (String.ofList (List.replicate 64 'a'))
  corroborated _ _ := false

def listedIdentifiers : InstrumentIdentifiers where
  ticker := "ABC"
  companyName := "ABC plc"
  trading212Id := "ABCl_EQ"
  exchangeTicker := "ABC"
  exchange := "LSE"
  isin := "GB0000000009"
  quoteCurrency := "GBX"
  verifiedAt := days 20713
  validUntil := days 20720
  source := "review"

def listedAssessment : Assessment where
  clearance := {
    result := .pass, issuerKey := "isin:GB0000000009", isins := ["GB0000000009"], screenedAt := days 20700
    validUntil := days 20730, policyHash := String.ofList (List.replicate 64 'a')
    evidenceHashes := [String.ofList (List.replicate 64 'a')], assessedExclusions := excludedActivities
    businessActivities := ["retail"], screeningHash := String.ofList (List.replicate 64 'a') }
  validUntil := days 20730
  proof := String.ofList (List.replicate 64 'a')

def listedRights : Rights :=
  [("eodhd", some {
    provider := "eodhd", datasets := ["ohlcv", "corporate_action", "news"], productionQualified := true
    qualifiedBy := some "operator", qualificationReportHash := some (String.ofList (List.replicate 64 'a'))
    verifiedAt := days 20700, validUntil := days 20760 })]

/-- The broker showed the instrument at the start of day 20714; its provider evidence was first observed at `first`. -/
def listedRow (first : Int) : MasterRow where
  qualificationState := .unresolvedProviderMapping
  isin := some "GB0000000009"
  quoteCurrency := some "GBX"
  observedAt := some (days 20714)
  validUntil := some (days 20715)
  identifiers := .fields listedIdentifiers
  countryIso := some "IE"
  companiesHouseState := "NOT_APPLICABLE"
  providerDatasets := [
    ("eodhd:ohlcv", { status := "RETRIEVED", recordCount := 60, latestObservation := some (days 20713) }),
    ("eodhd:corporate_action", { status := "RETRIEVED", recordCount := 1 }),
    ("eodhd:news", { status := "RETRIEVED", recordCount := 1 })]
  providerEvidenceObservedAt := some first
  providerEvidenceValidUntil := some (days 20715)
  instrumentRowSha256 := some ""
  exchangeRowSha256 := some ""
  brokerResponseRefs := some []

def listedAt (first now : Int) : Except Err (MasterRow × Option EligibilityReview) :=
  classifyRow (desk now) (listedRow first) [("GB0000000009", listedAssessment)] listedRights true

theorem listedAt_admitted (first now deadline : Int) (h : ∃ result ∈ (listedAt first now).toOption,
      ∃ review ∈ result.2, review.identifiers.validUntil = deadline) :
    ∃ left review, listedAt first now = .ok (left, some review) ∧ review.identifiers.validUntil = deadline := by
  obtain ⟨⟨left, _⟩, found, review, rfl, dated⟩ := exists_of_toOption h
  exact ⟨left, review, found, dated⟩

theorem admitted_review_current_iff_listed : ∃ left review,
    classifyRow (desk (days 20714 + hours 1)) (listedRow (days 20714)) [("GB0000000009", listedAssessment)]
      listedRights true = .ok (left, some review) ∧
    ∃ e, evidenceOf (desk (days 20714 + hours 1)) [("GB0000000009", listedAssessment)] listedRights
        (listedRow (days 20714)) = some e ∧
      ((∀ t, days 20714 + hours 1 ≤ t → t < review.identifiers.validUntil →
          e.Current t ∧ ∀ again ∈ [listedRow (days 20714), left], ∀ row' out,
            classifyRow (desk t) again [("GB0000000009", listedAssessment)] listedRights true = .ok (row', out) →
              row'.qualificationState ≠ .expired ∧ row'.qualificationState ≠ .staleEvidence) ↔
        e.Covered) := by
  obtain ⟨left, review, found, -⟩ := listedAt_admitted (days 20714) (days 20714 + hours 1) (days 20715)
    (by decide +kernel)
  exact ⟨left, review, found, admitted_review_current_iff _ _ left _ _ _ review found⟩

/-- A review is admitted until the end of the day. Two hours later its row is stale. -/
theorem admitted_review_outlives_observation : ∃ left review row' out,
    classifyRow (desk (days 20714 + hours 1)) (listedRow (days 20713 + hours 2)) [("GB0000000009", listedAssessment)]
      listedRights true = .ok (left, some review) ∧
    days 20714 + hours 3 < review.identifiers.validUntil ∧
    classifyRow (desk (days 20714 + hours 3)) (listedRow (days 20713 + hours 2)) [("GB0000000009", listedAssessment)]
      listedRights true = .ok (row', out) ∧
    row'.qualificationState = .staleEvidence := by
  obtain ⟨left, review, found, dated⟩ := listedAt_admitted (days 20713 + hours 2) (days 20714 + hours 1)
    (days 20715) (by decide +kernel)
  obtain ⟨⟨row', out⟩, later, stale⟩ := exists_of_toOption (show ∃ result ∈ (listedAt (days 20713 + hours 2)
      (days 20714 + hours 3)).toOption, result.1.qualificationState = .staleEvidence by decide +kernel)
  exact ⟨left, review, row', out, found, by rw [dated]; decide, later, stale⟩

end Money
