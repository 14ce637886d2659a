import Money.Theorems.Qualification
import Money.Theorems.UniverseBuilder

/-! What one member can do to a call of the builder. The answer to a call is characterized by the members one by one. -/

namespace Money
open Checked List Rows UniverseCall

variable {U : UniversePlatform}

/-! ### Members one by one -/

namespace UniverseCall
variable (c : UniverseCall U)

def Caught (r : EligibilityReview) : Prop := ∀ e, c.build r.metadata ≠ .error (.other e)

def Fresh (r : EligibilityReview) : Prop := c.fresh r = .ok true
  deriving Decidable

/-- What the call keeps of the snapshot builder of a member, where the failure is caught. -/
def outcome (r : EligibilityReview) : Frozen U.toPlatform ⊕ String :=
  match c.build r.metadata with
  | .ok value =>
    if value.snapshot.instrument = r.metadata ∧ value.snapshot.universeHash = none then .inl value
    else .inr "RESEARCH_EVIDENCE_NOT_VERIFIED"
  | .error .provider => .inr "RESEARCH_PROVIDER_UNAVAILABLE"
  | .error _ => .inr "RESEARCH_EVIDENCE_NOT_VERIFIED"

def usable (r : EligibilityReview) : Option ResearchSnapshot :=
  ((c.outcome r).getLeft?.map (·.snapshot)).filter fun s => c.Ready s

def score (policy : UniverseScreenPolicy) (r : EligibilityReview) : Option (Rat × String) :=
  if c.Fresh r then
    ((c.usable r).filter fun s => CompleteWindow policy c.frozenAt s).map fun s =>
      (meanTradedValue U.toPlatform policy s, r.metadata.ticker)
  else none

def Priced (policy : UniverseScreenPolicy) (r : EligibilityReview) : Prop :=
  c.Fresh r → ∀ s ∈ c.usable r, CompleteWindow policy c.frozenAt s →
    ∀ bar ∈ screenWindow policy s, bar.2.currency.code = s.instrument.quoteCurrency

/-- No failure of a member leaves the call, the frozen members differ in their broker identity, no ranked bar is in
    another currency, and fewer members than the bound are ahead. -/
structure Answers (policy : UniverseScreenPolicy) (admitted : List EligibilityReview) (instrument : InstrumentMetadata) :
    Prop where
  caught : ∀ r ∈ admitted, c.Caught r
  brokers : ((admitted.filter fun r => c.Fresh r).map (·.identifiers.trading212Id)).Nodup
  priced : ∀ r ∈ admitted, c.Priced policy r
  selected : ∃ r ∈ admitted, r.metadata = instrument ∧ ∃ own ∈ c.score policy r,
    (admitted.filterMap (c.score policy)).countP (fun other => Ahead other own) < policy.maximumCandidates

end UniverseCall

variable {c : UniverseCall U} {r : EligibilityReview}

theorem acquire_eq_ok {x : EligibilityReview × (Frozen U.toPlatform ⊕ String)} :
    c.acquire r = .ok x ↔ c.Caught r ∧ (r, c.outcome r) = x := by
  unfold acquire outcome UniverseCall.Caught
  cases built : c.build r.metadata with
  | ok value => simp [pure_eq_ok]
  | error failure => cases failure <;> simp [BuildFailure.reason, bind, Except.bind, pure_eq_ok]

theorem fresh_iff : c.Fresh r ↔ eligibilityFailures U.toPlatform (some r.metadata) {} c.frozenAt = .ok [] ∧
      r.identifiers.verifiedAt ≤ c.frozenAt ∧ c.frozenAt < r.identifiers.validUntil := by
  simp only [UniverseCall.Fresh, fresh, ok_iff, decide_eq_true_eq]
  constructor
  · rintro ⟨_, evaluated, rfl, current⟩
    exact ⟨evaluated, current⟩
  · rintro ⟨evaluated, current⟩
    exact ⟨[], evaluated, rfl, current⟩

theorem dated_of_fresh {b : Bool} (h : c.fresh r = .ok b) : Dated c.frozenAt := by
  simp only [fresh, ok_iff] at h
  obtain ⟨_, evaluated, -⟩ := h
  exact dated_of_eligibilityFailures evaluated

theorem fresh_eq_ok (dated : Dated c.frozenAt) (listed : Listed U.toPlatform r.metadata {}) {b : Bool} :
    c.fresh r = .ok b ↔ True ∧ decide (c.Fresh r) = b := by
  obtain ⟨failures, evaluated⟩ := listed.isOk dated
  obtain ⟨b', computed⟩ : ∃ b, c.fresh r = .ok b := ⟨_, by simp only [fresh, evaluated]; rfl⟩
  have fresh : c.Fresh r ↔ b' = true := by simp [UniverseCall.Fresh, computed]
  rw [true_and, computed]
  cases b' <;> simp [fresh]

theorem outcome_inl {value : Frozen U.toPlatform} (h : c.outcome r = .inl value) :
    value.snapshot.instrument = r.metadata ∧ value.snapshot.universeHash = none ∧
      value.snapshot.ticker = r.metadata.ticker := by
  have same : value.snapshot.instrument = r.metadata ∧ value.snapshot.universeHash = none := by
    unfold outcome at h
    split at h
    · split at h
      next same =>
        cases h
        exact same
      next => cases h
    · cases h
    · cases h
  have own := value.valid
  simp only [Platform.validateSnapshot, Platform.freezeFacts, ok_iff] at own
  obtain ⟨_, -, _, -, -, ticker, -⟩ := own
  exact ⟨same.1, same.2, by rw [← ticker, same.1]⟩

variable {s : ResearchSnapshot}

theorem usable_eq_some : c.usable r = some s ↔ ∃ value, c.outcome r = .inl value ∧ value.snapshot = s ∧ c.Ready s := by
  simp only [usable, Option.filter_eq_some_iff, Option.map_eq_some_iff, decide_eq_true_eq]
  constructor
  · rintro ⟨⟨value, found, rfl⟩, ready⟩
    exact ⟨value, Sum.getLeft?_eq_some_iff.mp found, rfl, ready⟩
  · rintro ⟨value, found, rfl, ready⟩
    exact ⟨⟨value, Sum.getLeft?_eq_some_iff.mpr found, rfl⟩, ready⟩

variable {entry : Rat × String} {ticker : String} {P : Platform} {u : QualifiedUniverseSnapshot}
  {instrument : InstrumentMetadata}

theorem score_eq_some {policy : UniverseScreenPolicy} :
    c.score policy r = some entry ↔ c.Fresh r ∧ ∃ s, c.usable r = some s ∧ CompleteWindow policy c.frozenAt s ∧
      entry = (meanTradedValue U.toPlatform policy s, r.metadata.ticker) := by
  unfold score
  split
  next fresh =>
    simp only [Option.map_eq_some_iff, Option.filter_eq_some_iff, decide_eq_true_eq, fresh, true_and, and_assoc]
    exact exists_congr fun s => and_congr_right fun _ => and_congr_right fun _ => eq_comm
  next stale => simp [stale]

/-! ### Admission -/

/-- What the admission establishes about the reviews. -/
structure AdmittedUniverse (U : UniversePlatform) (admitted : List EligibilityReview) : Prop where
  inhabited : admitted ≠ []
  tickers : (admitted.map (·.metadata.ticker)).Nodup
  listed : ∀ r ∈ admitted, Listed U.toPlatform r.metadata {}

def reviewOf (reviews : List EligibilityReview) (item : InstrumentMetadata) : Option EligibilityReview :=
  (reviews.find? fun r => r.metadata.ticker = item.ticker).filter fun r => r.metadata = item

theorem reviewOf_metadata {reviews : List EligibilityReview} {item : InstrumentMetadata}
    (h : reviewOf reviews item = some r) : r.metadata = item :=
  of_decide_eq_true (Option.filter_eq_some_iff.mp h).2

theorem admission_eq_ok {admitted : List EligibilityReview} (h : c.admission = .ok admitted) :
    ∃ current reviews, c.current = .ok current ∧ c.reviews = .ok reviews ∧
      admitted = current.filterMap (reviewOf reviews) ∧ AdmittedUniverse U admitted := by
  simp only [admission, ok_iff] at h
  obtain ⟨_, -, current, live, reviews, reviewed, ⟨-, distinct⟩, _, found, some_, ⟨⟩, checked, rfl⟩ := h
  obtain ⟨-, admitted⟩ := mapM_demand_eq_ok.mp found
  refine ⟨current, reviews, live, reviewed, admitted, some_, ?_, fun r hr => ?_⟩
  · rw [admitted]
    exact nodup_filterMap (fun item r own => congrArg _ (reviewOf_metadata own)) distinct
  · have eligible := forM_eq_ok.mp checked r hr
    simp only [ok_iff] at eligible
    obtain ⟨-, -, _, evaluated, rfl⟩ := eligible
    exact (eligibilityFailures_eq_nil.mp evaluated).1

def UniverseCall.without (c : UniverseCall U) (ticker : String) : UniverseCall U :=
  { c with current := (fun items => items.filter fun i => i.ticker ≠ ticker) <$> c.current }

theorem admission_without {admitted rest : List EligibilityReview} (h : c.admission = .ok admitted)
    (h' : (c.without ticker).admission = .ok rest) : rest = admitted.filter fun r => r.metadata.ticker ≠ ticker := by
  obtain ⟨current, reviews, live, reviewed, rfl, -⟩ := admission_eq_ok h
  obtain ⟨current', reviews', live', reviewed', rfl, -⟩ := admission_eq_ok h'
  obtain ⟨_, live'', rfl⟩ := map_eq_ok.mp (show _ <$> c.current = _ from live')
  cases live.symm.trans live''
  cases reviewed.symm.trans reviewed'
  rw [filterMap_filter, filter_filterMap]
  congr 1
  funext item
  cases own : reviewOf reviews item with
  | none => simp
  | some r => simp [Option.filter, reviewOf_metadata own]

/-! ### Freezing -/

/-- Reviews and snapshots that the freezing accepts. -/
structure Freezable (U : UniversePlatform) (reviews : List EligibilityReview) (snapshots : List ResearchSnapshot)
    (at_ : Int) (missing : List (String × String)) : Prop where
  reviewed : reviews ≠ []
  tickers : (reviews.map (·.metadata.ticker)).Nodup
  brokers : (reviews.map (·.identifiers.trading212Id)).Nodup
  distinct : (snapshots.map (·.ticker)).Nodup
  known : ∀ s ∈ snapshots, ∃ r ∈ reviews, s.instrument = r.metadata ∧ s.ticker = r.metadata.ticker ∧
    s.universeHash = none ∧ s.createdAt ≤ at_ ∧ s.currentAt at_
  holds : ∀ r ∈ reviews, eligibilityFailures U.toPlatform (some r.metadata) {} at_ = .ok [] ∧
    r.identifiers.verifiedAt ≤ at_ ∧ at_ < r.identifiers.validUntil
  valid : ∀ s ∈ snapshots, U.validateSnapshot s = .ok s
  statuses : ∀ ticker, isStatus ((missing.lookup ticker).getD "RESEARCH_EVIDENCE_REQUIRED") = true ∧
    (missing.lookup ticker).getD "RESEARCH_EVIDENCE_REQUIRED" ≠ "READY"

def memberOf (U : UniversePlatform) (snapshots : List ResearchSnapshot) (missing : List (String × String))
    (r : EligibilityReview) : FrozenUniverseMember :=
  match snapshots.find? fun s => s.ticker = r.metadata.ticker with
  | none => {
      instrument := r.metadata, qualificationHash := U.reviewHash r, validUntil := r.expiry
      evidenceStatus := (missing.lookup r.metadata.ticker).getD "RESEARCH_EVIDENCE_REQUIRED" }
  | some s => {
      instrument := r.metadata, qualificationHash := U.reviewHash r
      validUntil := (s.evidence.map (·.freshUntil)).foldl min r.expiry, snapshotHash := some s.hash
      evidenceStatus := "READY" }

section
variable (U : UniversePlatform) (snapshots : List ResearchSnapshot) (missing : List (String × String))

theorem memberOf_instrument (r : EligibilityReview) : (memberOf U snapshots missing r).instrument = r.metadata := by
  unfold memberOf
  split <;> rfl

theorem memberOf_hash (r : EligibilityReview) : (memberOf U snapshots missing r).snapshotHash =
    (snapshots.find? fun s => s.ticker = r.metadata.ticker).map (·.hash) := by
  unfold memberOf
  cases snapshots.find? fun s => s.ticker = r.metadata.ticker <;> rfl

theorem memberOf_status (r : EligibilityReview) (h : (memberOf U snapshots missing r).snapshotHash = none) :
    (memberOf U snapshots missing r).evidenceStatus =
      (missing.lookup r.metadata.ticker).getD "RESEARCH_EVIDENCE_REQUIRED" := by
  have absent : (snapshots.find? fun s => s.ticker = r.metadata.ticker) = none := by
    simpa only [memberOf_hash, Option.map_eq_none_iff] using h
  simp only [memberOf, absent]

theorem memberOf_tickers (reviews : List EligibilityReview) :
    (reviews.map (memberOf U snapshots missing)).map (·.instrument.ticker) = reviews.map (·.metadata.ticker) := by
  rw [map_map]
  exact map_congr_left fun r _ => congrArg _ (memberOf_instrument U snapshots missing r)

end

theorem expiry_bounds : r.expiry ≤ r.metadata.verifiedAt + eligibilityMaximumAge ∧
    ∀ clearance ∈ r.metadata.ethicalClearance, r.expiry ≤ clearance.validUntil := by
  unfold EligibilityReview.expiry
  cases r.metadata.ethicalClearance with
  | none => exact ⟨min_le_right _ _, nofun⟩
  | some clearance =>
    refine ⟨(min_le_left _ _).trans (min_le_right _ _), ?_⟩
    rintro _ ⟨⟩
    exact min_le_right _ _

variable {reviews : List EligibilityReview} {snapshots : List ResearchSnapshot} {at_ : Int}
  {missing : List (String × String)} {policy : UniverseScreenPolicy}

namespace Freezable

section
variable (h : Freezable U reviews snapshots at_ missing)
include h

theorem expiry_later (hr : r ∈ reviews) : at_ < r.expiry := by
  obtain ⟨eligible, -, valid⟩ := h.holds r hr
  have window := (eligibilityFailures_eq_nil.mp eligible).2
  have verified := window.verified.1
  unfold EligibilityReview.expiry
  cases screened : r.metadata.ethicalClearance with
  | none =>
    simp only
    omega
  | some clearance =>
    have cleared := (window.cleared clearance screened).2
    simp only
    omega

theorem freezeMember (hr : r ∈ reviews) :
    freezeMember U snapshots at_ missing r = .ok (memberOf U snapshots missing r) := by
  obtain ⟨-, verified, valid⟩ := h.holds r hr
  have current : r.identifiers.requireCurrent at_ = .ok () := require_eq_ok.mpr ⟨verified, valid⟩
  unfold Money.freezeMember memberOf
  rw [bind_of_ok current]
  cases found : snapshots.find? fun s => s.ticker = r.metadata.ticker with
  | none => rfl
  | some s =>
    have same : s.ticker = r.metadata.ticker := by simpa using List.find?_some found
    obtain ⟨r', hr', instrument, ticker, unbound, created, fresh⟩ := h.known s (mem_of_find?_eq_some found)
    cases eq_of_key h.tickers hr' hr (ticker.symm.trans same)
    simp only [ok_iff]
    exact ⟨⟨instrument, created⟩, unbound, fresh, trivial⟩

theorem memberOf_valid (hr : r ∈ reviews) :
    at_ < (memberOf U snapshots missing r).validUntil ∧ (memberOf U snapshots missing r).validUntil ≤ r.expiry := by
  have later := h.expiry_later hr
  unfold memberOf
  split
  · exact ⟨later, le_refl _⟩
  next s found =>
    obtain ⟨-, -, -, -, -, -, fresh⟩ := h.known s (mem_of_find?_eq_some found)
    refine ⟨?_, foldl_min_le mem_cons_self⟩
    rcases mem_cons.mp (foldl_min_mem r.expiry (s.evidence.map (·.freshUntil))) with same | member
    · exact later.trans_eq same.symm
    · obtain ⟨e, he, until_⟩ := mem_map.mp member
      exact (fresh.2 e he).1.trans_eq until_

theorem qualified (hr : r ∈ reviews) :
    (memberOf U snapshots missing r).qualified U at_ = .ok () := by
  obtain ⟨later, bound⟩ := h.memberOf_valid hr
  obtain ⟨age, cleared⟩ := expiry_bounds
  simp only [FrozenUniverseMember.qualified, ok_iff, memberOf_instrument]
  refine ⟨[], (h.holds r hr).1, rfl, ⟨later, bound.trans age⟩, fun clearance hc => bound.trans (cleared clearance hc), ?_⟩
  rw [memberOf_hash]
  unfold memberOf
  cases snapshots.find? fun s => s.ticker = r.metadata.ticker with
  | none => simpa using (h.statuses r.metadata.ticker).2
  | some s => simp

theorem status (r : EligibilityReview) :
    isStatus (memberOf U snapshots missing r).evidenceStatus = true := by
  unfold memberOf
  split
  · exact (h.statuses r.metadata.ticker).1
  · exact (by decide : isStatus "READY" = true)

end

end Freezable

theorem byTicker_tickers (distinct : (reviews.map (·.metadata.ticker)).Nodup) :
    (byTicker reviews).map (·.metadata.ticker) = Text.sortedSet ((byTicker reviews).map (·.metadata.ticker)) := by
  have total : Std.Total fun a b : EligibilityReview => Text.before a.metadata.ticker b.metadata.ticker = true :=
    ⟨fun a b => Text.before_total _ _⟩
  have trans_ : IsTrans EligibilityReview fun a b => Text.before a.metadata.ticker b.metadata.ticker = true :=
    ⟨fun a b c => Text.before_trans⟩
  refine (Text.sortedSet_of_sorted ?_ ?_).symm
  · exact pairwise_map.mpr (pairwise_insertionSort _ reviews)
  · exact ((byTicker_perm reviews).map _).nodup_iff.mpr distinct

/-- The universe that was frozen from them. -/
structure FrozenFrom (U : UniversePlatform) (reviews : List EligibilityReview) (snapshots : List ResearchSnapshot)
    (at_ : Int) (missing : List (String × String)) (u : QualifiedUniverseSnapshot) : Prop extends
    Freezable U reviews snapshots at_ missing where
  observed : u.observedAt = at_
  lasting : at_ < u.validUntil
  members : u.members = (byTicker reviews).map (memberOf U snapshots missing)

theorem Freezable.frozen (h : Freezable U reviews snapshots at_ missing) :
    ∃ u, freezeQualifiedUniverse U reviews snapshots at_ missing = .ok u ∧ FrozenFrom U reviews snapshots at_ missing u := by
  have perm := byTicker_perm reviews
  have members : (byTicker reviews).mapM (Money.freezeMember U snapshots at_ missing) =
      .ok ((byTicker reviews).map (memberOf U snapshots missing)) :=
    (mapM_eq_ok_iff fun r hr b => by
      rw [h.freezeMember (perm.mem_iff.mp hr), Except.ok.injEq, true_and]).mpr ⟨fun _ _ => trivial, rfl⟩
  obtain ⟨until_, earliest⟩ : ∃ until_, (((byTicker reviews).map (memberOf U snapshots missing)).map
      (·.validUntil)).min? = some until_ := by
    refine Option.isSome_iff_exists.mp (isSome_min?_of_ne_nil ?_)
    simpa [← length_eq_zero_iff, perm.length_eq] using h.reviewed
  have later : at_ < until_ := by
    obtain ⟨m, hm, rfl⟩ := mem_map.mp (List.min?_eq_some_iff.mp earliest).1
    obtain ⟨r, hr, rfl⟩ := mem_map.mp hm
    exact (h.memberOf_valid (perm.mem_iff.mp hr)).1
  let raw : QualifiedUniverseSnapshot := {
    observedAt := at_, validUntil := until_, members := (byTicker reviews).map (memberOf U snapshots missing) }
  refine ⟨{ raw with hash := U.membershipHash raw }, ?_, h, rfl, later, rfl⟩
  simp only [freezeQualifiedUniverse, ok_iff]
  refine ⟨h.reviewed, ⟨h.tickers, h.brokers⟩, ⟨h.distinct, fun s hs => ?_⟩, _, members, until_, earliest, ?_⟩
  · obtain ⟨r, hr, -, ticker, -⟩ := h.known s hs
    exact ticker ▸ mem_map_of_mem hr
  · simp only [QualifiedUniverseSnapshot.frozenMembership, ok_iff, memberOf_tickers]
    refine ⟨fun m hm => ?_, byTicker_tickers h.tickers, later, (), forM_eq_ok.mpr fun m hm => ?_, fun _ => earliest,
      .inl trivial, rfl⟩
    all_goals obtain ⟨r, hr, rfl⟩ := mem_map.mp hm
    · exact h.status r
    · exact h.qualified (perm.mem_iff.mp hr)

namespace FrozenFrom
variable {u : QualifiedUniverseSnapshot}

section
variable (h : FrozenFrom U reviews snapshots at_ missing u)
include h

theorem mem_members {m : FrozenUniverseMember} :
    m ∈ u.members ↔ ∃ r ∈ reviews, memberOf U snapshots missing r = m := by
  rw [h.members, mem_map]
  exact exists_congr fun r => and_congr_left fun _ => (byTicker_perm reviews).mem_iff

theorem nodup : (u.members.map (·.instrument.ticker)).Nodup := by
  rw [h.members, memberOf_tickers]
  exact ((byTicker_perm reviews).map _).nodup_iff.mpr h.tickers

theorem found (hs : s ∈ snapshots) :
    ∃ r ∈ reviews, s.instrument = r.metadata ∧ s.ticker = r.metadata.ticker ∧
      (snapshots.find? fun s => s.ticker = (memberOf U snapshots missing r).instrument.ticker) = some s := by
  obtain ⟨r, hr, instrument, ticker, -⟩ := h.known s hs
  refine ⟨r, hr, instrument, ticker, ?_⟩
  rw [memberOf_instrument]
  exact find_ticker h.distinct hs ticker

end

end FrozenFrom

theorem close_pos (valid : P.validateSnapshot s = .ok s) : ∀ r ∈ screenWindow policy s, 0 < r.2.close := by
  intro r hr
  have priced : r ∈ priceRecords s := (mem_insertionSort _).mp (mem_of_mem_drop hr)
  obtain ⟨e, he, found⟩ := mem_filterMap.mp priced
  obtain ⟨bar, payload, rfl⟩ := Option.map_eq_some_iff.mp found
  simp only [Platform.validateSnapshot, bind_eq_ok] at valid
  obtain ⟨evidence, recorded, -⟩ := valid
  obtain ⟨e', accepted⟩ := isOk_of_mapM recorded e he
  simp only [Platform.provenance, ok_iff] at accepted
  exact ((accepted.1 bar payload).1 bar.close (by simp)).1

namespace FrozenFrom
variable {u : QualifiedUniverseSnapshot}

section
variable (h : FrozenFrom U reviews snapshots at_ missing u)
include h

theorem screened_iff (policy : UniverseScreenPolicy) :
    (∃ screen, screenQualifiedUniverse U u snapshots at_ policy = .ok screen) ↔ ∀ s ∈ snapshots,
      CompleteWindow policy at_ s → ∀ bar ∈ screenWindow policy s, bar.2.currency.code = s.instrument.quoteCurrency := by
  constructor
  · rintro ⟨screen, screened⟩ s hs complete
    obtain ⟨visited, screens, -⟩ := screenQualifiedUniverse_eq_ok.mp screened
    obtain ⟨r, hr, -, ticker, found⟩ := h.found hs
    obtain ⟨x, -, as_⟩ := exists_of_mem_forall₂ screens.members.flip (h.mem_members.mpr ⟨r, hr, rfl⟩)
    cases as_ with
    | missing _ absent =>
      have same : s.ticker = (memberOf U snapshots missing r).instrument.ticker := by rw [memberOf_instrument, ticker]
      exact absurd same (absent s hs)
    | incomplete _ found' _ incomplete =>
      cases found.symm.trans found'
      exact absurd complete incomplete
    | scored _ found' _ _ priced =>
      cases found.symm.trans found'
      exact fun bar hbar => (priced bar hbar).1
  · intro priced
    obtain ⟨visited, all⟩ := mapM_isOk (f := screenMember U snapshots at_ policy) (l := u.members) fun m hm => by
      obtain ⟨r, -, rfl⟩ := h.mem_members.mp hm
      have hash := memberOf_hash U snapshots missing r
      rw [← memberOf_instrument U snapshots missing r] at hash
      cases found : snapshots.find? fun s => s.ticker = (memberOf U snapshots missing r).instrument.ticker with
      | none =>
        refine ⟨_, screenMember_eq_ok.mpr (.missing (by rw [hash, found]; rfl) fun s hs => ?_)⟩
        simpa using List.find?_eq_none.mp found s hs
      | some s =>
        have hs := mem_of_find?_eq_some found
        rw [found] at hash
        by_cases complete : CompleteWindow policy at_ s
        · exact ⟨_, screenMember_eq_ok.mpr (.scored s found hash complete fun bar hbar =>
            ⟨priced s hs complete bar hbar, close_pos (h.valid s hs) bar hbar⟩)⟩
        · exact ⟨_, screenMember_eq_ok.mpr (.incomplete s found hash complete)⟩
    refine ⟨_, screenQualifiedUniverse_eq_ok.mpr ⟨visited, ⟨⟨h.observed.le, h.lasting⟩, h.distinct, fun s hs => ?_,
      (forall₂_of_mapM all).imp fun _ _ ok => screenMember_eq_ok.mp ok⟩, h.nodup, rfl⟩⟩
    obtain ⟨r, hr, -, ticker, -⟩ := h.found hs
    exact mem_map.mpr ⟨_, h.mem_members.mpr ⟨r, hr, rfl⟩, by rw [memberOf_instrument, ticker]⟩

theorem hashes_perm : (snapshots.map fun s => (s.ticker, s.hash)).Perm
      (u.members.filterMap fun m => m.snapshotHash.map fun hash => (m.instrument.ticker, hash)) := by
  have left : (snapshots.map fun s => (s.ticker, s.hash)).Nodup :=
    List.Nodup.of_map (·.1) (by rw [map_map]; exact h.distinct)
  have right : (u.members.filterMap fun m => m.snapshotHash.map fun hash => (m.instrument.ticker, hash)).Nodup := by
    refine List.Nodup.of_map (·.1) (nodup_filterMap (fun m pair found => ?_) h.nodup)
    obtain ⟨_, -, rfl⟩ := Option.map_eq_some_iff.mp found
    rfl
  refine (perm_ext_iff_of_nodup left right).mpr fun pair => ?_
  simp only [mem_map, mem_filterMap, Option.map_eq_some_iff]
  constructor
  · rintro ⟨s, hs, rfl⟩
    obtain ⟨r, hr, -, ticker, found⟩ := h.found hs
    rw [memberOf_instrument] at found
    refine ⟨_, h.mem_members.mpr ⟨r, hr, rfl⟩, s.hash, ?_, by rw [memberOf_instrument, ticker]⟩
    rw [memberOf_hash, found]
    rfl
  · rintro ⟨m, hm, hash, member, rfl⟩
    obtain ⟨r, -, rfl⟩ := h.mem_members.mp hm
    rw [memberOf_hash] at member
    obtain ⟨s, found, rfl⟩ := Option.map_eq_some_iff.mp member
    refine ⟨s, mem_of_find?_eq_some found, ?_⟩
    rw [memberOf_instrument, show s.ticker = r.metadata.ticker by simpa using List.find?_some found]

theorem complete {screen : UniverseScreen}
    (screened : screenQualifiedUniverse U u snapshots at_ policy = .ok screen) :
    ({ frozen := u, screen, snapshots } : UniverseResearchContext).complete U = .ok () := by
  obtain ⟨visited, screens, -, rfl⟩ := screenQualifiedUniverse_eq_ok.mp screened
  have entries : ((screenOf U u policy visited).entries.map (·.ticker)).Perm (u.members.map (·.instrument.ticker)) :=
    screens.tickers ▸ screenOf_entries
  simp only [UniverseResearchContext.complete, ok_iff]
  refine ⟨rfl, ⟨entries.subset, entries.symm.subset⟩, ⟨?_, h.hashes_perm.subset, h.hashes_perm.symm.subset⟩, _, ?_, rfl⟩
  · simpa using h.hashes_perm.length_eq
  · rw [h.observed]
    exact screened

end

end FrozenFrom

/-! ### The rebuild -/

namespace UniverseCall
variable (c : UniverseCall U) (admitted : List EligibilityReview)

def held : List EligibilityReview := admitted.filter fun r => c.Fresh r

def acquired : List (EligibilityReview × (Frozen U.toPlatform ⊕ String)) :=
  (byTicker admitted).map fun r => (r, c.outcome r)

def offered : List ResearchSnapshot := evidence (c.held admitted) (c.acquired admitted)

def ready : List ResearchSnapshot := (c.offered admitted).filter fun s => c.Ready s

def reasons : List (String × String) := c.missing (c.acquired admitted) (c.offered admitted)

end UniverseCall

variable {admitted : List EligibilityReview}

theorem filter_marks {α : Type} (p : α → Bool) : ∀ l : List α, ((l.zip (l.map p)).filter (·.2)).map (·.1) = l.filter p
  | [] => rfl
  | a :: l => by
    rw [map_cons, zip_cons_cons, filter_cons, filter_cons]
    cases p a <;> simp [filter_marks p l]

variable {context : UniverseResearchContext}

theorem rebuild_eq_ok (h : AdmittedUniverse U admitted) :
    c.rebuild policy admitted = .ok context ↔ Dated c.frozenAt ∧ (∀ r ∈ admitted, c.Caught r) ∧
      freezeQualifiedUniverse U (c.held admitted) (c.ready admitted) c.frozenAt (c.reasons admitted) = .ok context.frozen ∧
      screenQualifiedUniverse U context.frozen (c.ready admitted) c.frozenAt policy = .ok context.screen ∧
      context.snapshots = c.ready admitted ∧ context.complete U = .ok () := by
  have acquired : ∀ acquired, (byTicker admitted).mapM c.acquire = .ok acquired ↔
      (∀ r ∈ byTicker admitted, c.Caught r) ∧ c.acquired admitted = acquired := fun acquired =>
    mapM_eq_ok_iff fun r _ x => acquire_eq_ok
  have marks : Dated c.frozenAt → ∀ marks, admitted.mapM c.fresh = .ok marks ↔
      (∀ r ∈ admitted, True) ∧ (admitted.map fun r => decide (c.Fresh r)) = marks := fun dated marks =>
    mapM_eq_ok_iff fun r hr b => fresh_eq_ok dated (h.listed r hr)
  simp only [rebuild, ok_iff, acquired]
  constructor
  · rintro ⟨_, ⟨caught, rfl⟩, _, marked, frozen, froze, screen, screened, ⟨⟩, complete, rfl⟩
    obtain ⟨r, hr⟩ := exists_mem_of_ne_nil _ h.inhabited
    obtain ⟨b, fresh⟩ := isOk_of_mapM marked r hr
    have dated := dated_of_fresh fresh
    obtain ⟨-, rfl⟩ := (marks dated _).mp marked
    rw [filter_marks] at froze screened complete ⊢
    exact ⟨dated, fun r hr => caught r ((byTicker_perm admitted).mem_iff.mpr hr), froze, screened, rfl, complete⟩
  · rintro ⟨dated, caught, froze, screened, snapshots, complete⟩
    refine ⟨_, ⟨fun r hr => caught r ((byTicker_perm admitted).mem_iff.mp hr), rfl⟩, _,
      (marks dated _).mpr ⟨fun _ _ => trivial, rfl⟩, ?_⟩
    rw [filter_marks]
    obtain ⟨frozen, screen, _⟩ := context
    cases snapshots
    exact ⟨frozen, froze, screen, screened, (), complete, rfl⟩

theorem mem_held : r ∈ c.held admitted ↔ r ∈ admitted ∧ c.Fresh r := by
  simp [held]

theorem mem_ready (h : AdmittedUniverse U admitted) :
    s ∈ c.ready admitted ↔ ∃ r ∈ admitted, c.Fresh r ∧ c.usable r = some s := by
  simp only [ready, offered, evidence, acquired, mem_filter,
    mem_filterMap, mem_map, decide_eq_true_eq, usable_eq_some, Option.map_eq_some_iff, mem_held]
  constructor
  · rintro ⟨⟨⟨_, ⟨r, hr, rfl⟩, value, found, rfl⟩, r', ⟨hr', fresh⟩, ticker⟩, ready⟩
    have outcome := Sum.getLeft?_eq_some_iff.mp found
    have hr := (byTicker_perm admitted).mem_iff.mp hr
    cases eq_of_key h.tickers hr' hr (ticker.trans (outcome_inl outcome).2.2)
    exact ⟨r, hr, fresh, value, outcome, rfl, ready⟩
  · rintro ⟨r, hr, fresh, value, outcome, rfl, ready⟩
    refine ⟨⟨⟨_, ⟨r, (byTicker_perm admitted).mem_iff.mpr hr, rfl⟩, value, Sum.getLeft?_eq_some_iff.mpr outcome, rfl⟩,
      r, ⟨hr, fresh⟩, (outcome_inl outcome).2.2.symm⟩, ready⟩

theorem ready_tickers (h : AdmittedUniverse U admitted) : ((c.ready admitted).map (·.ticker)).Nodup := by
  refine nodup_filter _ (nodup_filter _ ?_)
  rw [acquired, filterMap_map]
  refine nodup_filterMap (k := fun r : EligibilityReview => r.metadata.ticker) (fun r s found => ?_) ?_
  · obtain ⟨value, left, rfl⟩ := Option.map_eq_some_iff.mp found
    exact (outcome_inl (Sum.getLeft?_eq_some_iff.mp left)).2.2
  · exact ((byTicker_perm admitted).map _).nodup_iff.mpr h.tickers

theorem outcome_inr {reason : String} (h : c.outcome r = .inr reason) :
    reason = "RESEARCH_EVIDENCE_NOT_VERIFIED" ∨ reason = "RESEARCH_PROVIDER_UNAVAILABLE" := by
  unfold outcome at h
  split at h
  · split at h <;> cases h
    exact .inl rfl
  · cases h
    exact .inr rfl
  · cases h
    exact .inl rfl

def missingReasons : List String :=
  ["RESEARCH_EVIDENCE_REQUIRED", "RESEARCH_EVIDENCE_NOT_VERIFIED", "RESEARCH_PROVIDER_UNAVAILABLE",
    "RESEARCH_CURRENT_EVIDENCE_REQUIRED"]

theorem reasons_known (ticker : String) :
    ((c.reasons admitted).lookup ticker).getD "RESEARCH_EVIDENCE_REQUIRED" ∈ missingReasons := by
  have each : ∀ pair ∈ c.reasons admitted, pair.2 ∈ missingReasons := by
    intro pair hpair
    rcases mem_append.mp hpair with failed | stale
    · obtain ⟨a, ha, found⟩ := mem_filterMap.mp failed
      obtain ⟨r, -, rfl⟩ := mem_map.mp ha
      obtain ⟨reason, right, rfl⟩ := Option.map_eq_some_iff.mp found
      rcases outcome_inr (Sum.getRight?_eq_some_iff.mp right) with rfl | rfl <;> simp [missingReasons]
    · obtain ⟨s, -, rfl⟩ := mem_map.mp stale
      simp [missingReasons]
  cases found : (c.reasons admitted).lookup ticker with
  | none => simp [missingReasons]
  | some reason =>
    obtain ⟨before, after, split, -⟩ := lookup_eq_some_iff.mp found
    exact each (ticker, reason) (by rw [split]; simp)

theorem missingReasons_status : ∀ reason ∈ missingReasons, isStatus reason = true ∧ reason ≠ "READY" := by decide

theorem freezable (h : AdmittedUniverse U admitted) (some_ : c.held admitted ≠ [])
    (brokers : ((c.held admitted).map (·.identifiers.trading212Id)).Nodup) :
    Freezable U (c.held admitted) (c.ready admitted) c.frozenAt (c.reasons admitted) where
  reviewed := some_
  tickers := nodup_filter _ h.tickers
  brokers := brokers
  distinct := ready_tickers h
  known s hs := by
    obtain ⟨r, hr, fresh, usable⟩ := (mem_ready h).mp hs
    obtain ⟨value, outcome, rfl, created, current⟩ := usable_eq_some.mp usable
    obtain ⟨instrument, unbound, ticker⟩ := outcome_inl outcome
    exact ⟨r, mem_held.mpr ⟨hr, fresh⟩, instrument, ticker, unbound, created, current⟩
  holds r hr := fresh_iff.mp (mem_held.mp hr).2
  valid s hs := by
    obtain ⟨r, -, -, usable⟩ := (mem_ready h).mp hs
    obtain ⟨value, -, rfl, -⟩ := usable_eq_some.mp usable
    exact value.valid
  statuses ticker := missingReasons_status _ (reasons_known ticker)

/-! ### The answer -/

theorem validateSnapshot_rebind (valid : P.validateSnapshot s = .ok s) (hash : Hash) :
    ∃ bound, P.validateSnapshot { s with universeHash := some hash, hash := "" } = .ok bound := by
  simp only [Platform.validateSnapshot, Platform.freezeFacts, ok_iff] at valid ⊢
  obtain ⟨evidence, recorded, ⟨⟩, screened, purpose, ticker, verified, historical, ids, enriched, cutoffs, ⟨⟩, records, -,
    -⟩ := valid
  refine ⟨_, evidence, recorded, (), screened, fun testing => ?_, ticker, verified, historical, ids, enriched, cutoffs, (),
    records, .inl trivial, rfl⟩
  obtain ⟨scope, disabled, -⟩ := purpose testing
  exact ⟨scope, disabled, by simp⟩

section
variable (h : AdmittedUniverse U admitted)
include h

theorem mem_scores_iff
    (frozen : FrozenFrom U (c.held admitted) (c.ready admitted) c.frozenAt (c.reasons admitted) u) :
    Qualified U.toPlatform u (c.ready admitted) c.frozenAt policy entry ↔ entry ∈ admitted.filterMap (c.score policy) := by
  rw [mem_filterMap]
  constructor
  · rintro ⟨m, -, s, hs, -, ticker, complete, value⟩
    obtain ⟨r, hr, fresh, usable⟩ := (mem_ready h).mp hs
    obtain ⟨_, outcome, rfl, -⟩ := usable_eq_some.mp usable
    refine ⟨r, hr, score_eq_some.mpr ⟨fresh, _, usable, complete, ?_⟩⟩
    rw [← value, ← (outcome_inl outcome).2.2, ticker]
  · rintro ⟨r, hr, scored⟩
    obtain ⟨fresh, s, usable, complete, rfl⟩ := score_eq_some.mp scored
    obtain ⟨_, outcome, rfl, -⟩ := usable_eq_some.mp usable
    exact ⟨_, frozen.mem_members.mpr ⟨r, mem_held.mpr ⟨hr, fresh⟩, rfl⟩, _, (mem_ready h).mpr ⟨r, hr, fresh, usable⟩,
      congrArg _ (memberOf_instrument ..), (outcome_inl outcome).2.2, complete, rfl⟩

theorem scores_nodup : (admitted.filterMap (c.score policy)).Nodup := by
  refine List.Nodup.of_map (·.2) (nodup_filterMap (fun r entry scored => ?_) h.tickers)
  obtain ⟨-, s, -, -, rfl⟩ := score_eq_some.mp scored
  rfl

theorem selected_iff
    (frozen : FrozenFrom U (c.held admitted) (c.ready admitted) c.frozenAt (c.reasons admitted) u) {screen : UniverseScreen}
    (screened : screenQualifiedUniverse U u (c.ready admitted) c.frozenAt policy = .ok screen) :
    ticker ∈ screen.selectedTickers ↔ ∃ r ∈ admitted, r.metadata.ticker = ticker ∧ ∃ own ∈ c.score policy r,
      (admitted.filterMap (c.score policy)).countP (fun other => Ahead other own) < policy.maximumCandidates := by
  obtain ⟨visited, screens, distinct, rfl⟩ := screenQualifiedUniverse_eq_ok.mp screened
  obtain ⟨ranking, members, sorted, selected⟩ := exists_ranking screens distinct
  have perm : ranking.Perm (admitted.filterMap (c.score policy)) := by
    have nodup : ranking.Nodup := sorted.imp fun {a b} ahead => by
      rintro rfl
      exact ahead_asymm a a ahead ahead
    exact (perm_ext_iff_of_nodup nodup (scores_nodup h)).mpr fun entry => (members entry).trans (mem_scores_iff h frozen)
  change ticker ∈ (screenOf U u policy visited).selectedTickers ↔ _
  rw [selected]
  simp only [mem_map, Ranking.mem_take_iff ahead_asymm sorted, perm.mem_iff, perm.countP_eq, mem_filterMap]
  constructor
  · rintro ⟨own, ⟨⟨r, hr, scored⟩, few⟩, rfl⟩
    obtain ⟨-, s, -, -, same⟩ := score_eq_some.mp scored
    exact ⟨r, hr, by rw [same], own, scored, few⟩
  · rintro ⟨r, hr, rfl, own, scored, few⟩
    obtain ⟨-, s, -, -, same⟩ := score_eq_some.mp scored
    exact ⟨own, ⟨⟨r, hr, scored⟩, few⟩, by rw [same]⟩

theorem candidate_answers_iff (context : UniverseResearchContext)
    (frozen : FrozenFrom U (c.held admitted) (c.ready admitted) c.frozenAt (c.reasons admitted) context.frozen)
    (screened : screenQualifiedUniverse U context.frozen (c.ready admitted) c.frozenAt policy = .ok context.screen)
    (snapshots : context.snapshots = c.ready admitted) :
    (∃ s, context.candidate U instrument = .ok s) ↔ ∃ r ∈ admitted, r.metadata = instrument ∧ ∃ own ∈ c.score policy r,
      (admitted.filterMap (c.score policy)).countP (fun other => Ahead other own) < policy.maximumCandidates := by
  have offered : ∀ {r : EligibilityReview}, r ∈ admitted → ∀ own ∈ c.score policy r, ∃ s,
      s.instrument = r.metadata ∧ s ∈ c.ready admitted ∧
        (context.snapshots.find? fun s => s.ticker = r.metadata.ticker) = some s := by
    intro r hr own scored
    obtain ⟨fresh, s, usable, -, -⟩ := score_eq_some.mp scored
    obtain ⟨_, outcome, rfl, -⟩ := usable_eq_some.mp usable
    obtain ⟨instrument, -, ticker⟩ := outcome_inl outcome
    have member := (mem_ready h).mpr ⟨r, hr, fresh, usable⟩
    exact ⟨_, instrument, member, by rw [snapshots]; exact find_ticker frozen.distinct member ticker⟩
  simp only [UniverseResearchContext.candidate, ok_iff, selected_iff h frozen screened]
  constructor
  · rintro ⟨s, ⟨r, hr, ticker, own, scored, few⟩, original, found, rfl, -⟩
    obtain ⟨s', instrument, -, found'⟩ := offered hr own scored
    rw [ticker, found] at found'
    cases found'
    exact ⟨r, hr, instrument.symm, own, scored, few⟩
  · rintro ⟨r, hr, rfl, own, scored, few⟩
    obtain ⟨s, instrument, member, found⟩ := offered hr own scored
    obtain ⟨r', hr', -, ticker, found'⟩ := frozen.found member
    obtain ⟨bound, valid⟩ := validateSnapshot_rebind (frozen.valid s member) context.frozen.hash
    refine ⟨bound, ⟨r, hr, rfl, own, scored, few⟩, s, found, instrument, ?_⟩
    simp only [bindUniverseSnapshot, ok_iff]
    refine ⟨{ ticker := s.ticker, snapshotHash := some s.hash }, ?_, rfl, valid⟩
    have key : (context.read.members.map (·.ticker)).Nodup := by
      simpa [UniverseResearchContext.read, map_map, Function.comp_def] using frozen.nodup
    refine get?_of_mem (r := { ticker := s.ticker, snapshotHash := some s.hash }) key ?_
    refine mem_map.mpr ⟨_, frozen.mem_members.mpr ⟨r', hr', rfl⟩, ?_⟩
    rw [memberOf_instrument] at found' ⊢
    rw [memberOf_hash, found', ticker]
    rfl

theorem rebuild_frozen
    (built : c.rebuild policy admitted = .ok context) : (∀ r ∈ admitted, c.Caught r) ∧
      FrozenFrom U (c.held admitted) (c.ready admitted) c.frozenAt (c.reasons admitted) context.frozen ∧
      screenQualifiedUniverse U context.frozen (c.ready admitted) c.frozenAt policy = .ok context.screen := by
  obtain ⟨-, caught, froze, screened, -⟩ := (rebuild_eq_ok h).mp built
  have held : c.held admitted ≠ [] ∧ ((c.held admitted).map (·.identifiers.trading212Id)).Nodup := by
    simp only [freezeQualifiedUniverse, ok_iff] at froze
    exact ⟨froze.1, froze.2.1.2⟩
  obtain ⟨u, froze', frozen⟩ := (freezable h held.1 held.2).frozen
  cases Except.ok.inj (froze.symm.trans froze')
  exact ⟨caught, frozen, screened⟩

end

theorem exists_context {state : Option UniverseResearchContext} (h : (c.run policy state instrument).1 = .ok s) :
    ∃ context, c.run policy state instrument = (.ok s, some context) := by
  unfold run at h ⊢
  split at h
  · cases h
  · split at h
    · cases h
    next context _ => exact ⟨context, congrArg (·, some context) h⟩

section
variable {state : Option UniverseResearchContext} (admission : c.admission = .ok admitted)
  (unused : ∀ context ∈ state, ¬ c.Cached context admitted)
include admission unused

theorem run_eq_ok : c.run policy state instrument = (.ok s, some context) ↔
    c.rebuild policy admitted = .ok context ∧ context.candidate U instrument = .ok s := by
  have builds : c.contextOf policy state admitted = c.rebuild policy admitted := by
    have none_ : (state.filter fun context => c.Cached context admitted) = none :=
      Option.filter_eq_none_iff.mpr fun context hcontext => by simpa using unused context hcontext
    simp only [contextOf, none_]
  simp only [run, admission, builds]
  cases c.rebuild policy admitted with
  | error e => simp
  | ok built =>
    simp only [Prod.mk.injEq, Option.some.injEq, Except.ok.injEq]
    constructor
    · rintro ⟨answered, rfl⟩
      exact ⟨rfl, answered⟩
    · rintro ⟨rfl, answered⟩
      exact ⟨answered, rfl⟩

theorem run_answers_iff : (∃ s context, c.run policy state instrument = (.ok s, some context)) ↔
    c.Answers policy admitted instrument := by
  obtain ⟨-, -, -, -, -, h⟩ := admission_eq_ok admission
  simp only [run_eq_ok admission unused]
  constructor
  · rintro ⟨s, context, built, answers⟩
    obtain ⟨caught, frozen, screened⟩ := rebuild_frozen h built
    obtain ⟨-, -, -, -, snapshots, -⟩ := (rebuild_eq_ok h).mp built
    refine ⟨caught, frozen.brokers, fun r hr fresh s usable => ?_,
      (candidate_answers_iff h context frozen screened snapshots).mp ⟨s, answers⟩⟩
    exact (frozen.screened_iff policy).mp ⟨_, screened⟩ s ((mem_ready h).mpr ⟨r, hr, fresh, usable⟩)
  · intro answers
    obtain ⟨r, hr, -, own, scored, -⟩ := answers.selected
    have fresh := (score_eq_some.mp scored).1
    have some_ : c.held admitted ≠ [] := ne_nil_of_mem (mem_held.mpr ⟨hr, fresh⟩)
    obtain ⟨u, froze, frozen⟩ := (freezable h some_ answers.brokers).frozen
    obtain ⟨screen, screened⟩ := (frozen.screened_iff policy).mpr fun s hs => by
      obtain ⟨r, hr, fresh, usable⟩ := (mem_ready h).mp hs
      exact answers.priced r hr fresh s usable
    have built : c.rebuild policy admitted = .ok ⟨u, screen, c.ready admitted⟩ :=
      (rebuild_eq_ok h).mpr ⟨dated_of_fresh fresh, answers.caught, froze, screened, rfl, frozen.complete screened⟩
    obtain ⟨s, answered⟩ := (candidate_answers_iff h ⟨u, screen, c.ready admitted⟩ frozen screened rfl).mpr answers.selected
    exact ⟨s, _, built, answered⟩

end

/-! ### With a member and without it -/

/-- The member is still eligible when the universe is frozen, shares no broker identity, has its ranked bars in its own
    currency, and where it is ahead there is room for both. -/
structure UniverseCall.Harmless (c : UniverseCall U) (policy : UniverseScreenPolicy) (rest : List EligibilityReview)
    (m : EligibilityReview) (instrument : InstrumentMetadata) : Prop where
  fresh : c.Fresh m
  broker : ∀ r ∈ rest, c.Fresh r → r.identifiers.trading212Id ≠ m.identifiers.trading212Id
  priced : c.Priced policy m
  room : ∀ score ∈ c.score policy m, ∀ r ∈ rest, r.metadata = instrument → ∀ own ∈ c.score policy r, Ahead score own →
    (rest.filterMap (c.score policy)).countP (fun other => Ahead other own) + 1 < policy.maximumCandidates

section
variable {m : EligibilityReview} {rest : List EligibilityReview} {instrument : InstrumentMetadata}

theorem brokers_cons_iff (base : ((rest.filter fun r => c.Fresh r).map (·.identifiers.trading212Id)).Nodup)
    (fresh : c.Fresh m) : (((m :: rest).filter fun r => c.Fresh r).map (·.identifiers.trading212Id)).Nodup ↔
      ∀ r ∈ rest, c.Fresh r → r.identifiers.trading212Id ≠ m.identifiers.trading212Id := by
  simp [fresh, base]

theorem countP_scores_cons (own : Rat × String) :
    ((m :: rest).filterMap (c.score policy)).countP (fun other => Ahead other own) < policy.maximumCandidates ↔
      (rest.filterMap (c.score policy)).countP (fun other => Ahead other own) < policy.maximumCandidates ∧
        ∀ score ∈ c.score policy m, Ahead score own →
          (rest.filterMap (c.score policy)).countP (fun other => Ahead other own) + 1 < policy.maximumCandidates := by
  cases scored : c.score policy m with
  | none =>
    rw [filterMap_cons_none scored]
    simp
  | some score =>
    rw [filterMap_cons_some scored, countP_cons]
    by_cases ahead : Ahead score own
    · simp only [ahead, decide_true, if_true, Option.mem_some_iff, forall_eq', forall_const]
      omega
    · simp [ahead]

theorem answers_cons_iff (h : AdmittedUniverse U admitted) (perm : admitted.Perm (m :: rest)) (caught : c.Caught m)
    (other : instrument.ticker ≠ m.metadata.ticker) (base : c.Answers policy rest instrument) :
    c.Answers policy admitted instrument ∧ c.Fresh m ↔ c.Harmless policy rest m instrument := by
  have brokers := fun fresh => ((perm.filter fun r => c.Fresh r).map (·.identifiers.trading212Id)).nodup_iff.trans
    (brokers_cons_iff base.brokers fresh)
  have few : ∀ own, (admitted.filterMap (c.score policy)).countP (fun other => Ahead other own) =
      ((m :: rest).filterMap (c.score policy)).countP (fun other => Ahead other own) :=
    fun own => (perm.filterMap _).countP_eq _
  have inside : ∀ r ∈ rest, r ∈ admitted := fun r hr => perm.mem_iff.mpr (mem_cons_of_mem _ hr)
  constructor
  · rintro ⟨answers, fresh⟩
    refine ⟨fresh, (brokers fresh).mp answers.brokers, answers.priced m (perm.mem_iff.mpr mem_cons_self), ?_⟩
    intro score scored r hr same own hown ahead
    obtain ⟨r', hr', same', own', hown', fits⟩ := answers.selected
    cases eq_of_key h.tickers hr' (inside r hr) (by rw [same, same'])
    cases Option.mem_unique hown hown'
    rw [few, countP_scores_cons] at fits
    exact fits.2 score scored ahead
  · intro harmless
    obtain ⟨r, hr, same, own, hown, fits⟩ := base.selected
    refine ⟨⟨fun r hr => ?_, (brokers harmless.fresh).mpr harmless.broker, fun r hr => ?_, r, inside r hr, same, own, hown,
      ?_⟩, harmless.fresh⟩
    · rcases mem_cons.mp (perm.mem_iff.mp hr) with rfl | hr
      · exact caught
      · exact base.caught r hr
    · rcases mem_cons.mp (perm.mem_iff.mp hr) with rfl | hr
      · exact harmless.priced
      · exact base.priced r hr
    · rw [few, countP_scores_cons]
      exact ⟨fits, fun score scored => harmless.room score scored r hr same own hown⟩

end

/-- The screen lists the member, and one that it could not rank as unresolved, with a reason and never selected. -/
def UniverseCall.Reports (c : UniverseCall U) (policy : UniverseScreenPolicy) (m : EligibilityReview)
    (context : UniverseResearchContext) : Prop :=
  ∃ e ∈ context.screen.entries, e.ticker = m.metadata.ticker ∧ (c.score policy m = none →
    m.metadata.ticker ∉ context.screen.selectedTickers ∧ e.state = .unresolvedData ∧
      e.reason ∈ "SCREEN_CURRENT_PIT_HISTORY_REQUIRED" :: missingReasons)

section
variable {m : EligibilityReview} (h : AdmittedUniverse U admitted) (hm : m ∈ admitted)
include h hm

theorem unscored_entry
    (frozen : FrozenFrom U (c.held admitted) (c.ready admitted) c.frozenAt (c.reasons admitted) u) {visited : List Screened}
    (screens : Screens U u (c.ready admitted) c.frozenAt policy visited) (fresh : c.Fresh m)
    (unscored : c.score policy m = none) : ∃ e, .unresolved e ∈ visited ∧ e.ticker = m.metadata.ticker ∧
      e.state = .unresolvedData ∧ e.reason ∈ "SCREEN_CURRENT_PIT_HISTORY_REQUIRED" :: missingReasons := by
  have member := frozen.mem_members.mpr ⟨m, mem_held.mpr ⟨hm, fresh⟩, rfl⟩
  obtain ⟨x, hx, as_⟩ := exists_of_mem_forall₂ screens.members.flip member
  have instrument := memberOf_instrument U (c.ready admitted) (c.reasons admitted) m
  cases as_ with
  | missing unfrozen absent =>
    refine ⟨_, hx, congrArg InstrumentMetadata.ticker instrument, rfl, mem_cons_of_mem _ ?_⟩
    exact memberOf_status U _ _ m unfrozen ▸ reasons_known m.metadata.ticker
  | incomplete s => exact ⟨_, hx, congrArg InstrumentMetadata.ticker instrument, rfl, mem_cons_self⟩
  | scored s found _ complete =>
    rw [instrument] at found
    obtain ⟨r, hr, fresh', usable⟩ := (mem_ready h).mp (mem_of_find?_eq_some found)
    obtain ⟨value, outcome, rfl, -⟩ := usable_eq_some.mp usable
    have same : value.snapshot.ticker = m.metadata.ticker := by simpa using List.find?_some found
    cases eq_of_key h.tickers hr hm ((outcome_inl outcome).2.2.symm.trans same)
    have scored := score_eq_some.mpr ⟨fresh, _, usable, complete, rfl⟩
    exact absurd scored (by simp [unscored])

theorem reports_iff (built : c.rebuild policy admitted = .ok context) : c.Reports policy m context ↔ c.Fresh m := by
  obtain ⟨-, frozen, screened⟩ := rebuild_frozen h built
  obtain ⟨visited, screens, -, sealed⟩ := screenQualifiedUniverse_eq_ok.mp screened
  have listed : (∃ e ∈ context.screen.entries, e.ticker = m.metadata.ticker) ↔ c.Fresh m := by
    have tickers : (context.screen.entries.map (·.ticker)).Perm (context.frozen.members.map (·.instrument.ticker)) := by
      rw [← screens.tickers, sealed]
      exact screenOf_entries (U := U) (u := context.frozen)
    rw [← mem_map, tickers.mem_iff, frozen.members, memberOf_tickers, mem_map]
    constructor
    · rintro ⟨r, hr, same⟩
      obtain ⟨member, fresh⟩ := mem_held.mp ((byTicker_perm _).mem_iff.mp hr)
      cases eq_of_key h.tickers member hm same
      exact fresh
    · exact fun fresh => ⟨m, (byTicker_perm _).mem_iff.mpr (mem_held.mpr ⟨hm, fresh⟩), rfl⟩
  refine ⟨fun ⟨e, he, same, _⟩ => listed.mp ⟨e, he, same⟩, fun fresh => ?_⟩
  by_cases unscored : c.score policy m = none
  · obtain ⟨e, he, same, unresolved, reason⟩ := unscored_entry h hm frozen screens fresh unscored
    refine ⟨e, ?_, same, fun _ => ⟨fun selected => ?_, unresolved, reason⟩⟩
    · rw [sealed]
      exact mem_append_right _ ((mem_insertionSort _).mpr (mem_filterMap.mpr ⟨_, he, rfl⟩))
    · obtain ⟨r, hr, same, own, scored, -⟩ := (selected_iff h frozen screened).mp selected
      cases eq_of_key h.tickers hr hm same
      exact absurd scored (by simp [unscored])
  · obtain ⟨e, he, same⟩ := listed.mpr fresh
    exact ⟨e, he, same, fun unscored' => absurd unscored' unscored⟩

end

/-- A call that would be answered without a member is answered with it, and reports the member, if and only if the member
    is harmless. -/
theorem member_vetoes_iff (c : UniverseCall U) (policy : UniverseScreenPolicy) (state : Option UniverseResearchContext)
    (admitted : List EligibilityReview) (admission : c.admission = .ok admitted)
    (unused : ∀ context ∈ state, ¬ c.Cached context admitted) (m : EligibilityReview) (hm : m ∈ admitted)
    (caught : ∀ e, c.build m.metadata ≠ .error (.other e)) (instrument : InstrumentMetadata)
    (other : instrument.ticker ≠ m.metadata.ticker) (alone : ResearchSnapshot)
    (answer : ((c.without m.metadata.ticker).run policy none instrument).1 = .ok alone) :
    (∃ s context, c.run policy state instrument = (.ok s, some context) ∧ c.Reports policy m context) ↔
      c.Harmless policy (admitted.filter fun r => r.metadata.ticker ≠ m.metadata.ticker) m instrument := by
  obtain ⟨-, -, -, -, -, h⟩ := admission_eq_ok admission
  have base : c.Answers policy (admitted.filter fun r => r.metadata.ticker ≠ m.metadata.ticker) instrument := by
    cases remaining : (c.without m.metadata.ticker).admission with
    | error e =>
      simp only [run, remaining] at answer
      cases answer
    | ok rest =>
      obtain rfl := admission_without admission remaining
      -- nothing of the answer but the admission reads the universe
      obtain ⟨caught, brokers, priced, selected⟩ := (run_answers_iff remaining (by simp)).mp ⟨alone, exists_context answer⟩
      exact ⟨caught, brokers, priced, selected⟩
  rw [← answers_cons_iff h (perm_cons_filter h.tickers hm) caught other base, ← run_answers_iff admission unused]
  constructor
  · rintro ⟨s, context, ran, reports⟩
    exact ⟨⟨s, context, ran⟩, (reports_iff h hm ((run_eq_ok admission unused).mp ran).1).mp reports⟩
  · rintro ⟨⟨s, context, ran⟩, fresh⟩
    exact ⟨s, context, ran, (reports_iff h hm ((run_eq_ok admission unused).mp ran).1).mpr fresh⟩

def xyzFrozen : Frozen plainPlatform := ⟨sampleSnapshot "XYZ" .gbp, by decide +kernel⟩

theorem member_vetoes_iff_failing : ∃ s context,
    (sampleCall 0 (.error .provider)).run {} none (sampleInstrument "ABC") = (.ok s, some context) ∧
    (sampleCall 0 (.error .provider)).Reports {} (sampleReview "XYZ") context := by
  obtain ⟨alone, answer, -⟩ : ∃ s, (((sampleCall 0 (.error .provider)).without "XYZ").run {} none
      (sampleInstrument "ABC")).1 = .ok s ∧ True := by
    apply exists_of_toOption
    decide +kernel
  have unusable : (sampleCall 0 (.error .provider)).usable (sampleReview "XYZ") = none := by decide +kernel
  have unscored : (sampleCall 0 (.error .provider)).score {} (sampleReview "XYZ") = none := by decide +kernel
  refine (member_vetoes_iff (sampleCall 0 (.error .provider)) {} none [sampleReview "ABC", sampleReview "XYZ"]
    (by decide +kernel) (by simp) (sampleReview "XYZ") (by simp) (fun e failed => by cases failed) (sampleInstrument "ABC")
    (by decide) alone answer).mpr ⟨by decide +kernel, by decide +kernel, fun _ s usable => ?_, fun _ scored => ?_⟩
  · exact absurd usable (by simp [unusable])
  · exact absurd scored (by simp [unscored])

/-- A valid snapshot in another currency than its instrument takes the whole universe down. -/
theorem foreign_currency_vetoes :
    (∃ s, (((sampleCall 0 (.ok xyzFrozen)).without "XYZ").run {} none (sampleInstrument "ABC")).1 = .ok s) ∧
    (sampleCall 0 (.ok xyzFrozen)).run {} none (sampleInstrument "ABC") =
      (.error (.value "UNIVERSE_SCREEN_CURRENCY_MISMATCH"), none) := by
  refine ⟨?_, by decide +kernel⟩
  obtain ⟨s, answered, -⟩ : ∃ s, (((sampleCall 0 (.ok xyzFrozen)).without "XYZ").run {} none
      (sampleInstrument "ABC")).1 = .ok s ∧ True := by
    apply exists_of_toOption
    decide +kernel
  exact ⟨s, answered⟩

end Money
