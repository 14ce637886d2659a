import Money.System
import Money.Theorems.Gates
import Money.Theorems.Universe

/-! The live builder against `context_for` and the store. A kept context was built by some call, so every contract in it
    was validated; the store's own validation then returns the same context. -/

namespace Money
open Checked List

variable {U : UniversePlatform} {u u' : QualifiedUniverseSnapshot} {screen : UniverseScreen} {at_ : Int}
  {missing : List (String × String)} {c : UniverseCall U} {admitted : List EligibilityReview} {s : ResearchSnapshot}
  {calls : List (UniverseCall U × InstrumentMetadata)} {snapshots : List ResearchSnapshot} {policy : UniverseScreenPolicy}
  {context : UniverseResearchContext}

theorem frozenMembership_fixed (h : u.frozenMembership U = .ok u') : u'.frozenMembership U = .ok u' := by
  simp only [QualifiedUniverseSnapshot.frozenMembership, ok_iff] at h ⊢
  obtain ⟨statuses, canonical, lasting, ⟨⟩, qualified, earliest, -, rfl⟩ := h
  exact ⟨statuses, canonical, lasting, (), qualified, earliest, .inr rfl, rfl⟩

theorem auditable_fixed {screen' : UniverseScreen} (h : screen.auditable U = .ok screen') :
    screen'.auditable U = .ok screen' := by
  simp only [UniverseScreen.auditable, ok_iff] at h ⊢
  obtain ⟨methodology, bound, distinct, -, rfl⟩ := h
  exact ⟨methodology, bound, distinct, .inr rfl, rfl⟩

theorem eligible_of_frozen (h : u.frozenMembership U = .ok u') :
    ∀ m ∈ u.members, eligibilityFailures U.toPlatform (some m.instrument) {} u.observedAt = .ok [] := by
  simp only [QualifiedUniverseSnapshot.frozenMembership, bind_eq_ok, require_eq_ok, pure_eq_ok, exists_const] at h
  obtain ⟨-, -, -, ⟨⟩, qualified, -⟩ := h
  intro m hm
  have checked := forM_eq_ok.mp qualified m hm
  simp only [FrozenUniverseMember.qualified, bind_eq_ok, require_eq_ok] at checked
  obtain ⟨failures, evaluated, -, rfl, -⟩ := checked
  exact evaluated

/-! ### What a rebuild returns -/

theorem freezeMember_review
    {review : EligibilityReview} {m : FrozenUniverseMember} (h : freezeMember U snapshots at_ missing review = .ok m) :
    m.instrument = review.metadata ∧ m.qualificationHash = U.reviewHash review := by
  simp only [freezeMember, bind_eq_ok] at h
  obtain ⟨⟨⟩, -, h⟩ := h
  split at h
  · cases h
    exact ⟨rfl, rfl⟩
  · simp only [ok_iff] at h
    obtain ⟨_, -, _, -, _, -, rfl⟩ := h
    exact ⟨rfl, rfl⟩

theorem byTicker_perm (reviews : List EligibilityReview) : (byTicker reviews).Perm reviews := perm_insertionSort _ _

theorem freeze_reviews {reviews : List EligibilityReview} {source : Option Hash}
    (h : freezeQualifiedUniverse U reviews snapshots at_ missing source = .ok u) :
    u.observedAt = at_ ∧ u.frozenMembership U = .ok u ∧
      (u.members.map fun m => (m.instrument.ticker, m.qualificationHash)).Perm
        (reviews.map fun r => (r.metadata.ticker, U.reviewHash r)) := by
  simp only [freezeQualifiedUniverse, bind_eq_ok] at h
  obtain ⟨_, -, _, -, _, -, members, visited, validUntil, -, sealed⟩ := h
  refine ⟨?_, frozenMembership_fixed sealed, ?_⟩
  all_goals simp only [QualifiedUniverseSnapshot.frozenMembership, bind_eq_ok, pure_eq_ok] at sealed
  all_goals obtain ⟨_, -, _, -, _, -, _, -, _, -, _, -, rfl⟩ := sealed
  · rfl
  · refine List.Perm.trans (.of_eq ?_) ((byTicker_perm reviews).map _)
    have related := forall₂_of_mapM visited
    clear visited
    show members.map _ = (byTicker reviews).map _
    generalize byTicker reviews = sorted at related
    induction related with
    | nil => rfl
    | cons first _ ih =>
      obtain ⟨instrument, hash⟩ := freezeMember_review first
      rw [map_cons, map_cons, instrument, hash, ih]

/-- Every contract in the context was validated. -/
structure UniverseResearchContext.Built (U : UniversePlatform) (context : UniverseResearchContext) : Prop where
  frozen : context.frozen.frozenMembership U = .ok context.frozen
  screen : context.screen.auditable U = .ok context.screen
  snapshots : ∀ s ∈ context.snapshots, U.validateSnapshot s = .ok s
  complete : context.complete U = .ok ()

theorem screenQualifiedUniverse_sealed
    (h : screenQualifiedUniverse U u snapshots at_ policy = .ok screen) : screen.auditable U = .ok screen := by
  simp only [screenQualifiedUniverse, bind_eq_ok] at h
  obtain ⟨_, -, _, -, _, -, audited⟩ := h
  exact auditable_fixed audited

theorem evidence_valid {fresh : List EligibilityReview}
    {acquired : List (EligibilityReview × (Frozen U.toPlatform ⊕ String))}
    (h : s ∈ UniverseCall.evidence fresh acquired) : U.validateSnapshot s = .ok s := by
  obtain ⟨member, -⟩ := mem_filter.mp h
  obtain ⟨a, -, found⟩ := mem_filterMap.mp member
  obtain ⟨value, -, rfl⟩ := Option.map_eq_some_iff.mp found
  exact value.valid

theorem rebuild_built (h : c.rebuild policy admitted = .ok context) : context.Built U ∧
      context.frozen.observedAt = c.frozenAt ∧ ∃ fresh : List EligibilityReview, fresh.Sublist admitted ∧
        (context.frozen.members.map fun m => (m.instrument.ticker, m.qualificationHash)).Perm
          (fresh.map fun r => (r.metadata.ticker, U.reviewHash r)) := by
  simp only [UniverseCall.rebuild, ok_iff] at h
  obtain ⟨acquired, -, marks, marked, frozen, froze, screen, screened, ⟨⟩, complete, rfl⟩ := h
  obtain ⟨observed, sealed, reviews⟩ := freeze_reviews froze
  refine ⟨⟨sealed, screenQualifiedUniverse_sealed screened, fun s hs => ?_, complete⟩, observed, _, ?_, reviews⟩
  · exact evidence_valid (mem_filter.mp hs).1
  · have part := (filter_sublist (p := fun a : EligibilityReview × Bool => a.2) (l := admitted.zip marks)).map (·.1)
    rwa [map_fst_zip (forall₂_of_mapM marked).length_eq.le] at part

theorem UniverseResearchContext.Built.validate (h : context.Built U) : context.validate U = .ok context := by
  simp only [UniverseResearchContext.validate, ok_iff]
  refine ⟨(), forM_eq_ok.mpr fun m hm => forM_option_eq_ok.mpr fun clearance hc => ?_, _, h.frozen, _, h.screen, _,
    mapM_of_forall₂ (forall₂_same.mpr h.snapshots), (), h.complete, rfl⟩
  have eligible := eligible_of_frozen h.frozen m hm
  exact ((eligibilityFailures_eq_nil.mp eligible).1.standing clearance hc).consistent

/-- The call has an admission and no context that it may use, so it builds one. -/
def UniverseCall.Rebuilds (c : UniverseCall U) (state : Option UniverseResearchContext) : Prop :=
  ∃ admitted ∈ c.admission.toOption, ∀ context ∈ state, ¬ c.Cached context admitted
  deriving Decidable

/-- What a call does: it is refused, uses the context that is kept, or builds a new one. -/
inductive UniverseCall.Ran (c : UniverseCall U) (policy : UniverseScreenPolicy) (state : Option UniverseResearchContext)
    (instrument : InstrumentMetadata) : Except Err ResearchSnapshot × Option UniverseResearchContext → Prop
  | refused (e : Err) (refused : c.admission = .error e) : Ran c policy state instrument (.error e, state)
  | cached (admitted : List EligibilityReview) (context : UniverseResearchContext) (admission : c.admission = .ok admitted)
      (kept : state = some context) (valid : c.Cached context admitted) :
    Ran c policy state instrument (context.candidate U instrument, state)
  | failed (e : Err) (rebuilds : c.Rebuilds state) : Ran c policy state instrument (.error e, none)
  | rebuilt (admitted : List EligibilityReview) (context : UniverseResearchContext) (rebuilds : c.Rebuilds state)
      (admission : c.admission = .ok admitted) (built : c.rebuild policy admitted = .ok context) :
    Ran c policy state instrument (context.candidate U instrument, some context)

theorem UniverseCall.run_ran (c : UniverseCall U) (policy : UniverseScreenPolicy) (state : Option UniverseResearchContext)
    (instrument : InstrumentMetadata) : c.Ran policy state instrument (c.run policy state instrument) := by
  unfold UniverseCall.run
  cases admission : c.admission with
  | error e => exact .refused e admission
  | ok admitted =>
    simp only [UniverseCall.contextOf]
    cases use : state.filter fun context => c.Cached context admitted with
    | some context =>
      obtain ⟨kept, valid⟩ := Option.filter_eq_some_iff.mp use
      subst kept
      exact .cached admitted context admission rfl (of_decide_eq_true valid)
    | none =>
      have rebuilds : c.Rebuilds state := by
        refine ⟨admitted, by rw [admission]; rfl, fun context hcontext => ?_⟩
        simpa using Option.filter_eq_none_iff.mp use context hcontext
      cases built : c.rebuild policy admitted with
      | error e => exact .failed e rebuilds
      | ok context => exact .rebuilt admitted context rebuilds admission built

theorem UniverseCall.run_state (c : UniverseCall U) (policy : UniverseScreenPolicy) (state : Option UniverseResearchContext)
    (instrument instrument' : InstrumentMetadata) : (c.run policy state instrument).2 = (c.run policy state instrument').2 := by
  unfold UniverseCall.run
  cases c.admission with
  | error e => rfl
  | ok admitted =>
    cases built : c.contextOf policy state admitted with
    | error e => simp only [built]
    | ok context => simp only [built]

theorem bindUniverseSnapshot_fields {P : Platform} {context : UniverseContext} {bound : ResearchSnapshot}
    (h : bindUniverseSnapshot P context s = .ok bound) :
    bound.ticker = s.ticker ∧ bound.universeHash = some context.universeHash := by
  simp only [bindUniverseSnapshot, Platform.validateSnapshot, Platform.freezeFacts, ok_iff] at h
  obtain ⟨_, -, _, -, _, -, _, -, _, -, _, -, _, -, _, -, _, -, _, -, _, -, _, -, _, -, rfl⟩ := h
  exact ⟨rfl, rfl⟩

/-- The snapshot is the selected one of the context, bound to its universe. -/
structure UniverseResearchContext.Returned (U : UniversePlatform) (context : UniverseResearchContext)
    (s : ResearchSnapshot) : Prop where
  selected : s.ticker ∈ context.screen.selectedTickers
  bound : ∃ original, (context.snapshots.find? fun item => item.ticker = s.ticker) = some original ∧
    bindUniverseSnapshot U.toPlatform context.read original = .ok s
  hash : s.universeHash = some context.frozen.hash

theorem candidate_returned {instrument : InstrumentMetadata}
    (h : context.candidate U instrument = .ok s) : context.Returned U s := by
  simp only [UniverseResearchContext.candidate, ok_iff] at h
  obtain ⟨selected, original, found, -, bound⟩ := h
  obtain ⟨same, hash⟩ := bindUniverseSnapshot_fields bound
  have ticker : s.ticker = instrument.ticker := same.trans (by simpa using List.find?_some found)
  exact ⟨ticker ▸ selected, ⟨original, ticker ▸ found, bound⟩, hash⟩

theorem UniverseResearchContext.Returned.contextFor
    (h : context.Returned U s) : contextFor U (some context) s = .ok context := by
  obtain ⟨original, found, bound⟩ := h.bound
  simp only [Money.contextFor, ok_iff]
  exact ⟨context, by simp [h.hash], h.selected, original, found, s, bound, rfl, rfl⟩

theorem UniverseResearchContext.Returned.verified
    (h : context.Returned U s) {now : Int} (begun : context.frozen.observedAt ≤ now)
    (current : now < context.frozen.validUntil) : verifyMembership U.toPlatform context.read s now = .ok () := by
  obtain ⟨original, found, bound⟩ := h.bound
  simp only [verifyMembership, ok_iff]
  exact ⟨original, found, h.selected, s, bound, rfl, begun, current⟩

/-! ### Every sequence of calls -/

/-- A call as a step of the builder: whatever it answers, it leaves the context that is kept. -/
def builderStep (policy : UniverseScreenPolicy) (state : Option UniverseResearchContext)
    (asked : UniverseCall U × InstrumentMetadata) : Except Err (Option UniverseResearchContext) :=
  .ok (asked.1.run policy state asked.2).2

def keptAfter (policy : UniverseScreenPolicy) (calls : List (UniverseCall U × InstrumentMetadata)) :
    Option UniverseResearchContext := Runs.run (builderStep policy) none calls

theorem kept_was_built (h : keptAfter policy calls = some context) :
    ∃ before builder asked after reviews, calls = before ++ (builder, asked) :: after ∧
      builder.admission = .ok reviews ∧ builder.rebuild policy reviews = .ok context := by
  obtain ⟨before, ⟨builder, asked⟩, after, rfl, other, kept⟩ :=
    Runs.run_first (P := fun state => state = some context) calls (by simp) h
  rw [Runs.run_append] at kept
  refine ⟨before, builder, asked, after, ?_⟩
  change (builder.run policy (Runs.run (builderStep policy) none before) asked).2 = some context at kept
  have ran := builder.run_ran policy (Runs.run (builderStep policy) none before) asked
  generalize builder.run policy (Runs.run (builderStep policy) none before) asked = outcome at kept ran
  cases ran with
  | refused => exact absurd kept other
  | cached => exact absurd kept other
  | failed => cases kept
  | rebuilt reviews _ _ admission built =>
    cases kept
    exact ⟨reviews, rfl, admission, built⟩

theorem kept_until_rebuild : ∀ {state : Option UniverseResearchContext} {later : List (UniverseCall U × InstrumentMetadata)},
    Runs.Along (builderStep policy) (fun state asked => ¬ asked.1.Rebuilds state) state later →
      Runs.run (builderStep policy) state later = state
  | _, [], _ => rfl
  | state, (c, asked) :: later, ⟨no, rest⟩ => by
    have kept : Runs.next (builderStep policy) state (c, asked) = state := by
      change (c.run policy state asked).2 = state
      have ran := c.run_ran policy state asked
      generalize c.run policy state asked = outcome at ran
      cases ran with
      | refused => rfl
      | cached => rfl
      | failed _ rebuilds => exact absurd rebuilds no
      | rebuilt _ _ rebuilds => exact absurd rebuilds no
    rw [kept] at rest
    rw [Runs.run_cons, kept]
    exact kept_until_rebuild rest

theorem run_asked {calls' : List (UniverseCall U × InstrumentMetadata)}
    {state : Option UniverseResearchContext} (same : calls.map (·.1) = calls'.map (·.1)) :
    Runs.run (builderStep policy) state calls = Runs.run (builderStep policy) state calls' := by
  induction calls generalizing calls' state with
  | nil =>
    cases map_eq_nil_iff.mp same.symm
    rfl
  | cons first calls ih =>
    obtain ⟨first', rest', rfl, call, rest⟩ := map_eq_cons_iff.mp same.symm
    have step : Runs.next (builderStep policy) state first = Runs.next (builderStep policy) state first' := by
      change (first.1.run policy state first.2).2 = (first'.1.run policy state first'.2).2
      rw [call]
      exact first.1.run_state policy state first.2 first'.2
    rw [Runs.run_cons, Runs.run_cons, step]
    exact ih rest.symm

theorem admission_sources (h : c.admission = .ok admitted) : ∀ outcome ∈ c.sources, outcome = .ok () := by
  simp only [UniverseCall.admission, bind_eq_ok] at h
  obtain ⟨⟨⟩, checked, -⟩ := h
  exact forM_option_eq_ok.mp checked

/-- A returned snapshot is accepted by `context_for`, and its context by the store; a context is used again only within
    its lifetime, with the same members and reviews; and the instruments asked for have no part in what is kept. -/
theorem builder_agrees_with_store {Doc : Type} (E : Env Doc) (platform : E.toPlatform = U.toPlatform)
    (dump : UniverseResearchContext → Doc)
    (parsed : ∀ context, E.universeContext (dump context) = (context.validate U).toOption.map (·.read))
    (policy : UniverseScreenPolicy) (calls : List (UniverseCall U × InstrumentMetadata)) (c : UniverseCall U)
    (instrument : InstrumentMetadata) : (∀ s later, (c.run policy (keptAfter policy calls) instrument).1 = .ok s →
      Runs.Along (builderStep policy) (fun state asked => ¬ asked.1.Rebuilds state)
        (keptAfter policy (calls ++ [(c, instrument)])) later →
      ∃ context, contextFor U (keptAfter policy (calls ++ (c, instrument) :: later)) s = .ok context ∧
        ∀ now, context.frozen.observedAt ≤ now → now < context.frozen.validUntil →
          E.verifyUniverseContext s (some (dump context)) now = .ok ()) ∧
    (∀ context admitted, keptAfter policy calls = some context → c.admission = .ok admitted →
      ¬ c.Rebuilds (keptAfter policy calls) → c.sources = some (.ok ()) ∧ c.now < context.frozen.validUntil ∧
      ∃ before builder asked after reviews, ∃ fresh : List EligibilityReview, calls = before ++ (builder, asked) :: after ∧
        builder.admission = .ok reviews ∧ builder.rebuild policy reviews = .ok context ∧
        builder.frozenAt ≤ c.now ∧ c.now < builder.frozenAt + minutes 10 ∧ fresh.Sublist reviews ∧
        sameSet (admitted.map fun r => (r.metadata.ticker, U.reviewHash r))
          (fresh.map fun r => (r.metadata.ticker, U.reviewHash r))) ∧
    ∀ calls', calls'.map (·.1) = calls.map (·.1) → keptAfter policy calls' = keptAfter policy calls := by
  refine ⟨fun s later returned quiet => ?_, fun context admitted kept admission cached => ?_, fun _ same => run_asked same⟩
  · have state : keptAfter policy (calls ++ [(c, instrument)]) = (c.run policy (keptAfter policy calls) instrument).2 := by
      rw [keptAfter, Runs.run_append]
      rfl
    have after : keptAfter policy (calls ++ (c, instrument) :: later) = keptAfter policy (calls ++ [(c, instrument)]) := by
      rw [← kept_until_rebuild quiet, keptAfter, keptAfter, ← Runs.run_append, append_assoc]
      rfl
    obtain ⟨context, kept, answer⟩ : ∃ context, keptAfter policy (calls ++ [(c, instrument)]) = some context ∧
        context.candidate U instrument = .ok s := by
      have ran := c.run_ran policy (keptAfter policy calls) instrument
      rw [state]
      generalize c.run policy (keptAfter policy calls) instrument = outcome at ran returned
      cases ran with
      | refused => cases returned
      | cached _ context _ kept => exact ⟨context, kept, returned⟩
      | failed => cases returned
      | rebuilt _ context => exact ⟨context, rfl, returned⟩
    obtain ⟨_, _, _, _, _, -, -, built⟩ := kept_was_built kept
    have returned := candidate_returned answer
    refine ⟨context, by rw [after, kept]; exact returned.contextFor, fun now begun current => ?_⟩
    simp only [Env.verifyUniverseContext, returned.hash, reduceCtorEq, if_false, ok_iff]
    refine ⟨context.read, ?_, platform ▸ returned.verified begun current⟩
    simp [parsed, (rebuild_built built).1.validate, Except.toOption]
  · obtain ⟨before, builder, asked, after, reviews, split, admits, built⟩ := kept_was_built kept
    obtain ⟨-, observed, fresh, part, members⟩ := rebuild_built built
    have valid : c.Cached context admitted := by
      by_contra no
      refine cached ⟨admitted, by rw [admission]; rfl, fun context' hcontext' => ?_⟩
      rw [kept] at hcontext'
      cases hcontext'
      exact no
    obtain ⟨sources, ⟨begun, current⟩, same⟩ := valid
    obtain ⟨outcome, found⟩ := Option.isSome_iff_exists.mp sources
    rw [observed] at begun current
    refine ⟨by rw [found, admission_sources admission outcome found], by omega, before, builder, asked, after, reviews,
      fresh, split, admits, built, begun, by omega, part, ?_⟩
    exact ⟨fun r hr => members.mem_iff.mp (same.1 hr), fun r hr => same.2 (members.mem_iff.mpr hr)⟩

def sampleReview (ticker : String) : EligibilityReview where
  metadata := sampleInstrument ticker
  identifiers := {
    ticker, companyName := "ABC plc", trading212Id := ticker, exchangeTicker := ticker, exchange := "LSE"
    isin := "GB0000000001", quoteCurrency := "GBX", verifiedAt := days 20714, validUntil := days 20714 + hours 5
    source := "broker" }
  eligibilityProofHash := ""
  ethicalProofHash := ""

def abcFrozen : Frozen plainPlatform := ⟨sampleSnapshot "ABC" .gbx, by decide +kernel⟩

/-- A universe of two members at an hour and some minutes, of which the first has its bars. -/
def sampleCall (minute : Int) (xyz : Except BuildFailure (Frozen plainPlatform)) : UniverseCall plainUniverse where
  sources := some (.ok ())
  current := .ok [sampleInstrument "ABC", sampleInstrument "XYZ"]
  reviews := .ok [sampleReview "ABC", sampleReview "XYZ"]
  now := days 20714 + hours 1 + minutes minute
  frozenAt := days 20714 + hours 1 + minutes minute
  build i := if i.ticker = "ABC" then .ok abcFrozen else xyz

/-- A document for every context, which is read back where the context is valid. -/
def sampleDump (context : UniverseResearchContext) : Document :=
  match context.validate plainUniverse with
  | .ok valid => .universe_ valid.read
  | .error _ => .failedEligibility []

theorem builder_agrees_with_store_sample : ∃ s context,
    ((sampleCall 0 (.error .provider)).run {} none (sampleInstrument "ABC")).1 = .ok s ∧
    contextFor plainUniverse (keptAfter {} [(sampleCall 0 (.error .provider), sampleInstrument "ABC"),
      (sampleCall 9 (.error .provider), sampleInstrument "XYZ")]) s = .ok context ∧
    plainEnv.verifyUniverseContext s (some (sampleDump context)) (days 20714 + hours 2) = .ok () := by
  have parsed : ∀ context, plainEnv.universeContext (sampleDump context) =
      (context.validate plainUniverse).toOption.map (·.read) := by
    intro context
    unfold sampleDump
    cases context.validate plainUniverse <;> rfl
  obtain ⟨s, returned, context', found', begun, current⟩ : ∃ s,
      ((sampleCall 0 (.error .provider)).run {} none (sampleInstrument "ABC")).1 = .ok s ∧
      ∃ context ∈ (contextFor plainUniverse (keptAfter {} [(sampleCall 0 (.error .provider), sampleInstrument "ABC"),
        (sampleCall 9 (.error .provider), sampleInstrument "XYZ")]) s).toOption,
          context.frozen.observedAt ≤ days 20714 + hours 2 ∧ days 20714 + hours 2 < context.frozen.validUntil := by
    apply exists_of_toOption
    decide +kernel
  obtain ⟨context, found, verified⟩ := (builder_agrees_with_store plainEnv rfl sampleDump parsed {} []
    (sampleCall 0 (.error .provider)) (sampleInstrument "ABC")).1 s
    [(sampleCall 9 (.error .provider), sampleInstrument "XYZ")] returned (by decide +kernel)
  refine ⟨s, context, returned, found, verified _ ?_ ?_⟩
  all_goals
    simp only [nil_append] at found
    rw [found] at found'
    cases found'
  · exact begun
  · exact current

end Money
