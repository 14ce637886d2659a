import Money.Theorems.Gates
import Money.Generation

/-! The validity of a signal ends with the broker verification and with the first critical record to go stale, but it
    does not regard the lifetime of the ethical clearance. -/

namespace Money
open Checked

namespace SignalRequest
variable {P : Platform} {q : SignalRequest} {design : SignalDesign} {signal : ResearchSignal}

/-! ### What a design with a signal went through -/

/-- A positive state that the consensus justifies at the instant of issue. -/
structure Justified (P : Platform) (q : SignalRequest) : Prop where
  admissible : q.state = .researchCandidate ∨ q.state = .watch
  consented : ∃ independence reasons, evidenceIndependence q.snapshot q.reports = .ok independence ∧
    consensus P q.mandate q.snapshot q.reports q.lean q.audit q.redTeam independence q.issuedAt q.rounds false =
      .ok (q.state, reasons)

/-- The gates that a scenario with a signal passed, and the signal they led to. -/
structure Issued (P : Platform) (q : SignalRequest) (signal : ResearchSignal) : Prop extends Justified P q where
  valid : q.issuedAt < q.validUntil
  limits : signal.limits = .ok ()
  described : ∃ l a, signal = signalOf P q l a

/-- Only a scenario that went through has a signal; the others have their reasons. -/
theorem scenario_of_signal (ok : generateSignal P q = .ok design) (some_ : design.signal = some signal) :
    q.policy.bounded ∧ q.scenario P = .ok design := by
  rw [generateSignal, require_bind_eq_ok] at ok
  obtain ⟨bounded, ok⟩ := ok
  refine ⟨bounded, ?_⟩
  cases outcome : q.scenario P with
  | ok designed =>
    rw [outcome] at ok
    cases ok
    rfl
  | error halt =>
    rw [outcome] at ok
    cases halt with
    | unavailable reasons =>
      cases ok
      cases some_
    | raised e => cases ok

theorem issued_of_signal (ok : generateSignal P q = .ok design) (some_ : design.signal = some signal) :
    Issued P q signal := by
  replace ok := (scenario_of_signal ok some_).2
  rw [scenario, require_bind_eq_ok] at ok
  simp only [conclude, issue, ok_iff, raising_eq_ok] at ok
  obtain ⟨admissible, independence, independent, ⟨state, reasons⟩, consented, rfl, -, -, l, -, -, -, a, -, -, valid, _,
    limits, rfl⟩ := ok
  cases some_
  exact ⟨⟨admissible, independence, reasons, independent, consented⟩, valid, limits, l, a, rfl⟩

namespace Issued

section
variable (issued : Issued P q signal)
include issued

theorem issuedAt_eq : signal.issuedAt = q.issuedAt := by
  obtain ⟨l, a, rfl⟩ := issued.described
  rfl

theorem validUntil_eq : signal.validUntil = q.validUntil := by
  obtain ⟨l, a, rfl⟩ := issued.described
  rfl

theorem state_eq : signal.state.toState = q.state := by
  obtain ⟨l, a, rfl⟩ := issued.described
  rcases issued.admissible with candidate | watch
  · simp [signalOf, candidate, SignalState.toState]
  · simp [signalOf, watch, SignalState.toState]

theorem ne_reject : q.state ≠ .reject := by
  rcases issued.admissible with same | same <;> simp [same]

end

end Issued

theorem validUntil_le : q.validUntil ≤ q.issuedAt + days q.policy.horizonDays ∧
    q.validUntil ≤ q.snapshot.instrument.verifiedAt + eligibilityMaximumAge ∧
    ∀ e ∈ q.snapshot.evidence, e.critical = true → q.validUntil ≤ e.freshUntil := by
  have bound : q.validUntil ≤ min (q.issuedAt + days q.policy.horizonDays) (q.snapshot.instrument.verifiedAt + hours 24) :=
    foldl_min_le List.mem_cons_self
  refine ⟨le_trans bound (min_le_left ..), le_trans bound (min_le_right ..), fun e he critical => foldl_min_le ?_⟩
  exact List.mem_cons_of_mem _ (List.mem_map.mpr ⟨e, List.mem_filter.mpr ⟨he, critical⟩, rfl⟩)

/-- Consensus at an instant, on the inputs of the request and the independence of its evidence. -/
def consensusAt (P : Platform) (q : SignalRequest) (t : Int) : Except Err (ResearchState × List String) := do
  let independence ← evidenceIndependence q.snapshot q.reports
  consensus P q.mandate q.snapshot q.reports q.lean q.audit q.redTeam independence t q.rounds false

theorem Issued.consensusAt_iff (issued : Issued P q signal) (t : Int) :
    (∃ reasons, q.consensusAt P t = .ok (signal.state.toState, reasons)) ↔ Clear P q.mandate q.snapshot t := by
  obtain ⟨independence, reasons, independent, consented⟩ := issued.consented
  obtain ⟨bounded, -, same⟩ := consensus_clear consented issued.ne_reject
  simp only [consensusAt, independent, bind_eq_ok, Except.ok.injEq, exists_eq_left', issued.state_eq]
  constructor
  · rintro ⟨_, later⟩
    exact (consensus_clear later issued.ne_reject).2.1
  · intro clear
    exact ⟨reasons, by rw [consensus_of_clear bounded clear, same]⟩

theorem Issued.clear (issued : Issued P q signal) : Clear P q.mandate q.snapshot q.issuedAt := by
  obtain ⟨_, _, -, consented⟩ := issued.consented
  exact (consensus_clear consented issued.ne_reject).2.1

end SignalRequest

open SignalRequest

/-- A signal keeps its state until it ends exactly when the first of its ends comes no later than that of the ethical
    clearance. -/
theorem signal_state_holds_until_iff (P : Platform) (q : SignalRequest) (design : SignalDesign)
    (signal : ResearchSignal) (generated : generateSignal P q = .ok design) (published : design.signal = some signal) :
    (∀ t, signal.issuedAt ≤ t → t < signal.validUntil → ∃ reasons, q.consensusAt P t = .ok (signal.state.toState, reasons)) ↔
      ∀ c ∈ q.snapshot.instrument.ethicalClearance, ((q.snapshot.evidence.filter (·.critical)).map (·.freshUntil)).foldl min
        (min (q.issuedAt + days q.policy.horizonDays) (q.snapshot.instrument.verifiedAt + hours 24)) ≤ c.validUntil := by
  change _ ↔ ∀ c ∈ q.snapshot.instrument.ethicalClearance, q.validUntil ≤ c.validUntil
  have issued := issued_of_signal generated published
  have start := issued.clear
  obtain ⟨-, verified, fresh⟩ := validUntil_le (q := q)
  simp only [issued.consensusAt_iff, issued.issuedAt_eq, issued.validUntil_eq]
  constructor
  · -- At the end of an earlier clearance the gate is shut while the signal still stands.
    intro holds c hc
    by_contra early
    have cleared := (start.window.cleared c hc).2
    have ended := holds c.validUntil (by omega) (by omega)
    exact absurd (ended.window.cleared c hc).2 (lt_irrefl _)
  · intro covered t from_ until_
    refine start.later from_ (by omega) (fun c hc => ?_) fun e he critical => ?_
    · have := covered c hc
      omega
    · have := fresh e he critical
      omega

theorem clearedRequest_signal : ∃ design signal, generateSignal plainPlatform clearedRequest = .ok design ∧
    design.signal = some signal := by
  have found : ((generateSignal plainPlatform clearedRequest).toOption.bind (·.signal)).isSome = true := by
    decide +kernel
  obtain ⟨signal, found⟩ := Option.isSome_iff_exists.mp found
  obtain ⟨design, generated, published⟩ := Option.bind_eq_some_iff.mp found
  refine ⟨design, signal, ?_, published⟩
  cases outcome : generateSignal plainPlatform clearedRequest <;> simp_all [Except.toOption]

/-- At the end of the clearance the signal still stands, while consensus no longer returns its state. -/
theorem signal_outlives_ethical_clearance : ∃ design signal t,
    generateSignal plainPlatform clearedRequest = .ok design ∧ design.signal = some signal ∧
      signal.issuedAt ≤ t ∧ t < signal.validUntil ∧
      ¬ ∃ reasons, clearedRequest.consensusAt plainPlatform t = .ok (signal.state.toState, reasons) := by
  obtain ⟨design, signal, generated, published⟩ := clearedRequest_signal
  have issued := issued_of_signal generated published
  have early : clearedRequest.issuedAt ≤ days 20714 + hours 6 ∧ days 20714 + hours 6 < clearedRequest.validUntil := by
    decide +kernel
  refine ⟨design, signal, days 20714 + hours 6, generated, published, ?_, ?_, ?_⟩
  · rw [issued.issuedAt_eq]
    exact early.1
  · rw [issued.validUntil_eq]
    exact early.2
  · rw [issued.consensusAt_iff]
    intro clear
    exact absurd (clear.window.cleared _ rfl).2 (lt_irrefl _)

theorem clearedRequest_holds_until_iff : ∃ design signal,
    generateSignal plainPlatform clearedRequest = .ok design ∧ design.signal = some signal ∧
      ((∀ t, signal.issuedAt ≤ t → t < signal.validUntil →
          ∃ reasons, clearedRequest.consensusAt plainPlatform t = .ok (signal.state.toState, reasons)) ↔
        ∀ c ∈ clearedRequest.snapshot.instrument.ethicalClearance, clearedRequest.validUntil ≤ c.validUntil) := by
  obtain ⟨design, signal, generated, published⟩ := clearedRequest_signal
  exact ⟨design, signal, generated, published, signal_state_holds_until_iff _ _ _ _ generated published⟩

end Money
