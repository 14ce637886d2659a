import Money.Challenges
import Money.Generation
import Money.Library.Rows

/-! The runner of the cross-examination meets the seal of its packet: the seal replays its rounds with the same pending
    challenges after each exchange. -/

namespace Money.Challenges
open Checked List Rows CrossExaminationPacket

variable {ε : Type}

/-! ### Calls -/

namespace Event

def challenge : Event ε → Challenge
  | responded c _ _ => c
  | verified c _ _ => c

def key? : Event ε → Option (String × Nat)
  | responded c round _ => some (c.challengeId, round)
  | verified _ _ _ => none

/-- The verifier verified the challenged claim with evidence that the response cites. -/
def Resolves : Event ε → Prop
  | verified _ response (.ok verdict) => resolves verdict.toVerification.finding response = true
  | _ => False

end Event

/-- No responder is called twice for a challenge in one round, and nobody is called for a challenge once it is resolved. -/
structure Orderly (calls : List (Event ε)) : Prop where
  once : (calls.filterMap Event.key?).Nodup
  quiet : calls.Pairwise fun e e' => e.Resolves → e'.challenge.challengeId ≠ e.challenge.challengeId

/-- The calls that one challenge adds in a round: none, the respondent, or the respondent and the verifier. -/
inductive Added (challenge : Challenge) (number : Nat) : List (Event ε) → Prop
  | nobody : Added challenge number []
  | responder (result : Except ε ChallengeResponse) : Added challenge number [.responded challenge number result]
  | both (result : Except ε ChallengeResponse) (response : ChallengeResponse) (verdict : Except ε Verdict) :
    Added challenge number [.responded challenge number result, .verified challenge response verdict]

/-- The exceptions that the runner lets out: a refusal of upstream work, or that of a capability. -/
inductive Fine : Raised ε → Prop
  | upstream (message : String) : Fine (.own (.upstream message))
  | capability (e : ε) : Fine (.capability e)

variable {calls : List (Event ε)} {c : Prop} {message : String}

theorem expect_eq_ok [Decidable c] {u : Unit} : expect calls c message = .ok u ↔ c := require_eq_ok

variable {f : Failure ε}

theorem expect_error [Decidable c] (h : expect calls c message = .error f) : f.calls = calls ∧ Fine f.raised := by
  obtain ⟨-, rfl⟩ := require_eq_error.mp h
  exact ⟨rfl, .upstream message⟩

theorem propagate_error {α : Type} {result : Except ε α}
    (h : propagate calls result = .error f) : f.calls = calls ∧ Fine f.raised := by
  obtain ⟨e, -, rfl⟩ := mapError_eq_error.mp h
  exact ⟨rfl, .capability e⟩

/-! ### Exchanges -/

variable {x : ChallengeExchange}

section
variable {facts : ResearchSnapshot} {reports : List FirmReport} {challenge : Challenge} {calls : List (Event ε)}
  {response : ChallengeResponse}

theorem checkResponse_error
    (h : checkResponse facts reports challenge calls response = .error f) : f.calls = calls ∧ Fine f.raised := by
  simp only [checkResponse, bind_eq_error] at h
  obtain h | ⟨_, -, h | ⟨_, -, h⟩⟩ := h
  all_goals exact expect_error h

theorem checkVerification_error {v : ChallengeVerification}
    (h : checkVerification facts challenge calls v = .error f) : f.calls = calls ∧ Fine f.raised := by
  simp only [checkVerification, bind_eq_error] at h
  obtain h | ⟨_, -, h | ⟨_, -, h⟩⟩ := h
  all_goals exact expect_error h

/-- An exchange combined a maintained response with an independent verification of the same claim that shares evidence. -/
def Resolution (x : ChallengeExchange) : Prop :=
  ∃ r ∈ x.response, r.position = .maintain ∧ ∃ v ∈ x.verification,
    v.state = .verified ∧ v.claimId = x.challenge.claimId ∧ ∃ e ∈ v.evidenceIds, e ∈ r.evidenceIds

/-- The response and the verification of an exchange are what the capabilities returned in these calls. -/
structure Recorded (number : Nat) (calls : List (Event ε)) (x : ChallengeExchange) : Prop where
  response : ∀ r ∈ x.response, .responded x.challenge number (.ok r) ∈ calls
  verification : ∀ v ∈ x.verification, ∃ r ∈ x.response, ∃ verdict : Verdict,
    .verified x.challenge r (.ok verdict) ∈ calls ∧ verdict.toVerification.finding = v

variable {number : Nat} {calls' : List (Event ε)} {caps : Capabilities ε}

theorem Recorded.append (h : Recorded number calls x) (new : List (Event ε)) : Recorded number (calls ++ new) x where
  response r hr := mem_append_left _ (h.response r hr)
  verification v hv := by
    obtain ⟨r, hr, verdict, hmem, hfinding⟩ := h.verification v hv
    exact ⟨r, hr, verdict, mem_append_left _ hmem, hfinding⟩

/-- What the seal asks of an exchange about a pending challenge, and what its calls were. -/
structure Exchanged (facts : ResearchSnapshot) (challenge : Challenge) (number : Nat) (calls : List (Event ε))
    (x : ChallengeExchange) (calls' : List (Event ε)) : Prop where
  about : x.challenge = challenge
  accepted : ∀ p : CrossExaminationPacket, p.snapshotHash = facts.hash → p.checkExchange challenge x = .ok ()
  resolved : x.resolved = true ↔ Resolution x
  recorded : Recorded number calls' x
  added : ∃ new, calls' = calls ++ new ∧ Added challenge number new ∧ ((∃ e ∈ new, e.Resolves) → x.resolved = true)

theorem checkExchange_of_response {p : CrossExaminationPacket}
    (hp : p.snapshotHash = facts.hash) (h : checkResponse facts reports challenge calls response = .ok ())
    (hx : x.challenge = challenge) (hresponse : x.response = some response)
    (hdemo : isDemo x.verificationInvocation = false)
    (hverification : ∀ v ∈ x.verification, ∀ e ∈ v.evidenceIds, e ∈ challenge.evidenceIds)
    (hchecks : ∀ c ∈ x.verificationEvidenceChecks, c.evidenceId ∈ challenge.evidenceIds)
    (hresolved : x.resolved = true → Resolution x) : p.checkExchange challenge x = .ok () := by
  simp only [checkResponse, bind_eq_ok, expect_eq_ok] at h
  obtain ⟨_, hlive, _, ⟨hid, hrespondent, hhash, horiginal, hcited⟩, hcorrected⟩ := h
  simp only [checkExchange, bind_eq_ok, require_eq_ok]
  refine ⟨(), hx, (), ⟨?_, hdemo⟩, (), ?_, (), hverification, (), hchecks, fun hr => ?_⟩
  · rw [hresponse]
    exact hlive
  · intro r hr
    cases hresponse.symm.trans hr
    exact ⟨hid, hrespondent, hhash.trans hp.symm, horiginal, hcited, fun c hc => (hcorrected c hc).2.2⟩
  · obtain ⟨r, hr, hmaintain, v, hv, hstate, hclaim, hshared⟩ := hresolved hr
    rw [hx] at hclaim
    exact ⟨r, hr, hmaintain, v, hv, hstate, hclaim, hshared⟩

theorem resolves_eq_true {finding : AuditFinding} : resolves finding response = true ↔
      finding.state = .verified ∧ ∃ e ∈ finding.evidenceIds, e ∈ response.evidenceIds := by
  simp [resolves]

section
variable (hcheck : checkResponse facts reports challenge
  (calls ++ [.responded challenge number (.ok response)]) response = .ok ())
include hcheck

theorem verifyResponse_ok {verifier : Verifier ε} (hmaintain : response.position = .maintain)
    (h : verifyResponse verifier facts challenge response (calls ++ [.responded challenge number (.ok response)]) =
      .ok (x, calls')) : Exchanged facts challenge number calls x calls' := by
  simp only [verifyResponse, propagate, ok_iff, mapError_eq_ok, Prod.mk.injEq] at h
  obtain ⟨verdict, hverdict, _, hchecked, rfl, rfl⟩ := h
  simp only [checkVerification, bind_eq_ok, expect_eq_ok] at hchecked
  obtain ⟨_, hchecks, _, hdemo, hclaim, hcited⟩ := hchecked
  refine ⟨rfl, fun p hp => ?_, ?_, ⟨?_, ?_⟩, _, append_assoc .., .both (.ok response) response _, ?_⟩
  · refine checkExchange_of_response hp hcheck rfl rfl hdemo ?_ (fun c hc => (hchecks c hc).2) fun hr => ?_
    · intro v hv
      cases hv
      exact hcited
    · obtain ⟨hstate, hshared⟩ := resolves_eq_true.mp hr
      exact ⟨response, rfl, hmaintain, _, rfl, hstate, hclaim, hshared⟩
  · constructor
    · intro hr
      obtain ⟨hstate, hshared⟩ := resolves_eq_true.mp hr
      exact ⟨response, rfl, hmaintain, _, rfl, hstate, hclaim, hshared⟩
    · rintro ⟨r, hr, -, v, hv, hstate, -, hshared⟩
      cases hr
      cases hv
      exact resolves_eq_true.mpr ⟨hstate, hshared⟩
  · intro r hr
    cases hr
    simp
  · intro v hv
    cases hv
    exact ⟨response, rfl, verdict, by simp [hverdict], rfl⟩
  · rintro ⟨e, he, hresolves⟩
    rcases mem_cons.mp he with rfl | he
    · exact hresolves.elim
    · cases mem_singleton.mp he
      rw [hverdict] at hresolves
      exact hresolves

theorem exchanged_unverified {reason : String} :
    Exchanged facts challenge number calls { challenge, response := some response, reason }
      (calls ++ [.responded challenge number (.ok response)]) := by
  refine ⟨rfl, fun p hp => ?_, ?_, ⟨by simp, by simp⟩, _, rfl, .responder (.ok response), ?_⟩
  · exact checkExchange_of_response hp hcheck rfl rfl rfl (by simp) (by simp) (by simp)
  · simp [Resolution]
  · rintro ⟨e, he, hresolves⟩
    cases mem_singleton.mp he
    exact hresolves.elim

end

theorem exchange_ok (h : exchange caps facts reports number challenge calls = .ok (x, calls')) :
    Exchanged facts challenge number calls x calls' := by
  unfold exchange at h
  split at h
  · cases h
    refine ⟨rfl, fun p _ => ?_, by simp [Resolution], ⟨by simp, by simp⟩, [], (append_nil _).symm, .nobody, by simp⟩
    simp [checkExchange, isDemo, bind_eq_ok]
  · next responder _ =>
    simp only [propagate, bind_eq_ok, mapError_eq_ok] at h
    obtain ⟨response, hresponse, _, hcheck, h⟩ := h
    rw [hresponse] at hcheck h
    unfold conclude at h
    split at h
    next hmaintain =>
      split at h
      · exact verifyResponse_ok hcheck hmaintain h
      · cases h
        exact exchanged_unverified hcheck
    next =>
      cases h
      exact exchanged_unverified hcheck

theorem exchange_error (h : exchange caps facts reports number challenge calls = .error f) :
    Fine f.raised ∧ ∃ new, f.calls = calls ++ new ∧ Added challenge number new := by
  unfold exchange at h
  split at h
  · cases h
  · next responder _ =>
    simp only [bind_eq_error] at h
    rcases h with h | ⟨response, -, h | ⟨_, -, h⟩⟩
    · obtain ⟨hcalls, hfine⟩ := propagate_error h
      exact ⟨hfine, _, hcalls, .responder _⟩
    · obtain ⟨hcalls, hfine⟩ := checkResponse_error h
      exact ⟨hfine, _, hcalls, .responder _⟩
    · unfold conclude at h
      split at h
      next =>
        split at h
        next verifier _ =>
          simp only [verifyResponse, bind_eq_error] at h
          rcases h with h | ⟨verdict, -, h | ⟨_, -, h⟩⟩
          · obtain ⟨hcalls, hfine⟩ := propagate_error h
            exact ⟨hfine, _, hcalls.trans (append_assoc ..), .both _ response _⟩
          · obtain ⟨hcalls, hfine⟩ := checkVerification_error h
            exact ⟨hfine, _, hcalls.trans (append_assoc ..), .both _ response _⟩
          · cases h
        next => cases h
      next => cases h

end

/-! ### The trace of the calls -/

/-- The trace while round `number` is played: which calls were made, and that none resolves a pending challenge. -/
structure Trace (challenges : List Challenge) (number : Nat) (addressed pending : List Challenge) (calls : List (Event ε)) :
    Prop where
  orderly : Orderly calls
  known : ∀ e ∈ calls, e.challenge ∈ challenges
  keys : ∀ k ∈ calls.filterMap Event.key?, k.2 < number ∨ k.2 = number ∧ k.1 ∈ addressed.map (·.challengeId)
  gone : ∀ e ∈ calls, e.Resolves → e.challenge.challengeId ∉ pending.map (·.challengeId)

section
variable {number : Nat} {challenges addressed pending : List Challenge} {challenge : Challenge} {calls new : List (Event ε)}

theorem Added.about (h : Added challenge number new) {e : Event ε} (he : e ∈ new) : e.challenge = challenge := by
  cases h with
  | nobody => cases he
  | responder result =>
    cases mem_singleton.mp he
    rfl
  | both result response verdict =>
    rcases mem_cons.mp he with rfl | he
    · rfl
    · cases mem_singleton.mp he
      rfl

theorem Added.orderly (h : Added challenge number new) : Orderly new := by
  cases h with
  | nobody => exact ⟨nodup_nil, .nil⟩
  | responder result => exact ⟨nodup_singleton _, pairwise_singleton ..⟩
  | both result response verdict =>
    refine ⟨nodup_singleton _, pairwise_cons.mpr ⟨fun e _ hresolves => hresolves.elim, ?_⟩⟩
    exact pairwise_singleton ..

theorem Added.keys (h : Added challenge number new) {k : String × Nat} (hk : k ∈ new.filterMap Event.key?) :
    k = (challenge.challengeId, number) := by
  cases h with
  | nobody => cases hk
  | responder result => exact mem_singleton.mp hk
  | both result response verdict => exact mem_singleton.mp hk

variable (h : Trace challenges number addressed pending calls) (hadded : Added challenge number new)
  (hpending : challenge ∈ pending) (hnew : challenge.challengeId ∉ addressed.map (·.challengeId))
include h hadded hpending hnew

theorem Trace.append : Orderly (calls ++ new) where
  once := by
    rw [filterMap_append, nodup_append]
    refine ⟨h.orderly.once, hadded.orderly.once, fun k hk k' hk' heq => ?_⟩
    cases hadded.keys hk'
    rcases h.keys k hk with hlt | ⟨-, hmem⟩
    · rw [heq] at hlt
      exact absurd hlt (Nat.lt_irrefl _)
    · rw [heq] at hmem
      exact hnew hmem
  quiet := by
    refine pairwise_append.mpr ⟨h.orderly.quiet, hadded.orderly.quiet, fun e he e' he' hresolves heq => ?_⟩
    rw [hadded.about he'] at heq
    exact h.gone e he hresolves (heq ▸ mem_map_of_mem hpending)

theorem Trace.next {left : List Challenge} (hleft : ∀ c ∈ left, c ∈ pending) (hknown : challenge ∈ challenges)
    (hresolved : (∃ e ∈ new, e.Resolves) → challenge.challengeId ∉ left.map (·.challengeId)) :
    Trace challenges number (addressed ++ [challenge]) left (calls ++ new) where
  orderly := h.append hadded hpending hnew
  known e he := by
    rcases mem_append.mp he with he | he
    · exact h.known e he
    · exact hadded.about he ▸ hknown
  keys k hk := by
    rw [filterMap_append, mem_append] at hk
    rw [map_append, mem_append]
    rcases hk with hk | hk
    · exact (h.keys k hk).imp_right fun ⟨hround, hmem⟩ => ⟨hround, .inl hmem⟩
    · cases hadded.keys hk
      exact .inr ⟨rfl, .inr (mem_singleton.mpr rfl)⟩
  gone e he hresolves hmem := by
    rcases mem_append.mp he with he | he
    · obtain ⟨c, hc, hid⟩ := mem_map.mp hmem
      exact h.gone e he hresolves (hid ▸ mem_map_of_mem (hleft c hc))
    · rw [hadded.about he] at hmem
      exact hresolved ⟨e, he, hresolves⟩ hmem

end

/-! ### Rounds -/

def sealStep (p : CrossExaminationPacket) (left : List Challenge) (x : ChallengeExchange) : Except Err (List Challenge) := do
  let challenge ← demand (left.find? fun c => c.challengeId = x.challenge.challengeId) .noResult
  p.checkExchange challenge x
  pure (if x.resolved then left.filter fun c => c.challengeId ≠ challenge.challengeId else left)

theorem sealStep_ok {p : CrossExaminationPacket} {left : List Challenge} {challenge : Challenge}
    (hn : (left.map (·.challengeId)).Nodup) (hmem : challenge ∈ left) (hx : x.challenge = challenge)
    (haccepted : p.checkExchange challenge x = .ok ()) : sealStep p left x =
      .ok (if x.resolved then left.filter fun c => c.challengeId ≠ challenge.challengeId else left) := by
  have hfind : left.find? (fun c => c.challengeId = x.challenge.challengeId) = some challenge := by
    rw [hx]
    exact get?_of_mem hn hmem
  simp only [sealStep, ok_iff]
  exact ⟨challenge, hfind, (), haccepted, rfl⟩

/-- A round after some of its challenges: what the seal replays, what is unresolved, and what was called. -/
structure Midway (facts : ResearchSnapshot) (challenges : List Challenge) (number : Nat) (pending addressed : List Challenge)
    (s : RoundState ε) : Prop where
  kept : s.unresolved.Sublist pending
  waiting : ∀ c ∈ pending, c ∉ addressed → c ∈ s.unresolved
  asked : s.exchanges.map (·.challenge) = addressed
  replayed : ∀ p : CrossExaminationPacket, p.snapshotHash = facts.hash →
    s.exchanges.foldlM (sealStep p) pending = .ok s.unresolved
  outcome : ∀ c ∈ pending, c ∈ s.unresolved ↔ ¬ ∃ x ∈ s.exchanges, x.challenge = c ∧ Resolution x
  recorded : ∀ x ∈ s.exchanges, Recorded number s.calls x
  trace : Trace challenges number addressed s.unresolved s.calls

section
variable {caps : Capabilities ε} {facts : ResearchSnapshot} {reports : List FirmReport} {number : Nat}
  {challenges pending addressed rest : List Challenge} {challenge : Challenge} {s t : RoundState ε}
  (h : Midway facts challenges number pending addressed s) (hn : (pending.map (·.challengeId)).Nodup)
  (hpending : pending = addressed ++ challenge :: rest)
include h hn hpending

theorem Midway.next : challenge ∈ s.unresolved ∧ challenge.challengeId ∉ addressed.map (·.challengeId) := by
  rw [hpending, map_append, nodup_append] at hn
  have hnew : challenge.challengeId ∉ addressed.map (·.challengeId) := fun hmem =>
    hn.2.2 _ hmem _ (mem_map_of_mem (mem_cons_self ..)) rfl
  refine ⟨h.waiting challenge ?_ fun hmem => hnew (mem_map_of_mem hmem), hnew⟩
  rw [hpending]
  exact mem_append_right _ (mem_cons_self ..)

theorem address_ok (hsubset : ∀ c ∈ pending, c ∈ challenges)
    (hok : address caps facts reports number s challenge = .ok t) :
    Midway facts challenges number pending (addressed ++ [challenge]) t := by
  obtain ⟨hmem, hnew⟩ := h.next hn hpending
  have hleft : (s.unresolved.map (·.challengeId)).Nodup := hn.sublist (h.kept.map _)
  simp only [address, ok_iff] at hok
  obtain ⟨⟨x, calls⟩, hx, rfl⟩ := hok
  obtain ⟨habout, haccepted, hresolved, hrecorded, new, rfl, hadded, hevents⟩ := exchange_ok hx
  -- the challenges that are still pending after the exchange
  generalize hunresolved : (if x.resolved then s.unresolved.filter fun c => c.challengeId ≠ challenge.challengeId
    else s.unresolved) = left
  have hsub : left.Sublist s.unresolved := by
    rw [← hunresolved]
    split
    · exact filter_sublist
    · exact .refl _
  have hmemleft : ∀ c ∈ s.unresolved, c ∈ left ↔ ¬ (c = challenge ∧ x.resolved = true) := by
    intro c hc
    rw [← hunresolved]
    by_cases hr : x.resolved = true
    · simp only [hr, if_true, mem_filter, hc, true_and, and_true, decide_eq_true_eq]
      exact not_congr ⟨fun hid => eq_of_key hleft hc hmem hid, fun heq => by rw [heq]⟩
    · simp [hr, hc]
  refine ⟨hsub.trans h.kept, fun c hc hnot => ?_, ?_, fun p hp => ?_, fun c hc => ?_, fun y hy => ?_, ?_⟩
  · rw [mem_append, not_or, mem_singleton] at hnot
    exact (hmemleft c (h.waiting c hc hnot.1)).mpr fun hsame => hnot.2 hsame.1
  · rw [map_append, h.asked, map_singleton, habout]
  · rw [foldlM_append_eq_ok]
    refine ⟨s.unresolved, h.replayed p hp, ?_⟩
    rw [foldlM_cons, bind_eq_ok]
    refine ⟨left, ?_, rfl⟩
    rw [sealStep_ok hleft hmem habout (haccepted p hp), hunresolved]
  · have hexchanges : (∃ y ∈ s.exchanges ++ [x], y.challenge = c ∧ Resolution y) ↔
        (∃ y ∈ s.exchanges, y.challenge = c ∧ Resolution y) ∨ c = challenge ∧ x.resolved = true := by
      rw [hresolved, ← habout, eq_comm]
      simp only [mem_append, mem_singleton, or_and_right, exists_or, exists_eq_left]
    rw [hexchanges, not_or, ← h.outcome c hc]
    exact ⟨fun hl => ⟨hsub.subset hl, (hmemleft c (hsub.subset hl)).mp hl⟩, fun h => (hmemleft c h.1).mpr h.2⟩
  · rcases mem_snoc.mp hy with hy | rfl
    · exact (h.recorded y hy).append new
    · exact hrecorded
  · have hknown : challenge ∈ challenges := hsubset challenge (h.kept.subset hmem)
    refine h.trace.next hadded hmem hnew (fun c hc => hsub.subset hc) hknown fun hevent hid => ?_
    obtain ⟨c, hc, hid⟩ := mem_map.mp hid
    have hsame : c = challenge := eq_of_key hleft (hsub.subset hc) hmem hid
    exact (hmemleft c (hsub.subset hc)).mp hc ⟨hsame, hevents hevent⟩

theorem address_error (herr : address caps facts reports number s challenge = .error f) : Fine f.raised ∧ Orderly f.calls := by
  obtain ⟨hmem, hnew⟩ := h.next hn hpending
  simp only [address, bind_eq_error] at herr
  rcases herr with herr | ⟨_, -, herr⟩
  · obtain ⟨hfine, new, hcalls, hadded⟩ := exchange_error herr
    rw [hcalls]
    exact ⟨hfine, h.trace.append hadded hmem hnew⟩
  · cases herr

end

/-! ### Runs -/

/-- The run after some of its rounds, with the same facts as within a round. -/
structure Played (facts : ResearchSnapshot) (challenges : List Challenge) (number : Nat) (s : RunState ε) : Prop where
  kept : s.unresolved.Sublist challenges
  numbered : s.rounds.map (·.number) = List.range' 1 number
  replayed : ∀ p : CrossExaminationPacket, p.snapshotHash = facts.hash →
    s.rounds.foldlM p.checkRound challenges = .ok s.unresolved
  outcome : ∀ c ∈ challenges, c ∈ s.unresolved ↔
    ¬ ∃ r ∈ s.rounds, ∃ x ∈ r.exchanges, x.challenge = c ∧ Resolution x
  recorded : ∀ r ∈ s.rounds, ∀ x ∈ r.exchanges, Recorded r.number s.calls x
  trace : Trace challenges (number + 1) [] s.unresolved s.calls

section
variable {caps : Capabilities ε} {facts : ResearchSnapshot} {reports : List FirmReport} {challenges : List Challenge}
  {number : Nat} {s t : RunState ε} {pending : List Challenge}

theorem Trace.done {addressed : List Challenge} {calls : List (Event ε)}
    (h : Trace challenges number addressed pending calls) : Trace challenges (number + 1) [] pending calls where
  orderly := h.orderly
  known := h.known
  keys k hk := by
    rcases h.keys k hk with hlt | ⟨heq, -⟩
    · exact .inl (by omega)
    · exact .inl (by omega)
  gone := h.gone

theorem midway_start (h : Played facts challenges number s) :
    Midway facts challenges (number + 1) s.unresolved [] ({ unresolved := s.unresolved, calls := s.calls } : RoundState ε) where
  kept := .refl _
  waiting _ hc _ := hc
  asked := rfl
  replayed _ _ := rfl
  outcome c hc := by simp [hc]
  recorded x hx := nomatch hx
  trace := h.trace

theorem playRound_calls {start finish : RoundState ε}
    (h : pending.foldlM (address caps facts reports number) start = .ok finish) :
    ∃ new, finish.calls = start.calls ++ new := by
  refine foldlM_inv (P := fun s => ∃ new, s.calls = start.calls ++ new) h ⟨[], (append_nil _).symm⟩
    fun s c t _ ⟨new, hs⟩ hok => ?_
  simp only [address, ok_iff] at hok
  obtain ⟨⟨x, calls⟩, hx, rfl⟩ := hok
  obtain ⟨added, hadded, -⟩ := (exchange_ok hx).added
  exact ⟨new ++ added, by rw [hadded, hs, append_assoc]⟩

section
variable (h : Played facts challenges number s) (hn : (challenges.map (·.challengeId)).Nodup)
include h hn

theorem playRound_ok
    (hok : playRound caps facts reports (number + 1) s = .ok t) : Played facts challenges (number + 1) t := by
  have hpending : (s.unresolved.map (·.challengeId)).Nodup := hn.sublist (h.kept.map _)
  simp only [playRound, bind_eq_ok, pure_eq_ok] at hok
  obtain ⟨played, hplayed, rfl⟩ := hok
  have hend := (foldlM_inv_along (midway_start h)
    fun addressed c rest s t hp hs hok => address_ok hs hpending hp (fun c hc => h.kept.subset hc) hok).1 played hplayed
  have hround (p : CrossExaminationPacket) (hp : p.snapshotHash = facts.hash) :
      p.checkRound s.unresolved { number := number + 1, exchanges := played.exchanges } = .ok played.unresolved := by
    have hids : played.exchanges.map (·.challenge.challengeId) = s.unresolved.map (·.challengeId) := by
      rw [← hend.asked, map_map]
      rfl
    simp only [checkRound, bind_eq_ok, require_eq_ok, hids]
    refine ⟨(), ⟨fun _ hx => hx, fun _ hx => hx⟩, (), ?_, hend.replayed p hp⟩
    rw [← hend.asked, length_map]
  -- the calls of the round come after those of the earlier rounds
  obtain ⟨new, hcalls⟩ := playRound_calls hplayed
  refine ⟨hend.kept.trans h.kept, ?_, fun p hp => ?_, fun c hc => ?_, fun r hr x hx => ?_, hend.trace.done⟩
  · rw [map_append, h.numbered, map_singleton, List.range'_concat]
    simp [Nat.add_comm]
  · rw [foldlM_append_eq_ok]
    refine ⟨s.unresolved, h.replayed p hp, ?_⟩
    rw [foldlM_cons, bind_eq_ok]
    exact ⟨played.unresolved, hround p hp, rfl⟩
  · by_cases hleft : c ∈ s.unresolved
    · rw [hend.outcome c hleft]
      have hbefore := (h.outcome c hc).mp hleft
      refine not_congr ⟨fun ⟨x, hx, hr⟩ => ?_, fun ⟨r, hr, x, hx, hres⟩ => ?_⟩
      · exact ⟨_, mem_append_right _ (mem_singleton.mpr rfl), x, hx, hr⟩
      · rcases mem_snoc.mp hr with hr | rfl
        · exact absurd ⟨r, hr, x, hx, hres⟩ hbefore
        · exact ⟨x, hx, hres⟩
    · have hbefore := not_not.mp (mt (h.outcome c hc).mpr hleft)
      obtain ⟨r, hr, x, hx, hres⟩ := hbefore
      refine iff_of_false (fun hc' => hleft (hend.kept.subset hc')) ?_
      exact not_not.mpr ⟨r, mem_append_left _ hr, x, hx, hres⟩
  · rcases mem_snoc.mp hr with hr | rfl
    · exact hcalls ▸ (h.recorded r hr x hx).append new
    · exact hend.recorded x hx

theorem playRound_error
    (herr : playRound caps facts reports (number + 1) s = .error f) :
    Fine f.raised ∧ Orderly f.calls := by
  have hpending : (s.unresolved.map (·.challengeId)).Nodup := hn.sublist (h.kept.map _)
  simp only [playRound, bind_eq_error] at herr
  rcases herr with herr | ⟨_, -, herr⟩
  · obtain ⟨addressed, c, rest, t, hp, ht, hfail⟩ := (foldlM_inv_along (midway_start h)
      fun addressed c rest s t hp hs hok => address_ok hs hpending hp (fun c hc => h.kept.subset hc) hok).2 f herr
    exact address_error ht hpending hp hfail
  · cases herr

end

theorem play_spec (caps : Capabilities ε) (facts : ResearchSnapshot) (reports : List FirmReport)
    (hn : (challenges.map (·.challengeId)).Nodup) : ∀ (count : Nat) {number : Nat} {s : RunState ε},
    Played facts challenges number s → (∀ t, play caps facts reports (List.range' (number + 1) count) s = .ok t →
        ∃ last ≤ number + count, Played facts challenges last t) ∧
      ∀ f, play caps facts reports (List.range' (number + 1) count) s = .error f → Fine f.raised ∧ Orderly f.calls
  | 0, number, s, h => by
    refine ⟨fun t hok => ?_, fun f herr => by cases herr⟩
    cases hok
    exact ⟨number, Nat.le_refl _, h⟩
  | count + 1, number, s, h => by
    rw [List.range'_succ, play]
    split
    · refine ⟨fun t hok => ?_, fun f herr => by cases herr⟩
      cases hok
      exact ⟨number, by omega, h⟩
    · constructor
      · intro t hok
        obtain ⟨u, hu, hok⟩ := bind_eq_ok.mp hok
        have hplayed := playRound_ok h hn hu
        split at hok
        · obtain ⟨last, hlast, ht⟩ := (play_spec caps facts reports hn count hplayed).1 t hok
          exact ⟨last, by omega, ht⟩
        · cases hok
          exact ⟨number + 1, by omega, hplayed⟩
      · intro f herr
        rcases bind_eq_error.mp herr with herr | ⟨u, hu, herr⟩
        · exact playRound_error h hn herr
        · split at herr
          · exact (play_spec caps facts reports hn count (playRound_ok h hn hu)).2 f herr
          · cases herr

end

/-! ### Challenges -/

theorem toString_injective : Function.Injective (toString : Nat → String) := by
  intro a b h
  have hdigits : Nat.toDigits 10 a = Nat.toDigits 10 b := by
    have hrepr : a.repr = b.repr := h
    rwa [Nat.repr_eq_ofList_toDigits, Nat.repr_eq_ofList_toDigits, String.ofList_inj] at hrepr
  rw [← Nat.ofDigitChars_toDigits (b := 10) (n := a) (by decide) (by decide), hdigits,
    Nat.ofDigitChars_toDigits (by decide) (by decide)]

section
variable {P : Platform} {facts : ResearchSnapshot} {reports : List FirmReport} {lean : LeanValidationReport}
  {audit : CIOAuditReport}

/-- What a challenge is made of: its number, the claim that it is about, and whose hash it carries. -/
structure Posed (P : Platform) (reports : List FirmReport) (lean : LeanValidationReport) (audit : CIOAuditReport)
    (index : Nat) (c : Challenge) : Prop where
  id : c.challengeId = "challenge-" ++ toString (index + 1)
  claim : ∀ original ∈ c.originalClaim, some original.claimId = c.claimId
  origin : (∃ r ∈ reports, c.respondent = .firm r.firm ∧ c.originalReportHash = P.reportHash r) ∨
    c.respondent = .lean ∧ c.originalReportHash = P.leanHash lean ∨
    c.respondent = .cio ∧ c.originalReportHash = P.auditHash audit

variable {finding : AuditFinding} {index : Nat} {e : Err} {challenges : List Challenge} {locked : Bool}
  {maximumChallenges maximumRounds : Int}

theorem challengeOf_ok {c : Challenge}
    (h : challengeOf P facts reports lean audit finding index = .ok c) : Posed P reports lean audit index c := by
  simp only [challengeOf, ok_iff] at h
  obtain ⟨-, -, hclaim, -, rfl⟩ := h
  refine ⟨rfl, hclaim, ?_⟩
  cases howner : owner? reports (finding.claimId.getD "") with
  | some report => exact .inl ⟨report, mem_of_find?_eq_some howner, rfl, rfl⟩
  | none =>
    by_cases hlean : finding.auditor = "LEAN Auditor"
    · exact .inr (.inl (by simp [respondentOf, hashOf, hlean]))
    · exact .inr (.inr (by simp [respondentOf, hashOf, hlean]))

theorem challengeOf_error (hquestion : 1 ≤ finding.explanation.length ∧ finding.explanation.length ≤ 4000)
    (h : challengeOf P facts reports lean audit finding index = .error e) : ∃ message, e = .upstream message := by
  have hclaim : ∀ c, ((owner? reports (finding.claimId.getD "")).bind fun r =>
      r.claims.find? fun c => some c.claimId = finding.claimId) = some c → some c.claimId = finding.claimId := by
    intro c hc
    obtain ⟨r, -, hfind⟩ := Option.bind_eq_some_iff.mp hc
    simpa using List.find?_some hfind
  simp only [challengeOf, bind_eq_error, require_eq_error] at h
  rcases h with ⟨-, rfl⟩ | ⟨_, -, ⟨hlength, -⟩ | ⟨_, -, ⟨hidentity, -⟩ | ⟨_, -, ⟨-, rfl⟩ | ⟨_, -, h⟩⟩⟩⟩
  · exact ⟨_, rfl⟩
  · exact absurd hquestion hlength
  · exact absurd hclaim hidentity
  · exact ⟨_, rfl⟩
  · cases h

theorem disputed_explained (h : ∀ f ∈ audit.findings, 1 ≤ f.explanation.length ∧ f.explanation.length ≤ 4000) :
    ∀ f ∈ disputed reports audit, 1 ≤ f.explanation.length ∧ f.explanation.length ≤ 4000 := by
  unfold disputed
  intro f hf
  dsimp only at hf
  split at hf
  · split at hf
    · cases mem_singleton.mp hf
      decide
    · obtain ⟨id, -, rfl⟩ := mem_map.mp hf
      exact (by decide : 1 ≤ "Initial CIO audit records unresolved material disagreement.".length ∧
        "Initial CIO audit records unresolved material disagreement.".length ≤ 4000)
  · exact h f (mem_filter.mp hf).1

/-- What the checks in front of the first round establish about the challenges. -/
structure Prepared (P : Platform) (facts : ResearchSnapshot) (reports : List FirmReport) (lean : LeanValidationReport)
    (audit : CIOAuditReport) (challenges : List Challenge) : Prop where
  few : challenges.length ≤ 24
  ids : (challenges.map (·.challengeId)).Nodup
  posed : ∀ c ∈ challenges, ∃ index, Posed P reports lean audit index c
  firms : (reports.map (·.firm)).Perm facts.requiredFirstPassFirms

theorem posed_of_mapM {findings : List AuditFinding}
    (h : findings.zipIdx.mapM (fun entry => challengeOf P facts reports lean audit entry.1 entry.2) = .ok challenges) :
    List.Forall₂ (fun entry c => Posed P reports lean audit entry.2 c) findings.zipIdx challenges :=
  (forall₂_of_mapM h).imp fun _ _ => challengeOf_ok

theorem ids_nodup {entries : List (AuditFinding × Nat)}
    (h : List.Forall₂ (fun entry c => Posed P reports lean audit entry.2 c) entries challenges)
    (hn : (entries.map (·.2)).Nodup) : (challenges.map (·.challengeId)).Nodup := by
  have hids : challenges.map (·.challengeId) = (entries.map (·.2)).map fun index => "challenge-" ++ toString (index + 1) := by
    induction h with
    | nil => rfl
    | cons hposed _ ih =>
      simp only [map_cons, hposed.id]
      rw [ih (nodup_cons.mp hn).2]
  rw [hids]
  refine hn.map fun i j hij => ?_
  have hnumber : toString (i + 1) = toString (j + 1) := by simpa using hij
  exact Nat.succ.inj (toString_injective hnumber)

theorem requiredFirstPassFirms_nodup (s : ResearchSnapshot) : s.requiredFirstPassFirms.Nodup := by
  unfold ResearchSnapshot.requiredFirstPassFirms
  cases s.qlibEnabled <;> decide

theorem prepare_ok (h : prepare P facts reports lean audit locked maximumRounds maximumChallenges = .ok challenges) :
    Prepared P facts reports lean audit challenges := by
  simp only [prepare, ok_iff] at h
  obtain ⟨-, -, ⟨-, hmaximum⟩, ⟨hlength, -, hall⟩, -, -, hbudget, h⟩ := h
  have hposed := posed_of_mapM h
  refine ⟨?_, ids_nodup hposed ?_, fun c hc => ?_, ?_⟩
  · have hsame := hposed.length_eq
    rw [length_zipIdx] at hsame
    omega
  · rw [zipIdx_map_snd]
    exact nodup_range'
  · obtain ⟨entry, -, hchallenge⟩ := exists_of_mem_mapM h c hc
    exact ⟨entry.2, challengeOf_ok hchallenge⟩
  · refine ((requiredFirstPassFirms_nodup facts).subperm hall).perm_of_length_le ?_ |>.symm
    rw [length_map, hlength]

theorem prepare_error
    (hrounds : 0 ≤ maximumRounds ∧ maximumRounds ≤ 2) (hchallenges : 1 ≤ maximumChallenges ∧ maximumChallenges ≤ 24)
    (hexplained : ∀ f ∈ audit.findings, 1 ≤ f.explanation.length ∧ f.explanation.length ≤ 4000)
    (h : prepare P facts reports lean audit locked maximumRounds maximumChallenges = .error e) :
    ∃ message, e = .upstream message := by
  simp only [prepare, bind_eq_error, require_eq_error] at h
  rcases h with ⟨-, rfl⟩ | ⟨_, -, ⟨hr, -⟩ | ⟨_, -, ⟨hc, -⟩ | ⟨_, -, ⟨-, rfl⟩ | ⟨_, -, ⟨-, rfl⟩ | ⟨_, -, ⟨-, rfl⟩ |
    ⟨_, -, ⟨-, rfl⟩ | ⟨_, -, h⟩⟩⟩⟩⟩⟩⟩
  · exact ⟨_, rfl⟩
  · exact absurd hrounds hr
  · exact absurd hchallenges hc
  · exact ⟨_, rfl⟩
  · exact ⟨_, rfl⟩
  · exact ⟨_, rfl⟩
  · exact ⟨_, rfl⟩
  · obtain ⟨entry, hentry, herr⟩ := exists_error_of_mapM h
    have hmem : entry.1 ∈ disputed reports audit := fst_mem_of_mem_zipIdx hentry
    exact challengeOf_error (disputed_explained hexplained entry.1 hmem) herr

end

/-! ### The seal -/

section
variable {P : Platform} {facts : ResearchSnapshot} {reports : List FirmReport} {lean : LeanValidationReport}
  {audit : CIOAuditReport} {challenges : List Challenge} {number : Nat} {s : RunState ε} {issuedAt : Int}

theorem reportHashes_perm (P : Platform) (reports : List FirmReport) :
    (reportHashes P reports).Perm (reports.map fun r => (r.firm, P.reportHash r)) :=
  perm_insertionSort ..

section
variable (h : Prepared P facts reports lean audit challenges)
include h

theorem reportHashes_firms :
    ((reportHashes P reports).map (·.1)).Perm facts.requiredFirstPassFirms := by
  refine ((reportHashes_perm P reports).map _).trans ?_
  rw [map_map]
  exact h.firms

theorem originalHash_packetOf {c : Challenge} (hc : c ∈ challenges) :
    (packetOf P facts reports lean audit challenges s issuedAt).originalHash c.respondent = some c.originalReportHash := by
  obtain ⟨index, hposed⟩ := h.posed c hc
  rcases hposed.origin with ⟨r, hr, hrespondent, hhash⟩ | ⟨hrespondent, hhash⟩ | ⟨hrespondent, hhash⟩
  · have hn : ((reportHashes P reports).reverse.map (·.1)).Nodup := by
      rw [map_reverse, nodup_reverse]
      exact (reportHashes_firms h).nodup_iff.mpr (requiredFirstPassFirms_nodup facts)
    have hmem : (r.firm, P.reportHash r) ∈ (reportHashes P reports).reverse :=
      mem_reverse.mpr ((reportHashes_perm P reports).mem_iff.mpr (mem_map_of_mem hr))
    rw [hrespondent, hhash]
    exact congrArg (Option.map (·.2)) (get?_of_mem hn hmem)
  · rw [hrespondent, hhash]
    rfl
  · rw [hrespondent, hhash]
    rfl

theorem sealed_packetOf (hplayed : Played facts challenges number s)
    (hrounds : number ≤ 2) : (packetOf P facts reports lean audit challenges s issuedAt).sealed P.crossHash =
      .ok { packetOf P facts reports lean audit challenges s issuedAt with
        hash := P.crossHash (packetOf P facts reports lean audit challenges s issuedAt) } := by
  have hlength : s.rounds.length = number := by
    rw [← length_map, hplayed.numbered, length_range']
  have hfirms := reportHashes_firms h
  simp only [sealed, ok_iff]
  refine ⟨⟨h.few, hlength.le.trans hrounds, fun c hc => ?_⟩, ?_, ?_, h.ids, ⟨?_, ?_, ?_⟩, ?_, s.unresolved, ?_, ?_,
    .inl rfl, rfl⟩
  · obtain ⟨index, hposed⟩ := h.posed c hc
    exact hposed.claim
  · change s.rounds.map (·.number) = List.range' 1 s.rounds.length
    rw [hplayed.numbered, hlength]
  · change (!s.unresolved.isEmpty) = !(s.unresolved.map (·.challengeId)).isEmpty
    rw [isEmpty_map]
  · rw [← length_map]
    exact hfirms.length_eq
  · exact fun f hf => hfirms.mem_iff.mpr hf
  · exact fun entry hentry => hfirms.mem_iff.mp (mem_map_of_mem hentry)
  · exact fun c hc => originalHash_packetOf h hc
  · exact hplayed.replayed _ rfl
  · exact ⟨⟨fun _ hx => hx, fun _ hx => hx⟩, length_map _⟩

end

theorem sealed_again {digest : CrossExaminationPacket → Hash} {p : CrossExaminationPacket}
    (h : p.sealed digest = .ok { p with hash := digest p }) (hempty : p.hash = "") :
    ({ p with hash := digest p } : CrossExaminationPacket).sealed digest = .ok { p with hash := digest p } := by
  have hsame : { p with hash := "" } = p := by rw [← hempty]
  simp only [sealed, bind_eq_ok, require_eq_ok, exists_const] at h ⊢
  obtain ⟨hbounded, hnumbers, hdisagreement, hids, hfirms, horiginal, pending, hpending, hleft, -, -⟩ := h
  refine ⟨hbounded, hnumbers, hdisagreement, hids, hfirms, horiginal, pending, hpending, hleft, .inr ?_, ?_⟩
  · exact congrArg digest hsame.symm
  · exact congrArg (fun d => Except.ok { p with hash := d }) (congrArg digest hsame)

theorem played_start (facts : ResearchSnapshot) (challenges : List Challenge) :
    Played facts challenges 0 ({ unresolved := challenges } : RunState ε) where
  kept := .refl _
  numbered := rfl
  replayed _ _ := rfl
  outcome c hc := by simp [hc]
  recorded := by simp
  trace := ⟨⟨nodup_nil, .nil⟩, by simp, by simp, by simp⟩

end

/-- A returned packet is sealed, asks each challenge at most once per round and never a resolved one, and has the hashes
    of the reports. -/
structure Meets (P : Platform) (reports : List FirmReport) (packet : CrossExaminationPacket) (calls : List (Event ε)) :
    Prop where
  accepted : packet.sealed P.crossHash = .ok packet
  rounds : packet.rounds.length ≤ 2
  orderly : Orderly calls
  known : ∀ e ∈ calls, e.challenge ∈ packet.challenges
  recorded : ∀ r ∈ packet.rounds, ∀ x ∈ r.exchanges, Recorded r.number calls x
  unresolved : ∀ c ∈ packet.challenges, c.challengeId ∈ packet.unresolvedChallengeIds ↔
    ¬ ∃ r ∈ packet.rounds, ∃ x ∈ r.exchanges, x.challenge = c ∧ Resolution x
  pending : ∀ id ∈ packet.unresolvedChallengeIds, ∃ c ∈ packet.challenges, c.challengeId = id
  hashes : packet.reportHashes.Perm (reports.map fun r => (r.firm, P.reportHash r))

/-- The runner raises what it may raise, or returns a packet that its seal accepts. -/
theorem run_meets_seal (P : Platform) (caps : Capabilities ε) (snapshot : Frozen P) (reports : List FirmReport)
    (lean : LeanValidationReport) (audit : CIOAuditReport) (locked : Bool) (maximumRounds maximumChallenges issuedAt : Int)
    (hrounds : 0 ≤ maximumRounds ∧ maximumRounds ≤ 2) (hchallenges : 1 ≤ maximumChallenges ∧ maximumChallenges ≤ 24)
    (hexplained : ∀ f ∈ audit.findings, 1 ≤ f.explanation.length ∧ f.explanation.length ≤ 4000) :
    (∀ f, run P caps snapshot reports lean audit locked maximumRounds maximumChallenges issuedAt = .error f →
      Fine f.raised ∧ Orderly f.calls) ∧ ∀ packet calls,
      run P caps snapshot reports lean audit locked maximumRounds maximumChallenges issuedAt = .ok (packet, calls) →
        Meets P reports packet calls := by
  have hplay (challenges : List Challenge) (hids : (challenges.map (·.challengeId)).Nodup) :=
    play_spec caps snapshot.snapshot reports hids maximumRounds.toNat
      (played_start snapshot.snapshot challenges)
  constructor
  · intro f h
    simp only [run, bind_eq_error, mapError_eq_ok, mapError_eq_error] at h
    rcases h with ⟨e, he, rfl⟩ | ⟨challenges, hprepare, h⟩
    · obtain ⟨message, rfl⟩ := prepare_error hrounds hchallenges hexplained he
      exact ⟨.upstream message, nodup_nil, .nil⟩
    · have hprepared := prepare_ok hprepare
      rcases h with h | ⟨s, hs, ⟨e, he, -⟩ | ⟨_, -, h⟩⟩
      · exact (hplay challenges hprepared.ids).2 f h
      · obtain ⟨last, hlast, hplayed⟩ := (hplay challenges hprepared.ids).1 s hs
        rw [sealed_packetOf hprepared hplayed (by omega)] at he
        cases he
      · cases h
  · intro packet calls h
    simp only [run, ok_iff, mapError_eq_ok, Prod.mk.injEq] at h
    obtain ⟨challenges, hprepare, s, hs, packet, hsealed, rfl, rfl⟩ := h
    have hprepared := prepare_ok hprepare
    obtain ⟨last, hlast, hplayed⟩ := (hplay challenges hprepared.ids).1 s hs
    have hseal : (packetOf P snapshot.snapshot reports lean audit challenges s issuedAt).sealed P.crossHash = _ :=
      sealed_packetOf hprepared hplayed (by omega)
    cases hseal.symm.trans hsealed
    have hlength : s.rounds.length = last := by
      rw [← length_map, hplayed.numbered, length_range']
    refine ⟨sealed_again hseal rfl, ?_, hplayed.trace.orderly, hplayed.trace.known, hplayed.recorded, fun c hc => ?_,
      fun id hid => ?_, reportHashes_perm P reports⟩
    · change s.rounds.length ≤ 2
      omega
    · refine Iff.trans ⟨fun hid => ?_, fun hmem => mem_map_of_mem hmem⟩ (hplayed.outcome c hc)
      obtain ⟨c', hc', hid⟩ := mem_map.mp hid
      cases eq_of_key hprepared.ids (hplayed.kept.subset hc') hc hid
      exact hc'
    · obtain ⟨c, hc, hid⟩ := mem_map.mp hid
      exact ⟨c, hplayed.kept.subset hc, hid⟩

def citedSnapshot : Frozen plainPlatform :=
  ⟨{ clearedRequest.snapshot with evidence := dailyBars.take 1 }, by decide +kernel⟩

def contradictingAudit : CIOAuditReport where
  snapshotId := "snapshot"
  completed := true
  activeSpecialists := []
  findings := [{ auditor := "auditor", claimId := some "tradingagents", state := .contradicted, explanation := "Volume fell." }]

def agreeing : Capabilities Unit where
  responders _ := some fun _ facts _ challenge _ => .ok {
    challengeId := challenge.challengeId, respondent := challenge.respondent, snapshotHash := facts.hash
    originalReportHash := challenge.originalReportHash, position := .maintain, explanation := "The claim stands."
    evidenceIds := challenge.evidenceIds }
  verifier := some fun _ _ challenge _ => .ok (.finding {
    auditor := "verifier", claimId := challenge.claimId, state := .verified, explanation := "Checked."
    evidenceIds := challenge.evidenceIds })

/-- A challenge that is answered and verified in the first round. -/
theorem run_meets_seal_agreeing : ∃ packet calls,
    run plainPlatform agreeing citedSnapshot clearedRequest.reports clearedRequest.lean contradictingAudit true 2 24 0 =
      .ok (packet, calls) ∧ (packet.rounds.length = 1 ∧ packet.challenges.length = 1 ∧ packet.unresolvedChallengeIds = []) ∧
    Meets plainPlatform clearedRequest.reports packet calls := by
  obtain ⟨⟨packet, calls⟩, hrun, hreturned⟩ : ∃ result, run plainPlatform agreeing citedSnapshot clearedRequest.reports
      clearedRequest.lean contradictingAudit true 2 24 0 = .ok result ∧ (result.1.rounds.length = 1 ∧
        result.1.challenges.length = 1 ∧ result.1.unresolvedChallengeIds = []) := by
    apply exists_of_toOption
    decide +kernel
  exact ⟨packet, calls, hrun, hreturned, (run_meets_seal plainPlatform agreeing citedSnapshot clearedRequest.reports
    clearedRequest.lean contradictingAudit true 2 24 0 (by decide) (by decide) (by decide)).2 packet calls hrun⟩

end Money.Challenges
