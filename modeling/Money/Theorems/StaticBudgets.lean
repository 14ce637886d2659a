import Mathlib.Algebra.BigOperators.Ring.List
import Money.Live
import Money.Theorems.Admission

/-! A configuration that passes the static check strands no job: the calls of a first attempt are distinct members of
    one table, so each scope is charged at most what the whole table reserves in it. -/

namespace Money
open Checked List Money.System

variable {Doc : Type} {E : Env Doc}

/-! ### The calls of a job -/

inductive NativeFirm where
  | tradingagents | aiHedgeFund
  deriving DecidableEq

/-- The roles that are paid for: the native firms, and the CIO that audits and verifies. -/
inductive Role where
  | firm (firm : NativeFirm)
  | crewai
  deriving DecidableEq

def Role.all : List Role := [.firm .tradingagents, .firm .aiHedgeFund, .crewai]

def Role.name : Role → String
  | .firm .tradingagents => "tradingagents"
  | .firm .aiHedgeFund => "ai_hedge_fund"
  | .crewai => "crewai"

def Role.selection (s : InferenceSelections) : Role → InferenceSelection
  | .firm .tradingagents => s.tradingagents
  | .firm .aiHedgeFund => s.aiHedgeFund
  | .crewai => s.crewai

def Role.answerCalls : Role → Nat
  | .firm .tradingagents => 2
  | .firm .aiHedgeFund | .crewai => 1

inductive FlowCall where
  | firstPass (firm : NativeFirm)
  | audit
  | response (challenge round : Nat)
  | verification (challenge round : Nat)
  deriving DecidableEq

structure Flow where
  selections : InferenceSelections
  calls : Nat
  limits : BudgetLimits
  challenges : Nat
  jobId : String
  attempt : Int
  /-- The firm that answers a challenge in a round. -/
  responder : Nat → Nat → NativeFirm
  /-- The identities of the correspondence calls. -/
  identity : FlowCall → String

def Flow.allows (f : Flow) : FlowCall → Prop
  | .firstPass _ | .audit => True
  | .response challenge round | .verification challenge round => challenge < f.challenges ∧ round < 2

def Flow.role (f : Flow) : FlowCall → Role
  | .firstPass firm => .firm firm
  | .response challenge round => .firm (f.responder challenge round)
  | .audit | .verification .. => .crewai

def Flow.budget (f : Flow) (role : Role) : InvocationBudget where
  agent := role.name
  provider := (role.selection f.selections).provider
  model := (role.selection f.selections).model
  maximum := f.calls * (role.selection f.selections).size

def Flow.request (f : Flow) (c : FlowCall) : BudgetReservation :=
  match c with
  | .firstPass _ | .audit => (f.budget (f.role c)).request f.jobId f.attempt
  | .response .. | .verification .. => correspondenceRequest f.jobId f.attempt (f.role c).name
      ((f.role c).selection f.selections) (f.role c).answerCalls (f.identity c)

section
variable (f : Flow) (c : FlowCall)

@[simp] theorem Flow.request_jobId : (f.request c).jobId = f.jobId := by cases c <;> rfl
@[simp] theorem Flow.request_agent : (f.request c).agent = (f.role c).name := by cases c <;> rfl
@[simp] theorem Flow.request_provider : (f.request c).provider = ((f.role c).selection f.selections).provider := by
  cases c <;> rfl
@[simp] theorem Flow.request_model : (f.request c).model = ((f.role c).selection f.selections).model := by cases c <;> rfl

end

/-! ### The table of all calls -/

def Flow.reserved (f : Flow) (p : FlowCall → Bool) (calls : List FlowCall) : Nat :=
  ((calls.filter p).map fun c => (f.request c).maximumTokens).sum

def roundCalls (challenge round : Nat) : List FlowCall := [.response challenge round, .verification challenge round]

def challengeCalls (challenges : Nat) : List FlowCall :=
  (List.range challenges).flatMap fun challenge => roundCalls challenge 0 ++ roundCalls challenge 1

def Flow.table (f : Flow) : List FlowCall :=
  [.firstPass .tradingagents, .firstPass .aiHedgeFund, .audit] ++ challengeCalls f.challenges

variable {f : Flow} {c : FlowCall} {bound limit : Nat} {r : Reservation} {covers : Reservation → Bool}
  {l : BudgetLimits} {job : Job} {now : Int} {db : Database E}

theorem Flow.mem_table (h : f.allows c) : c ∈ f.table := by
  have hround : ∀ {round : Nat}, round < 2 → round = 0 ∨ round = 1 := by omega
  rcases c with (_ | _) | _ | ⟨challenge, round⟩ | ⟨challenge, round⟩
  · simp [Flow.table]
  · simp [Flow.table]
  · simp [Flow.table]
  · rcases hround h.2 with rfl | rfl <;> simp [Flow.table, challengeCalls, roundCalls, h.1]
  · rcases hround h.2 with rfl | rfl <;> simp [Flow.table, challengeCalls, roundCalls, h.1]

theorem Flow.reserved_append (f : Flow) (p : FlowCall → Bool) (calls calls' : List FlowCall) :
    f.reserved p (calls ++ calls') = f.reserved p calls + f.reserved p calls' := by
  simp [Flow.reserved, filter_append]

theorem Flow.reserved_le_table (f : Flow) (p : FlowCall → Bool) {calls : List FlowCall} (hn : calls.Nodup)
    (hallows : ∀ c ∈ calls, f.allows c) : f.reserved p calls ≤ f.reserved p f.table := by
  have hsub : (calls.filter p).Subperm (f.table.filter p) := by
    refine subperm_of_subset (hn.filter p) fun c hc => ?_
    obtain ⟨hc, hp⟩ := mem_filter.mp hc
    exact mem_filter.mpr ⟨Flow.mem_table (hallows c hc), hp⟩
  obtain ⟨calls', hperm, hsublist⟩ := hsub
  unfold Flow.reserved
  rw [← (hperm.map _).sum_eq]
  exact (hsublist.map _).sum_le_sum fun _ _ => Nat.zero_le _

theorem Flow.reserved_challenges_le (f : Flow) (p : FlowCall → Bool)
    (hround : ∀ challenge round, f.reserved p (roundCalls challenge round) ≤ bound) (challenges : Nat) :
    f.reserved p (challengeCalls challenges) ≤ challenges * 2 * bound := by
  induction challenges with
  | zero => simp [challengeCalls, Flow.reserved]
  | succ challenges ih =>
    have hsucc : challengeCalls (challenges + 1) =
        challengeCalls challenges ++ (roundCalls challenges 0 ++ roundCalls challenges 1) := by
      simp [challengeCalls, range_succ, flatMap_append]
    rw [hsucc, Flow.reserved_append, Flow.reserved_append]
    have hfirst := hround challenges 0
    have hsecond := hround challenges 1
    have hmul : (challenges + 1) * 2 * bound = challenges * 2 * bound + 2 * bound := by ring
    omega

/-! ### What the static check covers -/

def Flow.total (f : Flow) (role : Role) : Nat :=
  f.calls * (role.selection f.selections).size + f.challenges * 2 * role.answerCalls * (role.selection f.selections).size

/-- The checks of `validate_invocation_budgets`, as sums over the roles. -/
structure Flow.Accepted (f : Flow) : Prop where
  job : f.total (.firm .tradingagents) + f.total (.firm .aiHedgeFund) + f.total .crewai ≤
    min (min f.limits.perJob f.limits.perCandidate) f.limits.daily
  agent : ∀ role, f.total role ≤ f.limits.perAgent
  firstPass : f.calls * f.selections.tradingagents.size + f.calls * f.selections.aiHedgeFund.size ≤ f.limits.perStage
  audit : f.calls * f.selections.crewai.size ≤ f.limits.perStage
  correspondence : f.challenges * 2 * (2 * f.selections.tradingagents.size + f.selections.aiHedgeFund.size +
    f.selections.crewai.size) ≤ f.limits.perStage
  model : ∀ entry ∈ f.limits.perModel, ((Role.all.filter fun role =>
      (role.selection f.selections).provider ++ "/" ++ (role.selection f.selections).model = entry.1).map f.total).sum ≤ entry.2

theorem Flow.accepted (h : validateInvocationBudgets f.selections f.calls f.limits f.challenges = .ok ()) : f.Accepted := by
  simp only [validateInvocationBudgets, ok_iff, InferenceSelections.toList, map_cons, map_nil, zipWith_cons_cons,
    zipWith_nil_right, sum_cons, sum_nil, foldl_cons, foldl_nil, take_succ_cons,
    take_zero, getD_cons_succ, getD_cons_zero, zip_cons_cons, zip_nil_right] at h
  obtain ⟨-, ⟨hjob, hagent, hstage⟩, hmodel⟩ := h
  refine ⟨?_, fun role => ?_, ?_, ?_, ?_, fun entry hentry => ?_⟩
  · simp only [Flow.total, Role.selection, Role.answerCalls]
    omega
  · rcases role with (_ | _) | _ <;> simp only [Flow.total, Role.selection, Role.answerCalls] <;> omega
  · omega
  · omega
  · have hsum : f.challenges * 2 * (2 * f.selections.tradingagents.size + f.selections.aiHedgeFund.size +
        f.selections.crewai.size) = f.challenges * 2 * 2 * f.selections.tradingagents.size +
        (f.challenges * 2 * 1 * f.selections.aiHedgeFund.size + (f.challenges * 2 * 1 * f.selections.crewai.size + 0)) := by
      ring
    omega
  · have hlimit := forM_eq_ok.mp hmodel entry hentry
    rw [require_eq_ok] at hlimit
    change (((Role.all.map fun role => (role.selection f.selections, f.total role)).filter fun item =>
      item.1.provider ++ "/" ++ item.1.model = entry.1).map (·.2)).sum ≤ entry.2 at hlimit
    rwa [filter_map, map_map] at hlimit

theorem Role.sum_all (g : Role → Bool) (x : Role → Nat) : ((Role.all.filter g).map x).sum =
    (if g (.firm .tradingagents) then x (.firm .tradingagents) else 0) +
      ((if g (.firm .aiHedgeFund) then x (.firm .aiHedgeFund) else 0) + if g .crewai then x .crewai else 0) := by
  simp only [Role.all, filter_cons, filter_nil]
  split <;> split <;> split <;> simp

theorem Flow.reserved_cons (f : Flow) (p : FlowCall → Bool) (c : FlowCall) (calls : List FlowCall) :
    f.reserved p (c :: calls) = (if p c then (f.request c).maximumTokens else 0) + f.reserved p calls := by
  by_cases hc : p c <;> simp [Flow.reserved, hc]

@[simp] theorem Flow.reserved_nil (f : Flow) (p : FlowCall → Bool) : f.reserved p [] = 0 := rfl

theorem Flow.firstPass_maximum (f : Flow) (firm : NativeFirm) : (f.request (.firstPass firm)).maximumTokens =
    f.calls * ((Role.firm firm).selection f.selections).size := rfl

theorem Flow.audit_maximum (f : Flow) : (f.request .audit).maximumTokens = f.calls * f.selections.crewai.size := rfl

theorem Flow.response_maximum (f : Flow) (challenge round : Nat) : (f.request (.response challenge round)).maximumTokens =
    (f.role (.response challenge round)).answerCalls * ((f.role (.response challenge round)).selection f.selections).size := rfl

theorem Flow.verification_maximum (f : Flow) (challenge round : Nat) :
    (f.request (.verification challenge round)).maximumTokens = 1 * f.selections.crewai.size := rfl

theorem Flow.reserved_roles_le (f : Flow) (g : Role → Bool) :
    f.reserved (fun c => g (f.role c)) f.table ≤ ((Role.all.filter g).map f.total).sum := by
  -- One round takes at most an answer of each role.
  have hround : ∀ challenge round, f.reserved (fun c => g (f.role c)) (roundCalls challenge round) ≤
      ((Role.all.filter g).map fun role => role.answerCalls * (role.selection f.selections).size).sum := by
    intro challenge round
    rw [Role.sum_all, roundCalls, Flow.reserved_cons, Flow.reserved_cons, Flow.reserved_nil, f.response_maximum,
      f.verification_maximum]
    cases hfirm : f.responder challenge round <;> cases htrading : g (.firm .tradingagents) <;>
      cases hhedge : g (.firm .aiHedgeFund) <;> cases hcrew : g .crewai <;>
        simp [Flow.role, Role.answerCalls, Role.selection, hfirm, htrading, hhedge, hcrew]
  have hchallenges := f.reserved_challenges_le _ hround f.challenges
  have hnative : f.reserved (fun c => g (f.role c)) [.firstPass .tradingagents, .firstPass .aiHedgeFund, .audit] =
      ((Role.all.filter g).map fun role => f.calls * (role.selection f.selections).size).sum := by
    rw [Role.sum_all]
    simp only [Flow.reserved_cons, Flow.reserved_nil, Nat.add_zero]
    rfl
  have htotal : ((Role.all.filter g).map f.total).sum =
      ((Role.all.filter g).map fun role => f.calls * (role.selection f.selections).size).sum +
        f.challenges * 2 * ((Role.all.filter g).map fun role => role.answerCalls * (role.selection f.selections).size).sum := by
    rw [← sum_map_mul_left, ← sum_map_add]
    refine congrArg List.sum (map_congr_left fun role _ => ?_)
    rw [Flow.total, Nat.mul_assoc (f.challenges * 2)]
  rw [Flow.table, Flow.reserved_append, hnative, htotal]
  omega

-- No call of a challenge belongs to a stage before the cross-examination.
theorem Flow.reserved_native_le (f : Flow) (stage : String)
    (hnative : f.reserved (fun c => (f.request c).stage = stage)
      [.firstPass .tradingagents, .firstPass .aiHedgeFund, .audit] ≤ bound)
    (hround : stage ≠ "CROSS_EXAMINATION") :
    f.reserved (fun c => (f.request c).stage = stage) f.table ≤ bound := by
  have hnone : ∀ challenge round, f.reserved (fun c => (f.request c).stage = stage) (roundCalls challenge round) ≤ 0 := by
    intro challenge round
    have hresponse : (f.request (.response challenge round)).stage ≠ stage := Ne.symm hround
    have hverification : (f.request (.verification challenge round)).stage ≠ stage := Ne.symm hround
    simp [roundCalls, Flow.reserved_cons, hresponse, hverification]
  have hchallenges := f.reserved_challenges_le _ hnone f.challenges
  rw [Flow.table, Flow.reserved_append]
  omega

theorem Flow.reserved_stage_le (h : f.Accepted) (c : FlowCall) :
    f.reserved (fun c' => (f.request c').stage = (f.request c).stage) f.table ≤ f.limits.perStage := by
  have hfirm : ∀ firm, (f.request (.firstPass firm)).stage = "FIRST_PASS_RESEARCH" := by
    intro firm
    cases firm <;> rfl
  have haudit : (f.request .audit).stage = "CREWAI_AUDIT" := rfl
  have hcross : f.reserved (fun c' => (f.request c').stage = "CROSS_EXAMINATION") f.table ≤ f.limits.perStage := by
    have hround : ∀ challenge round, f.reserved (fun c' => (f.request c').stage = "CROSS_EXAMINATION")
        (roundCalls challenge round) ≤
          2 * f.selections.tradingagents.size + f.selections.aiHedgeFund.size + f.selections.crewai.size := by
      intro challenge round
      have hresponse : (f.request (.response challenge round)).stage = "CROSS_EXAMINATION" := rfl
      have hverification : (f.request (.verification challenge round)).stage = "CROSS_EXAMINATION" := rfl
      simp only [roundCalls, Flow.reserved_cons, Flow.reserved_nil, hresponse, hverification, decide_true, if_true,
        f.response_maximum, f.verification_maximum]
      cases hfirm : f.responder challenge round <;> simp only [Flow.role, hfirm, Role.answerCalls, Role.selection] <;> omega
    have hnative : f.reserved (fun c' => (f.request c').stage = "CROSS_EXAMINATION")
        [.firstPass .tradingagents, .firstPass .aiHedgeFund, .audit] = 0 := by
      simp [Flow.reserved_cons, hfirm, haudit]
    rw [Flow.table, Flow.reserved_append, hnative, Nat.zero_add]
    exact (f.reserved_challenges_le _ hround f.challenges).trans h.correspondence
  cases c with
  | firstPass firm =>
    rw [hfirm]
    refine f.reserved_native_le _ ?_ (by decide)
    have hsum := h.firstPass
    simp [Flow.reserved_cons, hfirm, haudit, f.firstPass_maximum, Role.selection]
    omega
  | audit =>
    rw [haudit]
    refine f.reserved_native_le _ ?_ (by decide)
    have hsum := h.audit
    simp [Flow.reserved_cons, hfirm, haudit, f.audit_maximum]
    omega
  | response challenge round => exact hcross
  | verification challenge round => exact hcross

/-! ### Calls that were made -/

structure Ask where
  stage : String
  agent : String
  provider : String
  model : String
  tokens : Nat

def Reservation.ask (r : Reservation) : Ask := ⟨r.stage, r.agent, r.provider, r.model, r.reservedTokens⟩
def BudgetReservation.ask (q : BudgetReservation) : Ask := ⟨q.stage, q.agent, q.provider, q.model, q.maximumTokens⟩

theorem Reservation.Kept.ask_eq {r' : Reservation} (h : r.Kept r') : r'.ask = r.ask := by
  rcases h with rfl | ⟨-, u, rfl⟩ <;> rfl

def Flow.Made (f : Flow) (made : List FlowCall) (rows : List Reservation) : Prop :=
  (rows.filter fun r => r.jobId = f.jobId).map (·.ask) = made.map fun c => (f.request c).ask

variable {made : List FlowCall} {rows : List Reservation}

section
variable (h : f.Made made rows)
include h

theorem Flow.Made.keeping {rows' : List Reservation}
    (hkeep : Keeping rows rows') : f.Made made rows' := by
  obtain ⟨g, rfl, hg⟩ := hkeep
  have hfilter : (rows.map g).filter (fun r => r.jobId = f.jobId) = (rows.filter fun r => r.jobId = f.jobId).map g := by
    rw [filter_map]
    refine congrArg _ (filter_congr fun r hr => ?_)
    simp only [Function.comp_apply, (hg r hr).jobId_eq]
  rw [Flow.Made, hfilter, map_map, ← h]
  refine map_congr_left fun r hr => ?_
  exact (hg r (mem_filter.mp hr).1).ask_eq

theorem Flow.Made.others {new : List Reservation}
    (hnew : ∀ r ∈ new, r.jobId ≠ f.jobId) : f.Made made (rows ++ new) := by
  have hnone : new.filter (fun r => r.jobId = f.jobId) = [] := by simpa using hnew
  rw [Flow.Made, filter_append, hnone, append_nil]
  exact h

theorem Flow.Made.calls {calls : List FlowCall}
    (job : Job) (now : Int) : f.Made (made ++ calls) (rows ++ (calls.map f.request).map (·.row job now)) := by
  have hall : ((calls.map f.request).map (·.row job now)).filter (fun r => r.jobId = f.jobId) =
      (calls.map f.request).map (·.row job now) := by
    refine filter_eq_self.mpr fun r hr => ?_
    simp only [map_map, mem_map, Function.comp_apply] at hr
    obtain ⟨c, -, rfl⟩ := hr
    exact decide_eq_true (f.request_jobId c)
  rw [Flow.Made, filter_append, hall, map_append, map_append, h, map_map, map_map]
  rfl

variable {q : Ask → Bool}

theorem Flow.Made.charge_le (honest : Honest rows)
    (hcovers : ∀ r ∈ rows, covers r = true → r.jobId = f.jobId ∧ q r.ask = true) :
    charge covers rows ≤ f.reserved (fun c => q (f.request c).ask) made := by
  have hasks : charge covers rows ≤
      ((((rows.filter fun r => r.jobId = f.jobId).map (·.ask)).filter q).map (·.tokens)).sum := by
    clear h
    induction rows with
    | nil => exact Nat.le_refl _
    | cons r rows ih =>
      have hrest := ih (fun r' hr' => honest r' (mem_cons_of_mem _ hr')) fun r' hr' => hcovers r' (mem_cons_of_mem _ hr')
      have hcharged : r.charged ≤ r.reservedTokens := by
        rw [Reservation.charged]
        cases hactual : r.actualTokens with
        | none => exact Nat.le_refl _
        | some n => exact honest r (mem_cons_self ..) n hactual
      rw [charge_cons]
      by_cases hr : covers r = true
      · obtain ⟨hjob, hq⟩ := hcovers r (mem_cons_self ..) hr
        rw [if_pos hr, filter_cons_of_pos (by simpa using hjob), map_cons, filter_cons_of_pos hq,
          map_cons, sum_cons]
        exact Nat.add_le_add hcharged hrest
      · rw [if_neg hr, Nat.zero_add]
        refine hrest.trans ?_
        rw [filter_cons]
        split
        · rw [map_cons, filter_cons]
          split
          · rw [map_cons, sum_cons]
            omega
          · exact Nat.le_refl _
        · exact Nat.le_refl _
  rw [h, filter_map, map_map] at hasks
  exact hasks

theorem Flow.Made.fits
    (honest : Honest rows) (hn : (made ++ [c]).Nodup) (hallows : ∀ c' ∈ made ++ [c], f.allows c')
    (hq : q (f.request c).ask = true) (hcovers : ∀ r ∈ rows, covers r = true → r.jobId = f.jobId ∧ q r.ask = true)
    (hlimit : f.reserved (fun c => q (f.request c).ask) f.table ≤ limit) :
    charge covers rows + (f.request c).maximumTokens ≤ limit := by
  have hcharge := h.charge_le honest hcovers
  have htable := f.reserved_le_table (fun c => q (f.request c).ask) hn hallows
  rw [Flow.reserved_append, Flow.reserved_cons, Flow.reserved_nil, if_pos hq] at htable
  omega

end

/-! ### Every scope has room -/

theorem Role.name_injective {role role' : Role} (h : role.name = role'.name) : role = role' := by
  rcases role with (_ | _) | _ <;> rcases role' with (_ | _) | _ <;> first | rfl | exact absurd h (by decide)

theorem Flow.reserved_all_le (h : f.Accepted) : f.reserved (fun _ => true) f.table ≤
    min (min f.limits.perJob f.limits.perCandidate) f.limits.daily := by
  have hroles := f.reserved_roles_le fun _ => true
  have hjob := h.job
  rw [Role.sum_all] at hroles
  simp only [if_true] at hroles
  exact hroles.trans (by omega)

theorem Flow.reserved_agent_le (h : f.Accepted) (c : FlowCall) :
    f.reserved (fun c' => (f.request c').ask.agent = (f.request c).agent) f.table ≤ f.limits.perAgent := by
  have hroles := f.reserved_roles_le fun role => role = f.role c
  have hpred : (fun c' => decide ((f.request c').ask.agent = (f.request c).agent)) =
      fun c' => decide (f.role c' = f.role c) := by
    funext c'
    have hiff : (f.request c').ask.agent = (f.request c).agent ↔ f.role c' = f.role c := by
      rw [BudgetReservation.ask, f.request_agent, f.request_agent]
      exact ⟨Role.name_injective, fun heq => by rw [heq]⟩
    simp only [hiff]
  rw [hpred]
  refine hroles.trans ?_
  have hone : Role.all.filter (fun role => role = f.role c) = [f.role c] := by
    rcases f.role c with (_ | _) | _ <;> rfl
  rw [hone]
  simpa using h.agent (f.role c)

theorem BudgetLimits.modelLimit_mem {provider model : String}
    (h : l.modelLimit provider model = some limit) : (provider ++ "/" ++ model, limit) ∈ l.perModel := by
  obtain ⟨entry, hentry, rfl⟩ := Option.map_eq_some_iff.mp h
  have hkey : entry.1 = provider ++ "/" ++ model := by simpa using List.find?_some hentry
  rw [← hkey]
  exact mem_reverse.mp (mem_of_find?_eq_some hentry)

theorem Flow.reserved_model_le (h : f.Accepted) (c : FlowCall)
    (hlimit : f.limits.modelLimit (f.request c).provider (f.request c).model = some limit) :
    f.reserved (fun c' => (f.request c').ask.provider = (f.request c).provider ∧
      (f.request c').ask.model = (f.request c).model) f.table ≤ limit := by
  have hpred : (fun c' => decide ((f.request c').ask.provider = (f.request c).provider ∧
      (f.request c').ask.model = (f.request c).model)) = fun c' =>
        decide (((f.role c').selection f.selections).provider = (f.request c).provider ∧
          ((f.role c').selection f.selections).model = (f.request c).model) := by
    funext c'
    rw [BudgetReservation.ask, f.request_provider c', f.request_model c']
  rw [hpred]
  refine (f.reserved_roles_le fun role => (role.selection f.selections).provider = (f.request c).provider ∧
    (role.selection f.selections).model = (f.request c).model).trans ?_
  -- The static check counts every role of the same text `provider/model`.
  refine le_trans ?_ (h.model _ (BudgetLimits.modelLimit_mem hlimit))
  refine ((monotone_filter_right _ fun role hrole => ?_).map _).sum_le_sum fun _ _ => Nat.zero_le _
  obtain ⟨hprovider, hmodel⟩ := of_decide_eq_true hrole
  exact decide_eq_true (by rw [hprovider, hmodel])

theorem Flow.Made.scopes (haccepted : f.Accepted) (h : f.Made made rows) (honest : Honest rows) (hn : (made ++ [c]).Nodup)
    (hallows : ∀ c' ∈ made ++ [c], f.allows c')
    (hothers : ∀ r ∈ rows, r.jobId ≠ f.jobId → r.workspaceId = job.workspaceId → r.createdAt < dayStart now) :
    ∀ S ∈ f.limits.scopes job (f.request c) now, charge S.covers rows + (f.request c).maximumTokens ≤ S.limit := by
  intro S hS
  have hall := f.reserved_all_le haccepted
  have hjob : f.reserved (fun _ => true) f.table ≤ f.limits.perJob := by omega
  have hcandidate : f.reserved (fun _ => true) f.table ≤ f.limits.perCandidate := by omega
  have hdaily : f.reserved (fun _ => true) f.table ≤ f.limits.daily := by omega
  rcases BudgetLimits.mem_scopes.mp hS with rfl | rfl | rfl | rfl | rfl | ⟨limit, hlimit, rfl⟩
  · refine h.fits honest hn hallows (q := fun _ => true) rfl (fun r _ hr => ⟨?_, rfl⟩) hjob
    rw [← f.request_jobId c]
    exact of_decide_eq_true hr
  · refine h.fits honest hn hallows (q := fun _ => true) rfl (fun r _ hr => ⟨?_, rfl⟩) hcandidate
    rw [← f.request_jobId c]
    exact (of_decide_eq_true hr).1
  · refine h.fits honest hn hallows (q := fun a => a.stage = (f.request c).stage) (decide_eq_true rfl) (fun r _ hr => ?_)
      (f.reserved_stage_le haccepted c)
    obtain ⟨hjob, hstage⟩ := of_decide_eq_true hr
    exact ⟨hjob.trans (f.request_jobId c), decide_eq_true hstage⟩
  · refine h.fits honest hn hallows (q := fun a => a.agent = (f.request c).agent) (decide_eq_true rfl) (fun r _ hr => ?_)
      (f.reserved_agent_le haccepted c)
    obtain ⟨hjob, hagent⟩ := of_decide_eq_true hr
    exact ⟨hjob.trans (f.request_jobId c), decide_eq_true hagent⟩
  · refine h.fits honest hn hallows (q := fun _ => true) rfl (fun r hr hcovers => ⟨?_, rfl⟩) hdaily
    obtain ⟨hworkspace, hday⟩ := of_decide_eq_true hcovers
    by_contra hjob
    have hbefore := hothers r hr hjob hworkspace
    omega
  · refine h.fits honest hn hallows
      (q := fun a => a.provider = (f.request c).provider ∧ a.model = (f.request c).model) (decide_eq_true ⟨rfl, rfl⟩)
      (fun r _ hr => ?_) (f.reserved_model_le haccepted c hlimit)
    obtain ⟨hjob, hmodel⟩ := of_decide_eq_true hr
    exact ⟨hjob.trans (f.request_jobId c), decide_eq_true hmodel⟩

theorem reserve_of_fits {q : BudgetReservation}
    (hjob : q.maximumTokens ≤ l.perJob) (hadmission : db.admission? q.jobId = none)
    (hfits : ∀ S ∈ l.scopes job q now, charge S.covers db.reservations + q.maximumTokens ≤ S.limit) :
    (db.reservation? q.reservationId = none ∧
      reserve db l job now q = .ok { db with reservations := db.reservations ++ [q.row job now] }) ∨
    (db.reservation? q.reservationId).isSome ∧ ∃ e, reserve db l job now q = .error e ∧ e ≠ .value "TOKEN_BUDGET_EXCEEDED" := by
  have hrequire : require (q.maximumTokens ≤ l.perJob) (Err.value "TOKEN_BUDGET_EXCEEDED") = .ok () := require_eq_ok.mpr hjob
  have hscopes : (l.scopes job q now).forM (Money.fits db.reservations q) = .ok () :=
    forM_eq_ok.mpr fun S hS => require_eq_ok.mpr (hfits S hS)
  unfold reserve
  rw [hrequire]
  cases hrow : db.reservation? q.reservationId with
  | none =>
    refine .inl ⟨rfl, ?_⟩
    simp only [checkAdmission, hadmission, hscopes]
    rfl
  | some row =>
    refine .inr ⟨rfl, ?_⟩
    by_cases hrepeats : q.repeats job row
    · exact ⟨.value "BUDGET_INVOCATION_ALREADY_RESERVED", by simp only [if_pos hrepeats]; rfl, by decide⟩
    · exact ⟨.value "BUDGET_IDEMPOTENCY_CONFLICT", by simp only [if_neg hrepeats]; rfl, by decide⟩

theorem Honest.append (h : Honest rows) (hr : r.actualTokens = none) : Honest (rows ++ [r]) := by
  intro r' hr' n hn
  rcases mem_append.mp hr' with hr' | hr'
  · exact h r' hr' n hn
  · rw [mem_singleton.mp hr', hr] at hn
    cases hn

theorem Flow.Made.batch (haccepted : f.Accepted) : ∀ (calls made : List FlowCall)
    (db : Database E), f.Made made db.reservations → Honest db.reservations → (made ++ calls).Nodup →
      (∀ c ∈ made ++ calls, f.allows c) → db.admission? f.jobId = none →
      (∀ r ∈ db.reservations, r.jobId ≠ f.jobId → r.workspaceId = job.workspaceId → r.createdAt < dayStart now) →
      ((calls.map f.request).foldlM (fun db q => reserve db f.limits job now q) db ≠ .error (.value "TOKEN_BUDGET_EXCEEDED")) ∧
      ((∀ c ∈ calls, db.reservation? (f.request c).reservationId = none) →
        (calls.map fun c => (f.request c).reservationId).Nodup →
        ∃ db', (calls.map f.request).foldlM (fun db q => reserve db f.limits job now q) db = .ok db')
  | [], _, db, _, _, _, _, _, _ => ⟨nofun, fun _ _ => ⟨db, rfl⟩⟩
  | c :: calls, made, db, hmade, honest, hn, hallows, hadmission, hothers => by
    have hcons : made ++ c :: calls = (made ++ [c]) ++ calls := by simp
    rw [hcons] at hn hallows
    have hfirst : (made ++ [c]).Nodup := hn.of_append_left
    have hfits := hmade.scopes haccepted honest hfirst (fun c' hc' => hallows c' (mem_append_left _ hc')) hothers
    have hjob : (f.request c).maximumTokens ≤ f.limits.perJob := by
      have hscope := hfits _ (BudgetLimits.mem_scopes.mpr (.inl rfl))
      exact (Nat.le_add_left _ _).trans hscope
    rw [map_cons, foldlM_cons]
    rcases reserve_of_fits hjob (by rw [f.request_jobId]; exact hadmission) hfits with ⟨-, hok⟩ | ⟨hsome, e, herror, hne⟩
    · have hmade' : f.Made (made ++ [c]) (db.reservations ++ [(f.request c).row job now]) := hmade.calls job now
      have hothers' : ∀ r ∈ db.reservations ++ [(f.request c).row job now], r.jobId ≠ f.jobId →
          r.workspaceId = job.workspaceId → r.createdAt < dayStart now := by
        intro r hr hother hworkspace
        rcases Rows.mem_snoc.mp hr with hr | rfl
        · exact hothers r hr hother hworkspace
        · exact absurd (f.request_jobId c) hother
      have hrest := Flow.Made.batch haccepted calls (made ++ [c])
        { db with reservations := db.reservations ++ [(f.request c).row job now] } hmade' (honest.append rfl) hn hallows
        hadmission hothers'
      rw [hok]
      refine ⟨hrest.1, fun hfresh hids => hrest.2 (fun c' hc' => ?_) (nodup_cons.mp hids).2⟩
      have hold := hfresh c' (mem_cons_of_mem _ hc')
      have hdistinct : (f.request c).reservationId ≠ (f.request c').reservationId := fun heq =>
        (nodup_cons.mp hids).1 (mem_map.mpr ⟨c', hc', heq.symm⟩)
      have hfree : Rows.get? Reservation.id db.reservations ((f.request c).row job now).id = none :=
        hfresh c (mem_cons_self ..)
      rw [Database.reservation?, Rows.get?_append_singleton hfree]
      exact (if_neg hdistinct).trans hold
    · rw [herror]
      refine ⟨fun heq => hne (Except.error.inj heq), fun hfresh => ?_⟩
      rw [hfresh c (mem_cons_self ..)] at hsome
      cases hsome

/-! ### Runs -/

/-- What happens while a job runs: a reservation of calls of its flow, or any other operation. -/
inductive FlowEvent (Doc : Type) where
  | reserve (h : Handle) (r : Reads) (now : Int) (calls : List FlowCall)
  | other (op : Op Doc)

def FlowEvent.op (f : Flow) : FlowEvent Doc → Op Doc
  | .reserve h r now calls => .reserveMany h f.limits r now (calls.map f.request)
  | .other op => op

def FlowEvent.calls : FlowEvent Doc → List FlowCall
  | .reserve _ _ _ calls => calls
  | .other _ => []

def FlowEvent.fair (f : Flow) : FlowEvent Doc → Prop
  | .other (.reserveMany _ _ _ _ requests) => ∀ q ∈ requests, q.jobId ≠ f.jobId
  | _ => True

section
variable [DecidableEq Doc]

theorem Flow.Made.move {f : Flow} {op : Op Doc} (hfair : (FlowEvent.other op).fair f) {s t : System E} (hm : Move op s t)
    (htables : Tables s) (h : f.Made made s.db.reservations) : f.Made made t.db.reservations := by
  rcases hm.booked htables.reservations with ⟨handle, l, r, now, requests, rfl, hok⟩ | hkeep
  · cases requests with
    | nil =>
      have hsame : s.db = t.db := Except.ok.inj hok
      exact hsame ▸ h
    | cons q rest =>
      obtain ⟨job, -, -, hfold⟩ := reserveMany_ok hok
      rw [(batch_ok hfold).1]
      refine h.others fun r hr => ?_
      obtain ⟨q', hq', rfl⟩ := mem_map.mp hr
      exact hfair q' hq'
  · exact h.keeping hkeep

theorem after_made (f : Flow) (events : List (FlowEvent Doc)) (hfair : ∀ e ∈ events, e.fair f) :
    ∃ made, made.Sublist (events.flatMap (·.calls)) ∧ f.Made made (after E (events.map (·.op f))).db.reservations := by
  induction events using List.reverseRecOn with
  | nil => exact ⟨[], List.Sublist.refl _, rfl⟩
  | append_singleton events e ih =>
    obtain ⟨made, hsub, hmade⟩ := ih fun e' he' => hfair e' (mem_append_left _ he')
    have hfair' := hfair e (by simp)
    rw [flatMap_append, map_append, after_append]
    have hkept : made.Sublist (events.flatMap (·.calls) ++ [e].flatMap (·.calls)) := hsub.trans (sublist_append_left _ _)
    cases e with
    | reserve h r now calls =>
      rcases next_reserveMany (after E (events.map (·.op f))) h f.limits r now (calls.map f.request) with
        hsame | ⟨job, hnext, -⟩
      · refine ⟨made, hkept, ?_⟩
        change f.Made made (Runs.next step _ (.reserveMany h f.limits r now (calls.map f.request))).db.reservations
        rw [hsame]
        exact hmade
      · refine ⟨made ++ calls, by rw [flatMap_singleton]; exact hsub.append_right calls, ?_⟩
        change f.Made _ (Runs.next step _ (.reserveMany h f.limits r now (calls.map f.request))).db.reservations
        rw [hnext]
        exact hmade.calls job now
    | other op =>
      refine ⟨made, hkept, ?_⟩
      have hboth : Tables (Runs.run step (after E (events.map (·.op f))) [op]) ∧
          f.Made made (Runs.run step (after E (events.map (·.op f))) [op]).db.reservations := by
        refine run_moves_inv_of (P := fun s => Tables s ∧ f.Made made s.db.reservations)
          (Q := fun op => (FlowEvent.other op).fair f) (fun op s t hop hs hm => ?_) [op] (by simpa using hfair')
          ⟨after_tables _, hmade⟩
        exact ⟨hs.1.move hm, hs.2.move hop hm hs.1⟩
      exact hboth.2

end

theorem budgetJob_not_exceeded {h : Handle} {jobId : String} {r : Reads} :
    budgetJob db h jobId r ≠ .error (.value "TOKEN_BUDGET_EXCEEDED") := by
  unfold budgetJob owned
  split <;> simp [bind_eq_error, pure, Except.pure]

/-- Under a configuration that passes the static check, no reservation of a first attempt is refused for its tokens. -/
theorem static_check_admits [DecidableEq Doc] (f : Flow)
    (haccepts : validateInvocationBudgets f.selections f.calls f.limits f.challenges = .ok ())
    (events : List (FlowEvent Doc)) (hfair : ∀ e ∈ events, e.fair f) (h : Handle) (r : Reads) (now : Int)
    (calls : List FlowCall) (hdistinct : (events.flatMap (·.calls) ++ calls).Nodup)
    (hallows : ∀ c ∈ events.flatMap (·.calls) ++ calls, f.allows c)
    (hadmission : (after E (events.map (·.op f))).db.admission? f.jobId = none)
    (honest : ∀ row ∈ (after E (events.map (·.op f))).db.reservations, ∀ n, row.actualTokens = some n →
      n ≤ row.reservedTokens)
    (hquiet : ∀ job, (after E (events.map (·.op f))).db.job? f.jobId = some job →
      ∀ row ∈ (after E (events.map (·.op f))).db.reservations, row.jobId ≠ f.jobId →
        row.workspaceId = job.workspaceId → row.createdAt < dayStart now) :
    reserveMany (after E (events.map (·.op f))).db h f.limits r now (calls.map f.request) ≠
      .error (.value "TOKEN_BUDGET_EXCEEDED") ∧
    ∀ job, budgetJob (after E (events.map (·.op f))).db h f.jobId r = .ok job →
      (∀ c ∈ calls, (after E (events.map (·.op f))).db.reservation? (f.request c).reservationId = none) →
      (calls.map fun c => (f.request c).reservationId).Nodup →
      ∃ db, reserveMany (after E (events.map (·.op f))).db h f.limits r now (calls.map f.request) = .ok db := by
  obtain ⟨made, hsub, hmade⟩ := after_made f events hfair
  generalize (after E (events.map (·.op f))).db = db at *
  have hdistinct' : (made ++ calls).Nodup := (hsub.append_right calls).nodup hdistinct
  have hallows' : ∀ c ∈ made ++ calls, f.allows c := fun c hc => hallows c ((hsub.append_right calls).subset hc)
  have hbatch := fun job hjob => Flow.Made.batch (Flow.accepted haccepts) calls made db hmade honest hdistinct' hallows'
    hadmission (hquiet job hjob)
  cases calls with
  | nil => exact ⟨by simp [reserveMany], fun _ _ _ _ => ⟨db, rfl⟩⟩
  | cons c rest =>
    have hsame : require (∀ q' ∈ rest.map f.request, q'.jobId = (f.request c).jobId) (Err.value "BUDGET_BATCH_JOB_MISMATCH") =
        .ok () := by
      rw [require_eq_ok]
      intro q' hq'
      obtain ⟨c', -, rfl⟩ := mem_map.mp hq'
      rw [f.request_jobId, f.request_jobId]
    rw [map_cons, reserveMany, hsame, f.request_jobId]
    cases hjob : budgetJob db h f.jobId r with
    | error e =>
      refine ⟨fun heq => budgetJob_not_exceeded (hjob.trans ?_), fun job hok => (by cases hok)⟩
      exact congrArg _ (Except.error.inj heq)
    | ok job =>
      obtain ⟨hne, hok⟩ := hbatch job (budgetJob_ok hjob).1
      exact ⟨hne, fun _ _ => hok⟩

def smallFlow : Flow where
  selections := {
    tradingagents := { provider := "provider", model := "model", maxOutputTokens := 256, maximumPromptBytes := 1000 }
    aiHedgeFund := { provider := "provider", model := "model", maxOutputTokens := 256, maximumPromptBytes := 1000 }
    crewai := { provider := "provider", model := "other", maxOutputTokens := 256, maximumPromptBytes := 1000 } }
  calls := 4
  limits := { perModel := [("provider/model", 40000)] }
  challenges := 1
  jobId := "job"
  attempt := 1
  responder _ _ := .tradingagents
  identity
    | .response _ round => "response-" ++ toString round
    | .verification _ round => "verification-" ++ toString round
    | _ => ""

def smallRun : List (FlowEvent Document) :=
  firstAttempt.map .other ++ [.reserve firstHolder { lease := 1, deadline := 1 } 1
      [.firstPass .tradingagents, .firstPass .aiHedgeFund],
    .other (.settle firstHolder { lease := 1, deadline := 1 } "job:1:tradingagents"
      { inputTokens := some 9000, outputTokens := some 1 }),
    .reserve firstHolder { lease := 2, deadline := 2 } 2 [.audit]]

theorem smallRun_admits_answer : ∃ db, reserveMany (after plainEnv (smallRun.map (·.op smallFlow))).db firstHolder
    smallFlow.limits { lease := 3, deadline := 3 } 3 ([FlowCall.response 0 0].map smallFlow.request) = .ok db := by
  have hrows : (after plainEnv (smallRun.map (·.op smallFlow))).db.reservations.map
      (fun r => (r.jobId, r.actualTokens, r.reservedTokens)) =
      [("job", some 9001, 9120), ("job", none, 9120), ("job", none, 9120)] := by decide +kernel
  have hrow : ∀ row ∈ (after plainEnv (smallRun.map (·.op smallFlow))).db.reservations, row.jobId = "job" ∧
      ∀ n, row.actualTokens = some n → n ≤ row.reservedTokens := by
    intro row hrow
    have hmem := mem_map_of_mem (f := fun r : Reservation => (r.jobId, r.actualTokens, r.reservedTokens)) hrow
    rw [hrows] at hmem
    simp only [mem_cons, not_mem_nil, or_false, Prod.mk.injEq] at hmem
    rcases hmem with ⟨hjob, hactual, hreserved⟩ | ⟨hjob, hactual, -⟩ | ⟨hjob, hactual, -⟩
    · refine ⟨hjob, fun n hn => ?_⟩
      rw [hactual] at hn
      cases hn
      rw [hreserved]
      decide
    all_goals
      refine ⟨hjob, fun n hn => ?_⟩
      rw [hactual] at hn
      cases hn
  have hheld : (budgetJob (after plainEnv (smallRun.map (·.op smallFlow))).db firstHolder "job"
      { lease := 3, deadline := 3 }).isOk = true := by decide +kernel
  cases hjob : budgetJob (after plainEnv (smallRun.map (·.op smallFlow))).db firstHolder "job"
      { lease := 3, deadline := 3 } with
  | error e =>
    rw [hjob] at hheld
    cases hheld
  | ok job =>
    refine (static_check_admits smallFlow (by decide +kernel) smallRun ?_ firstHolder { lease := 3, deadline := 3 } 3
      [.response 0 0] (by decide) ?_ (by decide +kernel) (fun row h => (hrow row h).2)
      fun _ _ row h hother => absurd (hrow row h).1 hother).2 job hjob ?_ (by decide)
    · simp [smallRun, firstAttempt, FlowEvent.fair]
    · simp [smallRun, firstAttempt, FlowEvent.calls, Flow.allows, smallFlow]
    · intro c hc
      obtain rfl : c = .response 0 0 := mem_singleton.mp hc
      decide +kernel

end Money
