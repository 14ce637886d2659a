import Mathlib.Data.List.Nodup
import Money.Checkout

/-! Checkout keys identify one request, as long as no key opens a second window and no request is sent after its window.
    The row describes the last window. -/

namespace Money
open Checked List

/-! ### Steps -/

def CheckoutRow.stored (row : CheckoutRow) : Option String × Option String × Option Int × Option Parameters :=
  (row.checkoutKey, row.checkoutPlan, row.checkoutUntil, row.checkoutPayload)

def CheckoutPhase.From (windows : List CheckoutWindow) : CheckoutPhase → Prop
  | reserved plan key until_ parameters => ⟨key, plan, until_, parameters⟩ ∈ windows
  | answered plan key until_ _ => ∃ parameters, ⟨key, plan, until_, parameters⟩ ∈ windows
  | _ => True

theorem CheckoutPhase.From.append {windows new : List CheckoutWindow} {phase : CheckoutPhase} (h : phase.From windows) :
    phase.From (windows ++ new) := by
  cases phase with
  | reserved => exact mem_append_left _ h
  | answered => exact h.imp fun _ => mem_append_left _
  | _ => trivial

namespace CheckoutSystem
variable {c : CheckoutSettings} {s t : CheckoutSystem}

/-- What each operation can do: move a call on, join or open a window, or send a request of one. -/
inductive Move (c : CheckoutSettings) (s : CheckoutSystem) : CheckoutOp → CheckoutSystem → Prop
  | tick (elapsed : Nat) : Move c s (.tick elapsed) { s with clock := s.clock + elapsed }
  | arrive (plan key : String) : Move c s (.arrive plan key) { s with calls := s.calls ++ [.arrived plan key] }
  /-- A call moves on outside of any window. -/
  | quiet {op : CheckoutOp} {i : Nat} {phase : CheckoutPhase} {row : CheckoutRow} (outside : ∀ windows, phase.From windows)
      (same : row.stored = s.row.stored) : Move c s op { s.setCall i phase with row }
  | joined {i : Nat} {denied : Option Err} {elapsed : Nat} {plan key : String} {until_ : Int} {parameters : Parameters}
      (stored : s.row.stored = (some key, some plan, some until_, some parameters)) :
    Move c s (.reserve i denied elapsed) (s.setCall i (.reserved plan key until_ parameters))
  | opened {i : Nat} {denied : Option Err} {elapsed : Nat} {plan key customer price : String}
      (hi : s.calls[i]? = some (.linked plan key customer)) (lapsed : ¬ s.row.pending s.clock)
      (other : s.row.checkoutKey ≠ some key) :
    Move c s (.reserve i denied elapsed)
      ({ s with clock := s.clock + elapsed }.opened i (window c plan key customer price (s.clock + elapsed)))
  | sent {i : Nat} {url : Except Err String} {plan key : String} {until_ : Int} {parameters : Parameters}
      {phase : CheckoutPhase} (hi : s.calls[i]? = some (.reserved plan key until_ parameters))
      (from_ : ∀ windows, ⟨key, plan, until_, parameters⟩ ∈ windows → phase.From windows) :
    Move c s (.send i url) { s.setCall i phase with requests := s.requests ++ [{
      idempotencyKey := idempotencyKey c key, parameters
      window := if s.row.pending s.clock then some s.windows.length else none }] }
  | recorded {i : Nat} {plan key url : String} {until_ : Int} (hi : s.calls[i]? = some (.answered plan key until_ url))
      (key_ : s.row.checkoutKey = some key) (plan_ : s.row.checkoutPlan = some plan) :
    Move c s (.record i) { s.setCall i (.ended (.ok url)) with
      row := { s.row with
        checkoutKey := some key, checkoutPlan := some plan, checkoutUrl := some url, checkoutUntil := some until_ } }
  | observed (subscriptionId : Option String) (status : SubscriptionStatus) :
    Move c s (.observe subscriptionId status) { s with row := { s.row with subscriptionId, status } }

variable {i : Nat} {denied : Option Err} {elapsed : Nat} {key plan : String} {op : CheckoutOp} {until_ : Int}
  {parameters : Parameters} {w : CheckoutWindow} {phase : CheckoutPhase}

theorem link_move {customer : Except Err String} (h : s.link i denied customer = .ok t) :
    Move c s (.link i denied customer) t := by
  unfold link at h
  split at h
  · obtain rfl := pure_eq_ok.mp h
    exact .quiet (fun _ => trivial) rfl
  · split at h
    · obtain rfl := pure_eq_ok.mp h
      exact .quiet (fun _ => trivial) rfl
    · obtain rfl := pure_eq_ok.mp h
      exact .quiet (fun _ => trivial) rfl
    · split at h
      · obtain rfl := pure_eq_ok.mp h
        exact .quiet (fun _ => trivial) rfl
      · obtain rfl := pure_eq_ok.mp h
        exact .quiet (fun _ => trivial) rfl
  · cases h

theorem join_move : Move c s (.reserve i denied elapsed) (s.join i plan) := by
  unfold join
  split
  · exact .quiet (fun _ => trivial) rfl
  next plan_ =>
    split
    · exact .quiet (fun _ => trivial) rfl
    next key until_ stored _ hkey huntil hstored =>
      refine .joined ?_
      rw [CheckoutRow.stored, hkey, huntil, hstored, not_ne_iff.mp plan_]
    · exact .quiet (fun _ => trivial) rfl

theorem reserve_move (h : s.reserve c i denied elapsed = .ok t) : Move c s (.reserve i denied elapsed) t := by
  unfold reserve at h
  split at h
  next plan key customer hi =>
    split at h
    · obtain rfl := pure_eq_ok.mp h
      exact .quiet (fun _ => trivial) rfl
    · obtain rfl := pure_eq_ok.mp h
      exact .quiet (fun _ => trivial) rfl
    · split at h
      · obtain rfl := pure_eq_ok.mp h
        exact .quiet (fun _ => trivial) rfl
      · split at h
        · obtain rfl := pure_eq_ok.mp h
          exact join_move
        next lapsed =>
          split at h
          · obtain rfl := pure_eq_ok.mp h
            exact .quiet (fun _ => trivial) rfl
          next other =>
            obtain rfl := pure_eq_ok.mp h
            exact .opened hi lapsed other
  · cases h

theorem send_move {url : Except Err String} (h : s.send c i url = .ok t) : Move c s (.send i url) t := by
  unfold send at h
  split at h
  next plan key until_ parameters hi =>
    cases url with
    | ok url =>
      obtain rfl := pure_eq_ok.mp h
      exact .sent hi fun windows member => ⟨parameters, member⟩
    | error e =>
      obtain rfl := pure_eq_ok.mp h
      exact .sent hi fun windows member => trivial
  · cases h

theorem record_move (h : s.record i = .ok t) : Move c s (.record i) t := by
  unfold record at h
  split at h
  next plan key until_ url hi =>
    split at h
    · obtain rfl := pure_eq_ok.mp h
      exact .quiet (fun _ => trivial) rfl
    next same =>
      obtain rfl := pure_eq_ok.mp h
      simp only [not_or, not_ne_iff] at same
      exact .recorded hi same.1 same.2
  · cases h

theorem step_move (h : step c s op = .ok t) : Move c s op t := by
  cases op with
  | tick elapsed =>
    cases h
    exact .tick elapsed
  | arrive plan key =>
    cases h
    exact .arrive plan key
  | link i denied customer => exact link_move h
  | reserve i denied elapsed => exact reserve_move h
  | send i url => exact send_move h
  | record i => exact record_move h
  | observe subscriptionId status =>
    cases h
    exact .observed subscriptionId status

/-! ### Windows -/

/-- A request was made of a window, and while a window was pending, of that one. -/
def Made (c : CheckoutSettings) (windows : List CheckoutWindow) (r : CheckoutRequest) : Prop :=
  ∃ i w, windows[i]? = some w ∧ r.idempotencyKey = idempotencyKey c w.key ∧ r.parameters = w.parameters ∧
    ∀ n ∈ r.window, n = i + 1

/-- What holds as long as every window has a key of its own and every request is sent in time. -/
structure Kept (c : CheckoutSettings) (s : CheckoutSystem) : Prop where
  keys : (s.windows.map (·.key)).Nodup
  lapsed : ∀ i w, s.windows[i]? = some w → i + 1 < s.windows.length → w.until_ ≤ s.clock
  row : s.row.stored = (s.windows.getLast?.map (·.key), s.windows.getLast?.map (·.plan),
    s.windows.getLast?.map (·.until_), s.windows.getLast?.map (·.parameters))
  calls : ∀ phase ∈ s.calls, phase.From s.windows
  requests : ∀ r ∈ s.requests, Made c s.windows r

def opening? (s : CheckoutSystem) (i : Nat) : Option String :=
  match s.calls[i]? with
  | some (.linked _ key _) => if s.row.pending s.clock ∨ s.row.checkoutKey = some key then none else some key
  | _ => none

def deadline? (s : CheckoutSystem) (i : Nat) : Option Int :=
  match s.calls[i]? with
  | some (.reserved _ _ until_ _) => some until_
  | _ => none

/-- The step opens no window with the key of an earlier one, and sends no request after the end of its window. -/
def Timely (s : CheckoutSystem) : CheckoutOp → Prop
  | .reserve i _ _ => ∀ key ∈ s.opening? i, key ∉ s.windows.map (·.key)
  | .send i _ => ∀ until_ ∈ s.deadline? i, s.clock < until_
  | _ => True

instance (s : CheckoutSystem) : ∀ op, Decidable (s.Timely op)
  | .reserve i _ _ => inferInstanceAs (Decidable (∀ key ∈ s.opening? i, _))
  | .send i _ => inferInstanceAs (Decidable (∀ until_ ∈ s.deadline? i, _))
  | .tick _ | .arrive _ _ | .link _ _ _ | .record _ | .observe _ _ => .isTrue trivial

theorem Made.append {windows new : List CheckoutWindow} {r : CheckoutRequest} (h : Made c windows r) :
    Made c (windows ++ new) r := by
  obtain ⟨i, w, hi, rest⟩ := h
  have bound : i < windows.length := (List.getElem?_eq_some_iff.mp hi).1
  exact ⟨i, w, by rw [List.getElem?_append_left bound]; exact hi, rest⟩

section
variable (hs : Kept c s)
include hs

theorem Kept.last (stored : s.row.stored = (some key, some plan, some until_, some parameters)) :
    s.windows.getLast? = some ⟨key, plan, until_, parameters⟩ := by
  rw [hs.row] at stored
  cases last : s.windows.getLast? with
  | none => simp [last] at stored
  | some w =>
    simp only [last, Option.map_some, Prod.mk.injEq, Option.some.injEq] at stored
    obtain ⟨rfl, rfl, rfl, rfl⟩ := stored
    rfl

theorem Kept.last_of_lt (hi : s.windows[i]? = some w)
    (open_ : s.clock < w.until_) : i + 1 = s.windows.length := by
  have bound : i < s.windows.length := (List.getElem?_eq_some_iff.mp hi).1
  by_contra earlier
  exact absurd (hs.lapsed i w hi (by omega)) (not_le.mpr open_)

theorem Kept.eq_of_key {w' : CheckoutWindow} (hw : w ∈ s.windows) (hw' : w' ∈ s.windows)
    (same : w.key = w'.key) : w = w' :=
  inj_on_of_nodup_map hs.keys hw hw' same

theorem Kept.setCall (from_ : phase.From s.windows) : ∀ p ∈ (s.setCall i phase).calls, p.From s.windows := by
  intro p member
  rcases mem_or_eq_of_mem_set member with old | rfl
  · exact hs.calls p old
  · exact from_

theorem Kept.opened (lapsed : ¬ s.row.pending s.clock)
    (fresh : w.key ∉ s.windows.map (·.key)) : Kept c ({ s with clock := s.clock + elapsed }.opened i w) where
  keys := by
    simp only [CheckoutSystem.opened, map_append, map_cons, map_nil]
    refine nodup_append.mpr ⟨hs.keys, nodup_singleton _, fun a ha b hb same => fresh ?_⟩
    rw [← mem_singleton.mp hb, ← same]
    exact ha
  lapsed := by
    intro j w' hj bound
    have later : s.clock ≤ s.clock + elapsed := by omega
    simp only [CheckoutSystem.opened, length_append, length_singleton] at bound
    have old : s.windows[j]? = some w' := by
      simpa [CheckoutSystem.opened, List.getElem?_append_left (show j < s.windows.length by omega)] using hj
    by_cases earlier : j + 1 < s.windows.length
    · exact (hs.lapsed j w' old earlier).trans later
    · -- the last window so far is over, for the row describes it
      have last : s.windows.getLast? = some w' := by
        rw [List.getLast?_eq_getElem?, ← old]
        congr 1
        omega
      have until_ : s.row.checkoutUntil = some w'.until_ := by
        have stored := congrArg (·.2.2.1) hs.row
        simpa [CheckoutRow.stored, last] using stored
      have ended : ¬ s.clock < w'.until_ := fun open_ => lapsed ⟨_, until_, open_⟩
      exact (not_lt.mp ended).trans later
  row := by simp [CheckoutSystem.opened, CheckoutRow.stored]
  calls := by
    intro p member
    rcases mem_or_eq_of_mem_set member with old | rfl
    · exact (hs.calls p old).append
    · exact mem_append_right _ (mem_singleton_self _)
  requests := fun r member => (hs.requests r member).append

theorem Kept.sent (hi : s.calls[i]? = some (.reserved plan key until_ parameters))
    (from_ : phase.From s.windows) (open_ : s.clock < until_) : Kept c { s.setCall i phase with requests := s.requests ++ [{
      idempotencyKey := idempotencyKey c key, parameters
      window := if s.row.pending s.clock then some s.windows.length else none }] } where
  keys := hs.keys
  lapsed := hs.lapsed
  row := hs.row
  calls := hs.setCall from_
  requests := by
    intro r member
    rcases Rows.mem_snoc.mp member with old | rfl
    · exact hs.requests r old
    · obtain ⟨j, hj⟩ := mem_iff_getElem?.mp (hs.calls _ (mem_of_getElem? hi))
      refine ⟨j, _, hj, rfl, rfl, fun n pending => ?_⟩
      simp only [Option.mem_def, Option.ite_none_right_eq_some, Option.some.injEq] at pending
      have last := hs.last_of_lt hj open_
      omega

theorem Kept.recorded {url : String}
    (hi : s.calls[i]? = some (.answered plan key until_ url)) (key_ : s.row.checkoutKey = some key) :
    Kept c { s.setCall i (.ended (.ok url)) with row := { s.row with
        checkoutKey := some key, checkoutPlan := some plan, checkoutUrl := some url, checkoutUntil := some until_ } } where
  keys := hs.keys
  lapsed := hs.lapsed
  row := by
    -- the key of the row is the one of the last window, and no other window has it
    obtain ⟨parameters, member⟩ := hs.calls _ (mem_of_getElem? hi)
    have stored := hs.row
    cases last : s.windows.getLast? with
    | none => simp [CheckoutRow.stored, last, key_] at stored
    | some w =>
      simp only [CheckoutRow.stored, last, Option.map_some, Prod.mk.injEq, key_, Option.some.injEq] at stored
      obtain ⟨same, -, -, payload⟩ := stored
      obtain rfl := hs.eq_of_key member (mem_of_getLast? last) same
      simp [CheckoutRow.stored, CheckoutSystem.setCall, last, payload]
  calls := hs.setCall trivial
  requests := hs.requests

end

theorem step_kept (timely : s.Timely op) (hs : Kept c s) (h : step c s op = .ok t) : Kept c t := by
  cases step_move h with
  | tick elapsed =>
    exact { hs with lapsed := fun i w hi bound => (hs.lapsed i w hi bound).trans (by simp) }
  | arrive plan key =>
    refine { hs with calls := fun phase member => ?_ }
    rcases Rows.mem_snoc.mp member with old | rfl
    · exact hs.calls phase old
    · trivial
  | quiet outside same =>
    exact { hs with row := same.trans hs.row, calls := hs.setCall (outside _) }
  | joined stored =>
    exact { hs with calls := hs.setCall (mem_of_getLast? (hs.last stored)) }
  | @opened i denied elapsed plan key customer price hi lapsed other =>
    refine hs.opened lapsed (timely key ?_)
    simp only [opening?, hi, lapsed, other, or_self, if_false, Option.mem_def]
  | sent hi from_ =>
    refine hs.sent hi (from_ _ (hs.calls _ (mem_of_getElem? hi))) (timely _ ?_)
    simp only [deadline?, hi, Option.mem_def]
  | recorded hi key_ plan_ => exact hs.recorded hi key_
  | observed subscriptionId status => exact { hs with row := hs.row }

theorem idempotencyKey_injective {key' : String} (same : idempotencyKey c key = idempotencyKey c key') : key = key' := by
  have chars := congrArg String.toList same
  simp only [idempotencyKey, String.toList_append] at chars
  exact String.toList_injective (append_cancel_left chars)

end CheckoutSystem

open CheckoutSystem in
/-- As long as no key opens a second window and no request is sent after its window, requests with one key have the same
    parameters, and requests in one window the same key. -/
theorem checkout_keys_identify_requests (c : CheckoutSettings) (start : Int) (ops : List CheckoutOp)
    (timely : Runs.Along (CheckoutSystem.step c) Timely { clock := start } ops) :
    ∀ a ∈ (after c start ops).requests, ∀ b ∈ (after c start ops).requests,
      (a.idempotencyKey = b.idempotencyKey → a.parameters = b.parameters) ∧
      ∀ n, a.window = some n → b.window = some n → a.idempotencyKey = b.idempotencyKey ∧ a.parameters = b.parameters := by
  have kept : Kept c (after c start ops) := by
    refine Runs.run_inv_along (fun _ _ _ timely hs h => step_kept timely hs h) ops timely ?_
    exact {
      keys := nodup_nil
      lapsed := fun i w hi => by simp at hi
      row := rfl
      calls := fun _ member => by cases member
      requests := fun _ member => by cases member }
  intro a ha b hb
  obtain ⟨i, w, hi, keyA, parametersA, windowA⟩ := kept.requests a ha
  obtain ⟨j, w', hj, keyB, parametersB, windowB⟩ := kept.requests b hb
  constructor
  · intro same
    rw [keyA, keyB] at same
    rw [parametersA, parametersB, kept.eq_of_key (mem_of_getElem? hi) (mem_of_getElem? hj)
      (idempotencyKey_injective same)]
  · intro n inA inB
    have hij : i = j := by
      have := windowA n inA
      have := windowB n inB
      omega
    subst hij
    obtain rfl := Option.some.inj (hi.symm.trans hj)
    exact ⟨keyA.trans keyB.symm, parametersA.trans parametersB.symm⟩

/-! ### Runs -/

def proCheckout : CheckoutSettings where
  workspaceId := "w"
  prices := [("PRO", "price_pro")]
  origin := "https://money.example"

def reserving (i : Nat) (key : String) : List CheckoutOp :=
  [.arrive "PRO" key, .link i none (.ok "cus_1"), .reserve i none 0]

def windowLength : Nat := 32 * 60 * 1000000

def retriedCheckout : List CheckoutOp :=
  reserving 0 "k1" ++ [.send 0 (.error (.billingUnavailable "BILLING_PROVIDER_UNAVAILABLE"))] ++ reserving 1 "k2" ++
    [.send 1 (.ok "https://checkout.stripe.com/1"), .record 1]

open CheckoutSystem in
/-- The two requests of this run carry one key and the same parameters. -/
theorem checkout_keys_identify_requests_retried :
    Runs.Along (CheckoutSystem.step proCheckout) Timely { clock := 0 } retriedCheckout ∧
    (after proCheckout 0 retriedCheckout).requests.length = 2 ∧
    ∀ a ∈ (after proCheckout 0 retriedCheckout).requests, ∀ b ∈ (after proCheckout 0 retriedCheckout).requests,
      (a.idempotencyKey = b.idempotencyKey → a.parameters = b.parameters) ∧
      ∀ n, a.window = some n → b.window = some n → a.idempotencyKey = b.idempotencyKey ∧ a.parameters = b.parameters := by
  have timely : Runs.Along (CheckoutSystem.step proCheckout) Timely { clock := 0 } retriedCheckout := by decide +kernel
  exact ⟨timely, by decide +kernel, checkout_keys_identify_requests proCheckout 0 retriedCheckout timely⟩

def reusedKey : List CheckoutOp :=
  reserving 0 "k1" ++ [.send 0 (.error (.billingUnavailable "BILLING_PROVIDER_UNAVAILABLE")), .tick windowLength] ++
    reserving 1 "k2" ++ [.tick windowLength] ++ reserving 2 "k1" ++ [.send 2 (.ok "https://checkout.stripe.com/1")]

def lateRequest : List CheckoutOp :=
  reserving 0 "k1" ++ [.tick windowLength] ++ reserving 1 "k2" ++
    [.send 0 (.ok "https://checkout.stripe.com/1"), .send 1 (.ok "https://checkout.stripe.com/2")]

open CheckoutSystem in
/-- A key that is used again opens a window with other parameters; and a late request has another key than its window.
    -/
theorem checkout_key_reused :
    (∃ a ∈ (after proCheckout 0 reusedKey).requests, ∃ b ∈ (after proCheckout 0 reusedKey).requests,
      a.idempotencyKey = b.idempotencyKey ∧ a.parameters ≠ b.parameters) ∧
    ∃ a ∈ (after proCheckout 0 lateRequest).requests, ∃ b ∈ (after proCheckout 0 lateRequest).requests,
      a.window = some 2 ∧ b.window = some 2 ∧ a.idempotencyKey ≠ b.idempotencyKey := by
  constructor <;> decide +kernel

end Money
