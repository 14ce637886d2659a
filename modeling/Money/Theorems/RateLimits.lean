import Money.RateLimits

/-! The windows of a rate limit lie apart, so a call that is not of the last two windows is older than a whole window. -/

namespace Money
open List

variable {limit : ℕ} {window last stamp : Int} {log : RateLog} {c : RateCall}

/-- A call, seen from the window `n` that began at `start`, or from a later call in it. -/
structure RateCall.Before (window : Int) (n : ℕ) (start : Int) (c : RateCall) : Prop where
  number : c.window ≤ n
  same : c.window = n → c.start = start
  apart : c.window < n → c.start + seconds window ≤ start
  earlier : c.window < n → c.stamp ≤ start
  older : c.window + 2 ≤ n → c.stamp + seconds window ≤ start

def RateLog.allowed (log : RateLog) (k : ℕ) : ℕ := log.calls.countP fun c => c.allowed ∧ c.window = k

/-- The row counts the allowed calls of its window, and windows do not overlap. -/
structure RateLog.Kept (limit : ℕ) (window last : Int) (log : RateLog) : Prop where
  empty : log.row = none → log.calls = []
  started : ∀ r ∈ log.row, r.windowStartedAt ≤ last
  counted : ∀ r ∈ log.row, r.count = log.allowed log.windows ∧ ∀ c ∈ log.calls, c.Before window log.windows r.windowStartedAt
  stamps : ∀ c ∈ log.calls, c.start ≤ c.stamp ∧ c.stamp ≤ last
  within : ∀ k, log.allowed k ≤ limit
  ordered : log.calls.Pairwise fun d c => c.Before window d.window d.start

theorem RateCall.Before.opens {n : ℕ} {start : Int} (h : c.Before window n start) (gone : seconds window ≤ stamp - start)
    (later : start ≤ stamp) (past : c.stamp ≤ stamp) : c.Before window (n + 1) stamp where
  number := Nat.le_succ_of_le h.number
  same hn := absurd h.number (by omega)
  apart hn := by
    rcases Nat.lt_or_eq_of_le h.number with lt | eq
    · have := h.apart lt
      omega
    · have := h.same eq
      omega
  earlier _ := past
  older hn := by
    have := h.earlier (by omega)
    omega

theorem RateLog.allowed_cons {row : Option RateWindow} {windows k : ℕ} {d : RateCall} :
    RateLog.allowed ⟨row, windows, d :: log.calls⟩ k = log.allowed k + if d.allowed ∧ d.window = k then 1 else 0 := by
  simp [RateLog.allowed, countP_cons]

theorem RateLog.Kept.add (h : log.Kept limit window last) (r : RateWindow) (n : ℕ) (allowed : Bool)
    (later : last ≤ stamp) (started : r.windowStartedAt ≤ stamp) (before : ∀ c ∈ log.calls, c.Before window n r.windowStartedAt)
    (count : r.count = log.allowed n + if allowed then 1 else 0) (within : r.count ≤ limit) :
    RateLog.Kept limit window stamp ⟨some r, n, ⟨stamp, n, r.windowStartedAt, allowed⟩ :: log.calls⟩ where
  empty := nofun
  started _ hr := by cases hr; exact started
  counted _ hr := by
    cases hr
    refine ⟨by rw [RateLog.allowed_cons, count]; simp, forall_mem_cons.mpr ⟨?_, before⟩⟩
    constructor <;> simp
  stamps := forall_mem_cons.mpr ⟨⟨started, le_refl _⟩, fun c hc => ⟨(h.stamps c hc).1, (h.stamps c hc).2.trans later⟩⟩
  within k := by
    have := h.within k
    rw [RateLog.allowed_cons]
    by_cases same : n = k
    · subst same
      simpa [← count] using within
    · simpa [same] using this
  ordered := pairwise_cons.mpr ⟨before, h.ordered⟩

theorem RateLog.Kept.consume (positive : 1 ≤ limit) (h : log.Kept limit window last) (later : last ≤ stamp) :
    (log.consume limit window stamp).Kept limit window stamp := by
  obtain ⟨row, n, calls⟩ := log
  unfold RateLog.consume consumeRateLimit opensWindow
  cases row with
  | none =>
    obtain rfl : calls = [] := h.empty rfl
    simpa using h.add ⟨stamp, 1⟩ (n + 1) true later (le_refl _) (forall_mem_nil _) rfl positive
  | some r =>
    obtain ⟨count, before⟩ := h.counted r rfl
    have started := (h.started r rfl).trans later
    have bound : r.count ≤ limit := count ▸ h.within n
    by_cases gone : seconds window ≤ stamp - r.windowStartedAt
    · have none_yet : RateLog.allowed ⟨some r, n, calls⟩ (n + 1) = 0 := countP_eq_zero.mpr fun c hc => by
        have number : c.window ≤ n := (before c hc).number
        simp only [decide_eq_true_eq, not_and]
        omega
      simpa [gone] using h.add ⟨stamp, 1⟩ (n + 1) true later (le_refl _)
        (fun c hc => (before c hc).opens gone started ((h.stamps c hc).2.trans later)) (by simp [none_yet]) positive
    · by_cases free : r.count < limit
      · simpa [gone, free] using h.add { r with count := r.count + 1 } n true later started before
          (by simp [count]) free
      · simpa [gone, free] using h.add r n false later started before (by simpa using count) bound

theorem rateLog_kept (window : Int) (positive : 1 ≤ limit) {stamps : List Int} (ordered : stamps.Pairwise (· ≤ ·)) :
    ∃ last, (rateLog limit window stamps).Kept limit window last := by
  suffices ∀ (stamps : List Int) (log : RateLog) (last : Int), (last :: stamps).Pairwise (· ≤ ·) →
      log.Kept limit window last → ∃ last, (stamps.foldl (RateLog.consume limit window) log).Kept limit window last by
    cases stamps with
    | nil => exact ⟨0, fun _ => rfl, nofun, nofun, forall_mem_nil _, fun _ => Nat.zero_le _, .nil⟩
    | cons first rest =>
      refine this (first :: rest) {} first (pairwise_cons.mpr ⟨?_, ordered⟩)
        ⟨fun _ => rfl, nofun, nofun, forall_mem_nil _, fun _ => Nat.zero_le _, .nil⟩
      exact forall_mem_cons.mpr ⟨le_refl _, (pairwise_cons.mp ordered).1⟩
  intro stamps
  induction stamps with
  | nil => exact fun log last _ h => ⟨last, h⟩
  | cons stamp rest ih =>
    intro log last ordered h
    rw [pairwise_cons] at ordered
    exact ih _ stamp ordered.2 (h.consume positive (ordered.1 stamp mem_cons_self))

theorem countP_le_add {α : Type} {p q r : α → Prop} [DecidablePred p] [DecidablePred q] [DecidablePred r] :
    ∀ {l : List α}, (∀ a ∈ l, p a → q a ∨ r a) → l.countP (p ·) ≤ l.countP (q ·) + l.countP (r ·)
  | [], _ => by simp
  | a :: l, h => by
    have ih := countP_le_add fun b hb => h b (mem_cons_of_mem _ hb)
    have := h a mem_cons_self
    simp only [countP_cons, decide_eq_true_eq]
    split_ifs <;> first | omega | simp_all

/-- The calls in an interval of the length of a window are of the last two windows that have one. -/
theorem RateLog.Kept.interval (h : log.Kept limit window last) (t : Int) :
    (log.calls.countP fun c => c.allowed ∧ t ≤ c.stamp ∧ c.stamp < t + seconds window) ≤ 2 * limit := by
  have within := h.within
  have stamps := h.stamps
  have ordered := h.ordered
  unfold RateLog.allowed at within
  generalize log.calls = calls at within stamps ordered
  induction calls with
  | nil => simp
  | cons d rest ih =>
    obtain ⟨before, ordered⟩ := pairwise_cons.mp ordered
    by_cases inside : d.allowed ∧ t ≤ d.stamp ∧ d.stamp < t + seconds window
    · have recent : ∀ c ∈ d :: rest, (c.allowed ∧ t ≤ c.stamp ∧ c.stamp < t + seconds window) →
          (c.allowed ∧ c.window = d.window) ∨ (c.allowed ∧ c.window = d.window - 1) := by
        refine fun c hc hin => ?_
        simp only [hin.1, true_and]
        rcases mem_cons.mp hc with rfl | hc
        · exact .inl rfl
        · have number := (before c hc).number
          have older := (before c hc).older
          have started := (stamps d mem_cons_self).1
          omega
      have first := within d.window
      have second := within (d.window - 1)
      have := countP_le_add recent
      omega
    · rw [countP_cons_of_neg (by simpa using inside)]
      refine ih (fun k => ?_) (fun c hc => stamps c (mem_cons_of_mem _ hc)) ordered
      exact (Sublist.countP_le (sublist_cons_self _ _)).trans (within k)

/-- The limits that a log of calls keeps to, and what a denial does. -/
structure RateLog.Bounded (limit : ℕ) (window : Int) (log : RateLog) : Prop where
  perWindow : ∀ k, log.allowed k ≤ limit
  apart : log.calls.Pairwise fun d c => c.window = d.window ∨ c.start + seconds window ≤ d.start
  perInterval : ∀ t, (log.calls.countP fun c => c.allowed ∧ t ≤ c.stamp ∧ c.stamp < t + seconds window) ≤ 2 * limit
  denied : ∀ stamp, (consumeRateLimit limit window log.row stamp).2.allowed = false →
    (consumeRateLimit limit window log.row stamp).1 = log.row
  waited : ∀ stamp later, (consumeRateLimit limit window log.row stamp).2.allowed = false →
    stamp + seconds (consumeRateLimit limit window log.row stamp).2.retryAfter ≤ later →
    (consumeRateLimit limit window log.row later).2.allowed = true

theorem consumeRateLimit_denied {row : Option RateWindow} (h : (consumeRateLimit limit window row stamp).2.allowed = false) :
    ∃ r, row = some r ∧ (consumeRateLimit limit window row stamp).1 = some r ∧
      (consumeRateLimit limit window row stamp).2.retryAfter =
        max 1 ((seconds window - (stamp - r.windowStartedAt)) / seconds 1 + 1) := by
  cases row with
  | none => cases h
  | some r =>
    simp only [consumeRateLimit] at *
    split_ifs at * with gone free
    exact ⟨r, rfl, rfl, rfl⟩

/-- Calls in the order of the clock keep to the limit in every window, and to twice the limit in every interval of its
    length. -/
theorem rate_limit_windows (limit : ℕ) (window : Int) (stamps : List Int) (positive : 1 ≤ limit)
    (ordered : stamps.Pairwise (· ≤ ·)) : (rateLog limit window stamps).Bounded limit window := by
  obtain ⟨last, h⟩ := rateLog_kept window positive ordered
  generalize rateLog limit window stamps = log at h
  refine ⟨h.within, h.ordered.imp fun {d c} before => ?_, h.interval, fun stamp denied => ?_, fun stamp later denied wait => ?_⟩
  · rcases Nat.lt_or_eq_of_le before.number with lt | eq
    · exact .inr (before.apart lt)
    · exact .inl eq
  · obtain ⟨r, hrow, kept, -⟩ := consumeRateLimit_denied denied
    rw [kept, hrow]
  · obtain ⟨r, hrow, -, retry⟩ := consumeRateLimit_denied denied
    rw [retry] at wait
    have gone : seconds window ≤ later - r.windowStartedAt := by
      unfold seconds at *
      omega
    simp [consumeRateLimit, hrow, gone]

theorem rate_limit_windows_minute : (rateLog 1 60 [0, seconds 1, seconds 60]).Bounded 1 60 :=
  rate_limit_windows 1 60 [0, seconds 1, seconds 60] (le_refl _) (by decide)

end Money
