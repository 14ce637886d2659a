import Money.ProviderCache

/-! The shared provider cache under any interleaving. The row of a key belongs to the call that took the latest lease,
    and the lease of an earlier call that has not finished has run out. -/

namespace Money
open Checked List Rows

variable {Data : Type} {digest : Data → Hash} {l l' : CacheLine Data} {clock now : Int} {token : String}
  {phase : FetchPhase Data} {c : FetchCall Data}

def FetchCall.Running (c : FetchCall Data) : Prop := ∀ result, c.phase ≠ .finished result

/-- The row is the lease of the call, or holds the result that the call handed in. -/
def CacheRow.Of (digest : Data → Hash) (r : CacheRow Data) (c : FetchCall Data) : Prop :=
  r.payload = .fetching c.token ∧ r.openUntil = c.leaseUntil ∨
    ∃ result, c.phase = .finished result ∧ r.payload = stored digest result

/-- The row is that of the latest fetch, and every earlier one that still runs has lost its lease. -/
structure CacheLine.Kept (digest : Data → Hash) (clock : Int) (l : CacheLine Data) : Prop where
  tokens : (l.calls.map FetchCall.token).Nodup
  empty : l.row = none → l.calls = []
  held : ∀ r ∈ l.row, ∃ c ∈ l.calls.head?, r.Of digest c
  passed : ∀ c ∈ l.calls.tail, c.Running → c.leaseUntil ≤ clock

def FetchCall.moved (token : String) (phase : FetchPhase Data) (c : FetchCall Data) : FetchCall Data :=
  if c.token = token then { c with phase } else c

section
variable (h : l.Kept digest clock) (found : Rows.get? FetchCall.token l.calls token = some c)
include h found

theorem CacheLine.Kept.eq_of_token
    {c' : FetchCall Data} (hc' : c' ∈ l.calls) (same : c'.token = token) : c' = c :=
  eq_of_key h.tokens hc' (get?_eq_some found).1 (same.trans (get?_eq_some found).2.symm)

theorem CacheLine.Kept.proceed
    (running : c.Running) {row : Option (CacheRow Data)} (empty : row = none → l.row = none)
    (held : ∀ r ∈ row, ∃ c' ∈ l.calls.head?, r.Of digest (c'.moved token phase)) :
    CacheLine.Kept digest clock ⟨row, l.proceed token phase⟩ where
  tokens := nodup_update (fun _ => rfl) h.tokens
  empty hrow := by
    have none_yet := h.empty (empty hrow)
    simp [CacheLine.proceed, Rows.update, none_yet]
  held r hr := by
    obtain ⟨c', hc', own⟩ := held r hr
    refine ⟨_, ?_, own⟩
    rw [CacheLine.proceed, Rows.update, List.head?_map]
    exact Option.mem_map_of_mem _ hc'
  passed c' hc' hrunning := by
    rw [CacheLine.proceed, Rows.update, ← map_tail] at hc'
    obtain ⟨c₀, hc₀, rfl⟩ := mem_map.mp hc'
    by_cases same : c₀.token = token
    · have own : c₀ = c := h.eq_of_token found (mem_of_mem_tail hc₀) same
      rw [if_pos same]
      exact h.passed c₀ hc₀ (own ▸ running)
    · rw [if_neg same] at hrunning ⊢
      exact h.passed c₀ hc₀ hrunning

end

/-- A row stays that of its call when a call that has not finished moves on. -/
theorem CacheRow.Of.moved {r : CacheRow Data} (own : r.Of digest c) (waiting : c.token = token → c.Running) :
    r.Of digest (c.moved token phase) := by
  unfold FetchCall.moved
  split
  next same =>
    rcases own with lease | ⟨result, finished, -⟩
    · exact .inl lease
    · exact absurd finished (waiting same result)
  next => exact own

section
variable (h : l.Kept digest clock) (found : Rows.get? FetchCall.token l.calls token = some c)
include h found

theorem CacheLine.Kept.waits
    (running : c.Running) {r : CacheRow Data} (hr : r ∈ l.row) :
    ∃ c' ∈ l.calls.head?, r.Of digest (c'.moved token phase) := by
  obtain ⟨c', hc', own⟩ := h.held r hr
  exact ⟨c', hc', own.moved fun same => h.eq_of_token found (mem_of_mem_head? hc') same ▸ running⟩

theorem CacheLine.Kept.finish
    {result : Option Data} (fetched : c.phase = .fetched result) : CacheLine.Kept digest clock
      ⟨l.row.map fun row => row.finish digest c result now, l.proceed token (.finished result)⟩ := by
  have running : c.Running := fun result' finished => by simp [fetched] at finished
  refine h.proceed found running Option.map_eq_none_iff.mp fun r hr => ?_
  obtain ⟨r₀, hr₀, rfl⟩ := Option.map_eq_some_iff.mp hr
  unfold CacheRow.finish
  split
  next lease =>
    -- only the latest call still finds its token in the row
    obtain ⟨c', hc', ⟨payload, -⟩ | ⟨result', -, payload⟩⟩ := h.held r₀ hr₀
    · have same : c'.token = token := by
        rw [payload] at lease
        exact (Option.some.inj lease).trans (get?_eq_some found).2
      exact ⟨c', hc', .inr ⟨result, by simp [FetchCall.moved, same], rfl⟩⟩
    · rw [payload] at lease
      cases result' <;> cases lease
  next => exact h.waits found running hr₀

end

theorem CacheLine.get_eq_ok {ttl lease : Int} {answer : Data ⊕ CacheRow Data}
    (h : l.get digest ttl lease token now = .ok answer) :
    (∃ data r, answer = .inl data ∧ r ∈ l.row ∧ now < r.openUntil ∧ r.payload = .ready data (digest data)) ∨
    answer = .inr ⟨now + seconds lease, .fetching token⟩ ∧ ∀ r ∈ l.row, r.openUntil ≤ now := by
  simp only [CacheLine.get, require_bind_eq_ok] at h
  obtain ⟨-, h⟩ := h
  split at h
  next until_ data hash found =>
    simp only [ok_iff] at h
    obtain ⟨rfl, rfl⟩ := h
    obtain ⟨hrow, unexpired⟩ := Option.filter_eq_some_iff.mp found
    exact .inl ⟨data, _, rfl, hrow, of_decide_eq_true unexpired, rfl⟩
  next => cases h
  next expired =>
    refine .inr ⟨(pure_eq_ok.mp h).symm, fun r hr => ?_⟩
    have := Option.filter_eq_none_iff.mp expired r hr
    simpa using this

theorem CacheLine.Kept.step (h : l.Kept digest clock) {clock' : Int} (later : clock ≤ clock') {op : CacheOp Data}
    (hstep : l.step digest clock' op = .ok l') : l'.Kept digest clock' := by
  replace h : l.Kept digest clock' := { h with passed := fun c hc running => (h.passed c hc running).trans later }
  cases op with
  | get ttl lease token now =>
    simp only [CacheLine.step, ok_iff] at hstep
    obtain ⟨⟨read, fresh⟩, answer, got, hstep⟩ := hstep
    obtain ⟨data, -, rfl, -⟩ | ⟨rfl, expired⟩ := CacheLine.get_eq_ok got
    · cases hstep
      exact h
    · cases hstep
      refine ⟨nodup_cons.mpr ⟨fresh, h.tokens⟩, by simp, ?_, fun c hc running => ?_⟩
      · rintro _ ⟨⟩
        exact ⟨_, rfl, .inl ⟨rfl, rfl⟩⟩
      · cases hcalls : l.calls with
        | nil => rw [tail_cons, hcalls] at hc; cases hc
        | cons first rest =>
          rw [tail_cons, hcalls] at hc
          rcases mem_cons.mp hc with rfl | hc
          · -- the call whose lease the row was until now
            obtain ⟨r, hr⟩ := Option.ne_none_iff_exists'.mp fun none_ => by simp [h.empty none_] at hcalls
            obtain ⟨c', hc', ⟨-, until_⟩ | ⟨result, finished, -⟩⟩ := h.held r hr
            · rw [hcalls] at hc'
              cases hc'
              exact until_ ▸ (expired r hr).trans read
            · rw [hcalls] at hc'
              cases hc'
              exact absurd finished (running result)
          · exact h.passed c (by rw [hcalls]; exact hc) running
  | start token =>
    simp only [CacheLine.step, demand_bind_eq_ok] at hstep
    obtain ⟨c, found, hstep⟩ := hstep
    split at hstep
    next waiting =>
      cases hstep
      have running : c.Running := fun result finished => by simp [waiting] at finished
      exact h.proceed found running id fun r hr => h.waits found running hr
    next => cases hstep
  | fetch token result =>
    simp only [CacheLine.step, demand_bind_eq_ok] at hstep
    obtain ⟨c, found, hstep⟩ := hstep
    have running : c.Running := fun result' finished => by
      rw [finished] at hstep
      cases hstep
    split at hstep
    · cases hstep
      exact h.proceed found running id fun r hr => h.waits found running hr
    · cases hstep
      exact h.proceed found running id fun r hr => h.waits found running hr
    · cases hstep
  | finish token now =>
    simp only [CacheLine.step, demand_bind_eq_ok] at hstep
    obtain ⟨c, found, hstep⟩ := hstep
    split at hstep
    next result fetched =>
      cases hstep
      exact h.finish found fetched
    next => cases hstep

theorem CacheSystem.after_kept (digest : Data → Hash) (ops : List (Hash × Int × CacheOp Data)) (key : Hash) :
    ((CacheSystem.after digest ops).lines key).Kept digest (CacheSystem.after digest ops).clock := by
  refine Runs.run_inv (P := fun s : CacheSystem Data => ∀ key, (s.lines key).Kept digest s.clock) ?_ ops ?_ key
  · rintro s ⟨key, clock, op⟩ t h hstep key'
    simp only [CacheSystem.step, ok_iff] at hstep
    obtain ⟨later, l, hline, rfl⟩ := hstep
    by_cases same : key' = key
    · subst same
      simpa using (h key').step later hline
    · simpa [same] using
        { h key' with passed := fun c hc running => ((h key').passed c hc running).trans later }
  · exact fun _ => ⟨.nil, fun _ => rfl, by simp, forall_mem_nil _⟩

/-- All unfinished calls for a key but the latest have lost their lease, and what they hand in is not stored. What is
    served has not expired, has its stored hash, and is what one call fetched. -/
structure CacheSystem.Coherent (digest : Data → Hash) (s : CacheSystem Data) : Prop where
  passed : ∀ key, ∀ c ∈ (s.lines key).calls.tail, c.Running → c.leaseUntil ≤ s.clock
  unstored : ∀ key, ∀ c ∈ (s.lines key).calls.tail, ∀ clock now,
    ((Runs.next (CacheSystem.step digest) s (key, clock, .finish c.token now)).lines key).row = (s.lines key).row
  served : ∀ key ttl lease token now data, (s.lines key).get digest ttl lease token now = .ok (.inl data) →
    ∃ r ∈ (s.lines key).row, now < r.openUntil ∧ r.payload = .ready data (digest data) ∧
      ∃ c ∈ (s.lines key).calls, c.phase = .finished (some data)

/-- Along every interleaving of fetches only the latest one of a key holds a lease or is stored, and what is served was
    fetched and has not expired. -/
theorem provider_cache_coherent (digest : Data → Hash) (ops : List (Hash × Int × CacheOp Data)) :
    (CacheSystem.after digest ops).Coherent digest := by
  have kept := CacheSystem.after_kept digest ops
  generalize CacheSystem.after digest ops = s at kept
  refine ⟨fun key => (kept key).passed, fun key c hc clock now => ?_, fun key ttl lease token now data got => ?_⟩
  · rcases Runs.next_cases (CacheSystem.step digest) s (key, clock, .finish c.token now) with same | hstep
    · rw [same]
    · simp only [CacheSystem.step, CacheLine.step, ok_iff] at hstep
      obtain ⟨-, l, ⟨c', found, hline⟩, hnext⟩ := hstep
      rw [← hnext]
      simp only [Function.update_self]
      split at hline
      next result fetched =>
        cases hline
        have own : c' = c := ((kept key).eq_of_token found (mem_of_mem_tail hc) rfl).symm
        cases hrow : (s.lines key).row with
        | none => rfl
        | some r =>
          refine congrArg some (if_neg fun lease => ?_)
          -- the token in the row is that of the latest call, which is another one
          obtain ⟨first, hfirst, ⟨payload, -⟩ | ⟨result', -, payload⟩⟩ := (kept key).held r hrow
          · obtain ⟨rest, hcalls⟩ := List.head?_eq_some_iff.mp hfirst
            have distinct := (kept key).tokens
            rw [hcalls, map_cons, nodup_cons] at distinct
            rw [hcalls, tail_cons] at hc
            rw [payload, own] at lease
            exact distinct.1 (Option.some.inj lease ▸ mem_map_of_mem hc)
          · rw [payload] at lease
            cases result' <;> cases lease
      next => cases hline
  · obtain ⟨data', r, same, hr, unexpired, payload⟩ | ⟨same, -⟩ := CacheLine.get_eq_ok got
    · cases same
      refine ⟨r, hr, unexpired, payload, ?_⟩
      obtain ⟨c, hc, ⟨lease, -⟩ | ⟨result, finished, stored_⟩⟩ := (kept key).held r hr
      · rw [payload] at lease
        cases lease
      · refine ⟨c, mem_of_mem_head? hc, ?_⟩
        rw [payload] at stored_
        cases result with
        | none => cases stored_
        | some d =>
          cases stored_
          exact finished
    · cases same

/-- A call gets the lease and is held up. When it has run out another call takes it and starts, and then the first one
    starts. -/
def heldUpFetch : List (Hash × Int × CacheOp String) :=
  [("key", 0, .get 60 5 "a" 0), ("key", seconds 6, .get 60 5 "b" (seconds 6)), ("key", seconds 6, .start "b"),
    ("key", seconds 7, .start "a")]

theorem two_fetches_under_one_lease :
    let before := (CacheSystem.after id (heldUpFetch.take 2)).lines "key"
    let s := CacheSystem.after id heldUpFetch
    before.calls.map (fun c => (c.token, c.phase)) = [("b", .leased), ("a", .leased)] ∧
      (s.lines "key").calls.map (fun c => (c.token, c.phase)) = [("b", .fetching), ("a", .fetching)] ∧
      ∀ c ∈ (s.lines "key").calls.head?, s.clock < c.leaseUntil := by
  decide +kernel

end Money
