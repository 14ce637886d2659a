import Money.Circuit

/-! Safety of the provider circuit. The generation counts the openings, the probes and the closings: a call admitted
    before the latest of them holds a smaller generation, and its result is not counted. -/

namespace Money
open Checked List

namespace CallPhase

def generation? : CallPhase → Option Nat
  | running g | settling g _ _ _ => some g
  | _ => none

def read? : CallPhase → Option Int
  | arriving now | settling _ _ _ now => some now
  | _ => none

end CallPhase

namespace Circuit
variable {l : CircuitLimits} {s t : Circuit}

def generation (s : Circuit) : Nat :=
  match s.row with
  | some row => row.generation
  | none => 0

/-- What each operation can do to the row of the provider and to the calls. -/
inductive Move (l : CircuitLimits) (s : Circuit) : CircuitOp → Circuit → Prop
  | tick (elapsed : Nat) : Move l s (.tick elapsed) { s with clock := s.clock + elapsed }
  | arrive : Move l s .arrive { s with calls := s.calls ++ [.arriving s.clock] }
  | refused {i : Nat} {now : Int} (e : Err) (hi : s.calls[i]? = some (.arriving now)) :
    Move l s (.enter i) (s.setCall i (.refused e))
  | admitted {i : Nat} {now : Int} {row : ProviderState} {g : Nat} (hi : s.calls[i]? = some (.arriving now))
      (hrow : admitCall l s.row now = .ok (row, g)) :
    Move l s (.enter i) { s.setCall i (.running g) with row := some row }
  | finished {i g : Nat} (success : Bool) (duration : Rat) (hi : s.calls[i]? = some (.running g)) :
    Move l s (.finish i success duration) (s.setCall i (.settling g success duration s.clock))
  | recorded {i g : Nat} {success : Bool} {duration : Rat} {now : Int} {row : ProviderState}
      (hi : s.calls[i]? = some (.settling g success duration now))
      (hrow : recordCall l s.row success duration g now = .ok row) :
    Move l s (.record i) { s.setCall i .recorded with row := some row }

variable {op : CircuitOp}

theorem step_move (h : step l s op = .ok t) : Move l s op t := by
  cases op with
  | tick elapsed =>
    cases h
    exact .tick elapsed
  | arrive =>
    cases h
    exact .arrive
  | enter i =>
    simp only [step, enter] at h
    split at h
    · rename_i now hi
      split at h
      · rename_i row g hrow
        cases h
        exact .admitted hi hrow
      · rename_i e _
        cases h
        exact .refused e hi
    · cases h
  | finish i success duration =>
    simp only [step, finish] at h
    split at h
    · rename_i g hi
      cases h
      exact .finished success duration hi
    · cases h
  | record i =>
    simp only [step, record] at h
    split at h
    · rename_i g success duration now hi
      simp only [ok_iff] at h
      obtain ⟨row, hrow, rfl⟩ := h
      exact .recorded hi hrow
    · cases h

variable {row : ProviderState} {now : Int} {g : Nat} {phase : CallPhase}

/-- An admission holds the generation it leaves. It keeps the gate, unless it is a probe, which starts a new generation.
    -/
theorem admitCall_spec (h : admitCall l s.row now = .ok (row, g)) : g = row.generation ∧ row.failures = s.gate.1 ∧
      ((s.gate.2 = none ∧ row.openUntil = none ∧ row.generation = s.generation) ∨
        ∃ until_, s.gate.2 = some until_ ∧ until_ ≤ now ∧ row.openUntil = some (now + seconds l.cooldown) ∧
          row.generation = s.generation + 1) := by
  unfold admitCall at h
  cases hs : s.row with
  | none =>
    rw [hs] at h
    cases h
    simp [gate, generation, hs]
  | some row₀ =>
    rw [hs] at h
    cases hopen : row₀.openUntil with
    | none =>
      simp only [hopen, Except.ok.injEq, Prod.mk.injEq] at h
      obtain ⟨rfl, rfl⟩ := h
      simp [gate, generation, hs, hopen]
    | some until_ =>
      simp only [hopen, ok_iff, Prod.mk.injEq] at h
      obtain ⟨hpast, rfl, rfl⟩ := h
      simp [gate, generation, hs, hopen, hpast]

/-- A record of an old generation keeps the gate. One of the current generation opens the circuit only with enough
    failures. -/
theorem recordCall_spec {success : Bool} {duration : Rat} (h : recordCall l s.row success duration g now = .ok row) :
    (g ≠ s.generation ∧ (row.failures, row.openUntil) = s.gate ∧ row.generation = s.generation) ∨
      (g = s.generation ∧ (∀ until_ ∈ row.openUntil, until_ = now + seconds l.cooldown ∧ l.threshold ≤ row.failures) ∧
        ((s.gate.2 = none ∧ row.openUntil = none ∧ row.generation = s.generation) ∨ row.generation = s.generation + 1)) := by
  simp only [recordCall, ok_iff] at h
  obtain ⟨row₀, hs, rfl⟩ := h
  by_cases hg : row₀.generation = g
  · refine .inr ⟨by simp [generation, hs, hg], ?_, ?_⟩
    · simp only [if_pos hg, countResult, Option.mem_def]
      intro until_ huntil
      obtain ⟨hfailed, huntil⟩ := Option.ite_none_right_eq_some.mp huntil
      exact ⟨(Option.some.inj huntil).symm, hfailed⟩
    · simp only [if_pos hg, countResult, gate, generation, hs]
      by_cases hopen : (if l.threshold ≤ (if success then 0 else row₀.failures + 1) then
          some (now + seconds l.cooldown) else none) ≠ none ∨ row₀.openUntil ≠ none
      · exact .inr (if_pos hopen)
      · rw [if_neg hopen]
        simp only [not_or, ne_eq, Decidable.not_not] at hopen
        exact .inl ⟨hopen.2, hopen.1, rfl⟩
  · refine .inl ⟨?_, ?_, ?_⟩
    · simpa [generation, hs] using fun h => hg h.symm
    · simp [gate, hs, hg]
    · simp [generation, hs, hg]

/-! ### Invariant -/

/-- An open circuit has enough failures, and no call is ahead of the row or of the clock. -/
structure Valid (l : CircuitLimits) (s : Circuit) : Prop where
  opened : s.gate.2 ≠ none → l.threshold ≤ s.gate.1
  generations : ∀ phase ∈ s.calls, ∀ g ∈ phase.generation?, g ≤ s.generation
  reads : ∀ phase ∈ s.calls, ∀ now ∈ phase.read?, now ≤ s.clock

variable {i : Nat}

theorem mem_setCall {phase' : CallPhase} (h : phase' ∈ (s.setCall i phase).calls) : phase' = phase ∨ phase' ∈ s.calls :=
  (mem_or_eq_of_mem_set h).symm

theorem Move.generation_le (h : Move l s op t) : s.generation ≤ t.generation := by
  cases h with
  | tick | arrive | refused | finished => exact le_refl _
  | admitted _ hrow =>
    obtain ⟨-, -, ⟨-, -, hg⟩ | ⟨_, -, -, -, hg⟩⟩ := admitCall_spec hrow
    · exact hg.ge
    · exact (Nat.le_succ _).trans hg.ge
  | recorded _ hrow =>
    rcases recordCall_spec hrow with ⟨-, -, hg⟩ | ⟨-, -, ⟨-, -, hg⟩ | hg⟩
    · exact hg.ge
    · exact hg.ge
    · exact (Nat.le_succ _).trans hg.ge

theorem Move.turn (h : Move l s op t) (hturn : Turns s t) : s.generation < t.generation := by
  obtain ⟨hgate, hopen⟩ := hturn
  cases h with
  | tick | arrive | refused | finished => exact absurd rfl hgate
  | admitted _ hrow =>
    obtain ⟨-, -, ⟨hclosed, hstill, -⟩ | ⟨_, -, -, -, hg⟩⟩ := admitCall_spec hrow
    · rcases hopen with hopen | hopen
      · exact absurd hclosed hopen
      · exact absurd hstill hopen
    · exact (Nat.lt_succ_self _).trans_le hg.ge
  | recorded _ hrow =>
    rcases recordCall_spec hrow with ⟨-, hsame, -⟩ | ⟨-, -, ⟨hclosed, hstill, -⟩ | hg⟩
    · exact absurd hsame.symm hgate
    · rcases hopen with hopen | hopen
      · exact absurd hclosed hopen
      · exact absurd hstill hopen
    · exact (Nat.lt_succ_self _).trans_le hg.ge

theorem Move.clock_le (h : Move l s op t) : s.clock ≤ t.clock := by
  cases h with
  | tick elapsed => exact Int.le_add_of_nonneg_right (Int.natCast_nonneg elapsed)
  | arrive | refused | admitted | finished | recorded => exact le_refl _

/-- Each call was there, or it read the clock just now, or it holds the generation that its admission left. -/
theorem Move.calls (h : Move l s op t) (hphase : phase ∈ t.calls) :
    phase ∈ s.calls ∨ (phase.generation? = none ∧ ∀ now ∈ phase.read?, now = s.clock) ∨ phase = .running t.generation ∨
      ∃ g success duration, .running g ∈ s.calls ∧ phase = .settling g success duration s.clock := by
  cases h with
  | tick => exact .inl hphase
  | arrive =>
    rcases mem_append.mp hphase with hold | hnew
    · exact .inl hold
    · cases mem_singleton.mp hnew
      exact .inr (.inl ⟨rfl, fun now hnow => (Option.some.inj hnow).symm⟩)
  | refused =>
    rcases mem_setCall hphase with rfl | hold
    · exact .inr (.inl ⟨rfl, fun _ hnow => nomatch hnow⟩)
    · exact .inl hold
  | admitted _ hrow =>
    rcases mem_setCall hphase with rfl | hold
    · obtain ⟨rfl, -⟩ := admitCall_spec hrow
      exact .inr (.inr (.inl rfl))
    · exact .inl hold
  | finished success duration hi =>
    rcases mem_setCall hphase with rfl | hold
    · exact .inr (.inr (.inr ⟨_, success, duration, mem_of_getElem? hi, rfl⟩))
    · exact .inl hold
  | recorded =>
    rcases mem_setCall hphase with rfl | hold
    · exact .inr (.inl ⟨rfl, fun _ hnow => nomatch hnow⟩)
    · exact .inl hold

theorem Valid.move (hs : Valid l s) (h : Move l s op t) : Valid l t where
  opened := by
    cases h with
    | tick | arrive | refused | finished => exact hs.opened
    | admitted _ hrow =>
      obtain ⟨-, hfailures, ⟨-, hclosed, -⟩ | ⟨_, hopen, -⟩⟩ := admitCall_spec hrow
      · exact fun hopen => absurd hclosed hopen
      · exact fun _ => (hs.opened (by simp [hopen])).trans hfailures.ge
    | recorded _ hrow =>
      intro hopen
      obtain ⟨until_, huntil⟩ := Option.ne_none_iff_exists'.mp hopen
      rcases recordCall_spec hrow with ⟨-, hsame, -⟩ | ⟨-, hopened, -⟩
      · have hgate : s.gate.1 = _ ∧ s.gate.2 = _ := Prod.mk.inj hsame.symm
        exact (hs.opened (hgate.2 ▸ hopen)).trans hgate.1.le
      · exact (hopened until_ huntil).2
  generations phase hphase g hg := by
    rcases h.calls hphase with hold | ⟨hnone, -⟩ | rfl | ⟨g', _, _, hold, rfl⟩
    · exact (hs.generations phase hold g hg).trans h.generation_le
    · rw [hnone] at hg
      cases hg
    · cases hg
      exact le_refl _
    · cases hg
      exact (hs.generations _ hold g rfl).trans h.generation_le
  reads phase hphase now hnow := by
    rcases h.calls hphase with hold | ⟨-, hread⟩ | rfl | ⟨_, _, _, -, rfl⟩
    · exact (hs.reads phase hold now hnow).trans h.clock_le
    · exact (hread now hnow).le.trans h.clock_le
    · cases hnow
    · cases hnow
      exact h.clock_le

theorem run_valid (hs : Valid l s) (ops : List CircuitOp) : Valid l (Runs.run (step l) s ops) :=
  Runs.run_inv (fun _ _ _ hs h => hs.move (step_move h)) ops hs

theorem after_valid (l : CircuitLimits) (start : Int) (ops : List CircuitOp) : Valid l (after l start ops) :=
  run_valid (s := { clock := start }) ⟨fun h => absurd rfl h, nofun, nofun⟩ ops

theorem after_append (l : CircuitLimits) (start : Int) (ops ops' : List CircuitOp) :
    after l start (ops ++ ops') = Runs.run (step l) (after l start ops) ops' :=
  Runs.run_append ..

theorem next_enter (h : s.Admits l i now) :
    ∃ row g, admitCall l s.row now = .ok (row, g) ∧ s.calls[i]? = some (.arriving now) ∧
      Runs.next (step l) s (.enter i) = { s.setCall i (.running g) with row := some row } := by
  obtain ⟨hi, ⟨row, g⟩, hrow⟩ := h
  refine ⟨row, g, hrow, hi, Runs.next_of_ok ?_⟩
  simp only [step, enter, hi, hrow]

/-- After a probe of generation `g` at `now`: the opening lasts for the cooldown, and so does every one that may still
    be recorded. -/
structure Probed (l : CircuitLimits) (now : Int) (g : Nat) (s : Circuit) : Prop where
  clock : now ≤ s.clock
  current : g ≤ s.generation
  settling : ∀ g' success duration now', .settling g' success duration now' ∈ s.calls → g ≤ g' → now ≤ now'
  opened : ∀ until_ ∈ s.gate.2, now + seconds l.cooldown ≤ until_

theorem Probed.move (hs : Probed l now g s) (h : Move l s op t) : Probed l now g t where
  clock := hs.clock.trans h.clock_le
  current := hs.current.trans h.generation_le
  settling g' success duration now' hphase hg := by
    rcases h.calls hphase with hold | ⟨hnone, -⟩ | heq | ⟨_, _, _, -, heq⟩
    · exact hs.settling g' success duration now' hold hg
    · cases hnone
    · cases heq
    · cases heq
      exact hs.clock
  opened := by
    cases h with
    | tick | arrive | refused | finished => exact hs.opened
    | admitted _ hrow =>
      intro until_ huntil
      obtain ⟨-, -, ⟨-, hclosed, -⟩ | ⟨before, hbefore, hpast, hopen, -⟩⟩ := admitCall_spec hrow
      · have hnone : some until_ = none := huntil.symm.trans hclosed
        cases hnone
      · -- a later probe reads the clock after the earlier opening has passed
        have hearlier := hs.opened before hbefore
        have hsome := Option.some.inj (hopen.symm.trans huntil)
        have hlimit := l.valid.2.1
        simp only [seconds] at hearlier hsome ⊢
        omega
    | recorded hi hrow =>
      intro until_ huntil
      rcases recordCall_spec hrow with ⟨-, hsame, -⟩ | ⟨hcurrent, hopened, -⟩
      · exact hs.opened until_ ((Prod.mk.inj hsame).2 ▸ huntil)
      · have hread := hs.settling _ _ _ _ (mem_of_getElem? hi) (hcurrent ▸ hs.current)
        have hsome := (hopened until_ huntil).1
        omega

theorem Valid.probed (hs : Valid l s) (h : s.Admits l i now) (hopen : s.gate.2 ≠ none) :
    Probed l now (s.generation + 1) (Runs.next (step l) s (.enter i)) := by
  obtain ⟨row, g, hrow, hi, hnext⟩ := next_enter h
  obtain ⟨rfl, -, ⟨hclosed, -⟩ | ⟨_, -, -, huntil, hg⟩⟩ := admitCall_spec hrow
  · exact absurd hclosed hopen
  rw [hnext]
  refine ⟨hs.reads _ (mem_of_getElem? hi) now rfl, hg.ge, ?_, ?_⟩
  · -- the calls that were admitted before it hold smaller generations
    intro g' success duration now' hphase hle
    rcases mem_setCall hphase with heq | hold
    · cases heq
    · have hold' := hs.generations _ hold g' rfl
      omega
  · intro until_ h
    exact (Option.some.inj (huntil.symm.trans h)).le

/-! ### Late results -/

def Carries (i g : Nat) (s : Circuit) : Prop :=
  ∃ phase, s.calls[i]? = some phase ∧ (phase.generation? = some g ∨ phase = .recorded)

theorem Carries.move (hs : Carries i g s) (h : Move l s op t) : Carries i g t := by
  obtain ⟨phase, hphase, hcarried⟩ := hs
  -- a step of another call leaves this one alone, and a step of this one starts from its phase
  have hset : ∀ {j : Nat} (old new : CallPhase), s.calls[j]? = some old →
      (phase = old → new.generation? = some g ∨ new = .recorded) → Carries i g (s.setCall j new) := by
    intro j old new hold hself
    by_cases hij : j = i
    · subst hij
      have hlt := (List.getElem?_eq_some_iff.mp hphase).1
      exact ⟨new, by simp [setCall, hlt], hself (Option.some.inj (hphase.symm.trans hold))⟩
    · exact ⟨phase, by simpa [setCall, hij] using hphase, hcarried⟩
  have harriving : ∀ {now : Int}, phase ≠ .arriving now := by
    rintro now rfl
    rcases hcarried with hg | heq
    · cases hg
    · cases heq
  cases h with
  | tick => exact ⟨phase, hphase, hcarried⟩
  | arrive =>
    have hlt := (List.getElem?_eq_some_iff.mp hphase).1
    exact ⟨phase, (List.getElem?_append_left hlt).trans hphase, hcarried⟩
  | refused e hi => exact hset _ _ hi fun heq => absurd heq harriving
  | admitted hi _ => exact hset _ _ hi fun heq => absurd heq harriving
  | finished success duration hi =>
    refine hset _ _ hi fun heq => ?_
    subst heq
    exact hcarried.imp id nofun
  | recorded hi _ => exact hset _ _ hi fun _ => .inr rfl

theorem run_carries (hs : Carries i g s) (ops : List CircuitOp) : Carries i g (Runs.run (step l) s ops) :=
  Runs.run_inv (fun _ _ _ hs h => hs.move (step_move h)) ops hs

theorem run_generation_le (s : Circuit) (ops : List CircuitOp) : s.generation ≤ (Runs.run (step l) s ops).generation :=
  Runs.run_inv (P := fun t => s.generation ≤ t.generation)
    (fun _ _ _ hs h => hs.trans (step_move h).generation_le) ops (le_refl _)

theorem Carries.gate_record (hs : Carries i g s) (hlate : g < s.generation) :
    (Runs.next (step l) s (.record i)).gate = s.gate := by
  rcases Runs.next_cases (step l) s (.record i) with h | h
  · rw [h]
  · generalize Runs.next (step l) s (.record i) = t at h ⊢
    cases step_move h with
    | recorded hi hrow =>
      obtain ⟨phase, hphase, hcarried⟩ := hs
      cases hphase.symm.trans hi
      rcases hcarried with hg | heq
      · cases hg
        rcases recordCall_spec hrow with ⟨-, hsame, -⟩ | ⟨hcurrent, -⟩
        · exact hsame
        · exact absurd hcurrent hlate.ne
      · cases heq

theorem carries_admitted (h : s.Admits l i now) :
    Carries i (Runs.next (step l) s (.enter i)).generation (Runs.next (step l) s (.enter i)) := by
  obtain ⟨row, g, hrow, hi, hnext⟩ := next_enter h
  obtain ⟨rfl, -⟩ := admitCall_spec hrow
  have hlt := (List.getElem?_eq_some_iff.mp hi).1
  rw [hnext]
  exact ⟨.running row.generation, by simp [setCall, hlt], .inl rfl⟩

theorem Carries.late (hs : Carries i g s) (hg : g ≤ s.generation)
    (hturn : Turns s (Runs.next (step l) s op)) (later : List CircuitOp) :
    (Runs.next (step l) (Runs.run (step l) s (op :: later)) (.record i)).gate = (Runs.run (step l) s (op :: later)).gate := by
  refine (run_carries hs (op :: later)).gate_record ?_
  rcases Runs.next_cases (step l) s op with h | h
  · rw [h] at hturn
    exact absurd rfl hturn.1
  · exact hg.trans_lt (((step_move h).turn hturn).trans_le (run_generation_le _ later))

/-- The circuit is open only after enough failures; while it is open no call is admitted; probes lie the cooldown apart;
    and a late result changes nothing. -/
theorem circuit_safe (l : CircuitLimits) (start : Int) (ops : List CircuitOp) :
    ((after l start ops).gate.2 ≠ none → l.threshold ≤ (after l start ops).gate.1) ∧
    (∀ until_ ∈ (after l start ops).gate.2, (after l start ops).clock < until_ →
      ∀ i now, ¬ (after l start ops).Admits l i now) ∧ (∀ before between i j now now', ops = before ++ .enter i :: between →
      (after l start before).Admits l i now → (after l start before).gate.2 ≠ none →
      (after l start ops).Admits l j now' → (after l start ops).gate.2 ≠ none → now + seconds l.cooldown ≤ now') ∧
    (∀ before between op later i now, ops = before ++ .enter i :: between ++ op :: later →
      (after l start before).Admits l i now →
      Turns (after l start (before ++ .enter i :: between)) (after l start (before ++ .enter i :: between ++ [op])) →
      (after l start (ops ++ [.record i])).gate = (after l start ops).gate) := by
  refine ⟨(after_valid l start ops).opened, ?_, ?_, ?_⟩
  · rintro until_ huntil hfuture i now ⟨hi, ⟨row, g⟩, hrow⟩
    have hread := (after_valid l start ops).reads _ (mem_of_getElem? hi) now rfl
    obtain ⟨-, -, ⟨hclosed, -⟩ | ⟨_, hsome, hpast, -⟩⟩ := admitCall_spec hrow
    · rw [hclosed] at huntil
      cases huntil
    · cases hsome.symm.trans huntil
      omega
  · rintro before between i j now now' rfl hfirst hopen ⟨-, ⟨row, g⟩, hrow⟩ hstill
    have hprobed := (after_valid l start before).probed hfirst hopen
    rw [after_append, Runs.run_cons] at hrow hstill
    have hlater : Probed l now _ (Runs.run (step l) _ between) :=
      Runs.run_inv (fun _ _ _ hs h => Probed.move hs (step_move h)) between hprobed
    obtain ⟨-, -, ⟨hclosed, -⟩ | ⟨until_, hsome, hpast, -⟩⟩ := admitCall_spec hrow
    · exact absurd hclosed hstill
    · exact (hlater.opened until_ hsome).trans hpast
  · rintro before between op later i now rfl hadmits hturn
    have hcarries := run_carries (l := l) (carries_admitted hadmits) between
    simp only [after_append, Runs.run_cons, Runs.run_nil] at hturn ⊢
    exact hcarries.late (run_generation_le _ between) hturn later

def openedOnce : List CircuitOp := [.arrive, .arrive, .enter 0, .enter 1, .finish 0 false 1, .record 0]

/-- Both probes fail, and the second call, admitted before the opening, ends with a success that leaves the circuit
    open. -/
theorem circuit_safe_openedOnce :
    let l : CircuitLimits := { threshold := 1, cooldown := 10 }
    let ops := openedOnce ++ [.tick 10000000, .arrive, .enter 2, .finish 2 false 1, .record 2, .tick 10000000, .arrive]
    ((after l 0 ops).Admits l 3 20000000 ∧ 10000000 + seconds l.cooldown ≤ 20000000) ∧
      (after l 0 (ops ++ [.finish 1 true 20, .record 1])).gate = (2, some 20000000) := by
  intro l ops
  have hsafe := circuit_safe l 0 ops
  refine ⟨⟨by decide +kernel, hsafe.2.2.1 (openedOnce ++ [.tick 10000000, .arrive])
    [.finish 2 false 1, .record 2, .tick 10000000, .arrive] 2 3 10000000 20000000 rfl (by decide +kernel) (by decide +kernel)
    (by decide +kernel) (by decide +kernel)⟩, ?_⟩
  have hlate := (circuit_safe l 0 (ops ++ [.finish 1 true 20])).2.2.2 [.arrive, .arrive, .enter 0] [.finish 0 false 1]
    (.record 0) ([.tick 10000000, .arrive, .enter 2, .finish 2 false 1, .record 2, .tick 10000000, .arrive,
      .finish 1 true 20]) 1 0 rfl (by decide +kernel) (by decide +kernel)
  exact hlate.trans (by decide +kernel)

end Circuit
end Money
