import Mathlib.Data.List.Nodup
import Mathlib.Data.List.Perm.Subperm
import Money.Registry

/-! A withdrawn model is not served. Every event carries a clock read of its own; after a withdrawal, only an event with
    a later stamp can be the latest one. -/

namespace Money
open Checked List Registry

namespace Registry
variable {H : Hashing} {r r' : Registry}

theorem register_eq_ok {model : QualifiedLinearModel} {reports : Hash → Option String} {now : Int}
    (h : r.register H model reports now = .ok r') :
    r' = r ∨ ∃ row, row.payload = model ∧ r' = { r with models := r.models ++ [row] } := by
  simp only [register, ok_iff] at h
  obtain ⟨-, -, -, -, h⟩ := h
  split at h
  · simp only [ok_iff] at h
    exact .inl h.2.symm
  · simp only [ok_iff] at h
    exact .inr ⟨_, rfl, h.2.symm⟩

theorem insertEvent_eq_ok {row : PromotionRow} (h : r.insertEvent row = .ok r') :
    r' = { r with promotions := r.promotions ++ [row] } := by
  simp only [insertEvent, ok_iff, Rows.insert?_eq_some] at h
  obtain ⟨_, ⟨-, rfl⟩, rfl⟩ := h
  rfl

theorem promote_eq_ok {recordId reviewerId eventId : String} {rollbackTarget : Option String} {stamp : Int}
    (h : r.promote H recordId reviewerId rollbackTarget stamp eventId = .ok r') :
    ∃ row, row.createdAt = stamp ∧ r' = { r with promotions := r.promotions ++ [row] } := by
  simp only [promote, ok_iff] at h
  obtain ⟨record, -, -, approval, -, -, -, -, -, inserted⟩ := h
  exact ⟨_, rfl, insertEvent_eq_ok inserted⟩

theorem newer_cases (a b : PromotionRow) : (newer a b = a ∨ newer a b = b) ∧
    a.createdAt ≤ (newer a b).createdAt ∧ b.createdAt ≤ (newer a b).createdAt := by
  unfold newer
  split
  · refine ⟨.inr rfl, ?_⟩
    omega
  · refine ⟨.inl rfl, ?_⟩
    omega

theorem newest_eq_some : ∀ {rows : List PromotionRow} {row : PromotionRow}, newest rows = some row →
    row ∈ rows ∧ ∀ other ∈ rows, other.createdAt ≤ row.createdAt
  | [], _, h => by cases h
  | [a], _, h => by
    cases h
    simp
  | a :: b :: rows, row, h => by
    -- the fold goes on from the newer one of the first two
    have newer_ : newest (newer a b :: rows) = some row := h
    obtain ⟨member, latest⟩ := newest_eq_some newer_
    obtain ⟨which, first, second⟩ := newer_cases a b
    have most := latest _ mem_cons_self
    refine ⟨?_, fun other hother => ?_⟩
    · rcases mem_cons.mp member with rfl | member
      · rcases which with same | same <;> simp [same]
      · exact mem_cons_of_mem _ (mem_cons_of_mem _ member)
    · rcases mem_cons.mp hother with rfl | hother
      · exact first.trans most
      rcases mem_cons.mp hother with rfl | hother
      · exact second.trans most
      · exact latest other (mem_cons_of_mem _ hother)
  termination_by rows => rows.length

end Registry

namespace RegistrySystem
variable {H : Hashing} {s t : RegistrySystem}

/-- What each operation can do to the registry and to the calls under way. -/
inductive Move (H : Hashing) (s : RegistrySystem) : RegistryOp → RegistrySystem → Prop
  | register {model : QualifiedLinearModel} {reports : Hash → Option String} {elapsed : Nat} {registry : Registry}
      (h : s.registry.register H model reports (s.tick elapsed) = .ok registry) :
    Move H s (.register model reports elapsed) { s with clock := s.tick elapsed, registry }
  | started {recordId reviewerId : String} {rollbackTarget : Option String} {elapsed : Nat} :
    Move H s (.startPromote recordId reviewerId true rollbackTarget elapsed)
      { s with
        clock := s.tick elapsed
        promoting := s.promoting ++ [{ recordId, reviewerId, rollbackTarget, stamp := s.tick elapsed }] }
  | promoted {call : PromoteCall} {eventId : String} {row : PromotionRow} (pending : call ∈ s.promoting)
      (stamped : row.createdAt = call.stamp) :
    Move H s (.commitPromote call eventId) { s with
      registry := { s.registry with promotions := s.registry.promotions ++ [row] }
      promoting := s.promoting.erase call }
  | refused {call : PromoteCall} {eventId : String} (pending : call ∈ s.promoting) :
    Move H s (.commitPromote call eventId) { s with promoting := s.promoting.erase call }
  | stamped {recordId reviewerId reason : String} {elapsed revision : Nat} :
    Move H s (.stampWithdraw recordId reviewerId reason elapsed) { s with
      clock := s.tick elapsed
      withdrawing := s.withdrawing ++ [{ recordId, reviewerId, reason, revision, stamp := s.tick elapsed }] }
  | withdrawn {call : WithdrawCall} {eventId : String} {row : PromotionRow} (held : call ∈ s.withdrawing)
      (stamped : row.createdAt = call.stamp) :
    Move H s (.commitWithdraw call eventId) { s with
      registry := { s.registry with promotions := s.registry.promotions ++ [row] }
      withdrawing := s.withdrawing.erase call }
  | aborted {call : WithdrawCall} (held : call ∈ s.withdrawing) :
    Move H s (.abortWithdraw call) { s with withdrawing := s.withdrawing.erase call }
  | began (call : LoadCall) : Move H s (.beginLoad call) { s with loads := s.loads ++ [(call, .begun)] }
  | recorded {i : Nat} {call : LoadCall} (hi : s.loads[i]? = some (call, .begun)) :
    Move H s (.readRecord i) (s.setLoad i call (.recorded (s.registry.model? call.recordId)))
  | dated {i : Nat} {call : LoadCall} {record : Option RegistryRow} (hi : s.loads[i]? = some (call, .recorded record)) :
    Move H s (.readLatest i) (s.setLoad i call (.dated record (s.registry.latest call.recordId call.asOf)))
  | ended {i : Nat} {call : LoadCall} {record : Option RegistryRow} {latest : Option PromotionRow}
      (hi : s.loads[i]? = some (call, .dated record latest)) :
    Move H s (.readCurrent i)
      (s.setLoad i call (.ended (call.serve H record latest (s.registry.current call.recordId))))

variable {op : RegistryOp}

theorem step_move (h : step H s op = .ok t) : Move H s op t := by
  cases op with
  | register model reports elapsed =>
    simp only [step, ok_iff] at h
    obtain ⟨registry, registered, rfl⟩ := h
    exact .register registered
  | startPromote recordId reviewerId manual rollbackTarget elapsed =>
    simp only [step, startPromote, ok_iff] at h
    obtain ⟨rfl, rfl⟩ := h
    exact .started
  | commitPromote call eventId =>
    simp only [step, commitPromote, ok_iff] at h
    obtain ⟨⟨pending, -⟩, h⟩ := h
    split at h
    next registry committed =>
      obtain ⟨row, stamped, rfl⟩ := promote_eq_ok committed
      obtain rfl := pure_eq_ok.mp h
      exact .promoted pending stamped
    next =>
      obtain rfl := pure_eq_ok.mp h
      exact .refused pending
  | stampWithdraw recordId reviewerId reason elapsed =>
    simp only [step, stampWithdraw, ok_iff] at h
    obtain ⟨-, -, -, rfl⟩ := h
    exact .stamped
  | commitWithdraw call eventId =>
    simp only [step, commitWithdraw, ok_iff] at h
    obtain ⟨held, registry, inserted, rfl⟩ := h
    obtain rfl := insertEvent_eq_ok inserted
    exact .withdrawn held rfl
  | abortWithdraw call =>
    simp only [step, ok_iff] at h
    obtain ⟨held, rfl⟩ := h
    exact .aborted held
  | beginLoad call =>
    obtain rfl := pure_eq_ok.mp h
    exact .began call
  | readRecord i =>
    simp only [step, readRecord] at h
    split at h
    next call hi =>
      obtain rfl := pure_eq_ok.mp h
      exact .recorded hi
    next => cases h
  | readLatest i =>
    simp only [step, readLatest] at h
    split at h
    next call record hi =>
      obtain rfl := pure_eq_ok.mp h
      exact .dated hi
    next => cases h
  | readCurrent i =>
    simp only [step, readCurrent] at h
    split at h
    next call record latest hi =>
      obtain rfl := pure_eq_ok.mp h
      exact .ended hi
    next => cases h

/-- Nothing is taken out of the registry. -/
structure Grows (s t : RegistrySystem) : Prop where
  models : s.registry.models <+: t.registry.models
  promotions : s.registry.promotions <+: t.registry.promotions

theorem step_grows (h : step H s op = .ok t) : Grows s t := by
  cases step_move h with
  | register registered =>
    rcases register_eq_ok registered with rfl | ⟨row, -, rfl⟩
    · exact ⟨prefix_refl _, prefix_refl _⟩
    · exact ⟨prefix_append _ _, prefix_refl _⟩
  | promoted | withdrawn => exact ⟨prefix_refl _, prefix_append _ _⟩
  | _ => exact ⟨prefix_refl _, prefix_refl _⟩

/-! ### Time stamps -/

def stamps (s : RegistrySystem) : List Int :=
  s.registry.promotions.map (·.createdAt) ++ (s.promoting.map (·.stamp) ++ s.withdrawing.map (·.stamp))

/-- Stamps are distinct and past. -/
structure Stamped (s : RegistrySystem) : Prop where
  nodup : s.stamps.Nodup
  past : ∀ stamp ∈ s.stamps, stamp ≤ s.clock

theorem step_stamps (h : step H s op = .ok t) :
    t.stamps.Perm (t.clock :: s.stamps) ∧ s.clock < t.clock ∨ t.stamps.Subperm s.stamps ∧ s.clock ≤ t.clock := by
  have later : ∀ elapsed, s.clock < s.tick elapsed := fun elapsed => by
    unfold tick
    omega
  cases step_move h with
  | register registered =>
    refine .inr ⟨?_, (later _).le⟩
    rcases register_eq_ok registered with rfl | ⟨row, -, rfl⟩ <;> exact List.Subperm.refl _
  | started | stamped =>
    refine .inl ⟨perm_iff_count.mpr fun a => ?_, later _⟩
    simp only [stamps, map_append, map_cons, map_nil, count_append, count_cons, count_nil]
    omega
  | @promoted call _ row held stamped | @withdrawn call _ row held stamped =>
    -- the stamp of the call is the one of the row
    refine .inr ⟨(perm_iff_count.mpr fun a => ?_).subperm, le_refl _⟩
    have same := ((perm_cons_erase held).map (·.stamp)).count_eq a
    simp only [stamps, map_append, map_cons, map_nil, count_append, count_cons, count_nil, stamped] at same ⊢
    omega
  | refused =>
    refine .inr ⟨List.Sublist.subperm ?_, le_refl _⟩
    exact (List.Sublist.refl _).append ((erase_sublist.map _).append (List.Sublist.refl _))
  | aborted =>
    refine .inr ⟨List.Sublist.subperm ?_, le_refl _⟩
    exact (List.Sublist.refl _).append ((List.Sublist.refl _).append (erase_sublist.map _))
  | _ => exact .inr ⟨List.Subperm.refl _, le_refl _⟩

theorem step_stamped (hs : s.Stamped) (h : step H s op = .ok t) : t.Stamped := by
  rcases step_stamps h with ⟨new, later⟩ | ⟨old, later⟩
  · have fresh : t.clock ∉ s.stamps := fun member => absurd (hs.past _ member) (by omega)
    refine ⟨new.nodup_iff.mpr (nodup_cons.mpr ⟨fresh, hs.nodup⟩), fun stamp member => ?_⟩
    rcases mem_cons.mp (new.mem_iff.mp member) with rfl | member
    · exact le_refl _
    · exact (hs.past stamp member).trans later.le
  · obtain ⟨kept, same, sub⟩ := old
    exact ⟨same.nodup_iff.mp (hs.nodup.sublist sub), fun stamp member =>
      (hs.past stamp (sub.subset (same.mem_iff.mpr member))).trans later⟩

theorem after_stamped (H : Hashing) (start : Int) (ops : List RegistryOp) : (after H start ops).Stamped :=
  Runs.run_inv (fun _ _ _ hs h => step_stamped hs h) ops ⟨nodup_nil, fun _ member => by cases member⟩

theorem Stamped.eq_of_createdAt (hs : s.Stamped) {a b : PromotionRow} (ha : a ∈ s.registry.promotions)
    (hb : b ∈ s.registry.promotions) (same : a.createdAt = b.createdAt) : a = b :=
  inj_on_of_nodup_map (nodup_append.mp hs.nodup).1 ha hb same

/-! ### Loads -/

variable {call : LoadCall}

theorem serve_eq_ok {record : Option RegistryRow} {latest current : Option PromotionRow}
    {m : QualifiedLinearModel} (h : call.serve H record latest current = .ok m) :
    (∃ row ∈ record, row.payload = m) ∧ H.artifactHash m.artifact = call.expectedHash ∧
      (∃ row ∈ latest, row.event.isApproved = true) ∧ ∃ row ∈ current, row.event.isApproved = true := by
  simp only [LoadCall.serve, ok_iff] at h
  obtain ⟨record, rfl, -, latest, rfl, approved, current, rfl, approved', hash, _, -, rfl⟩ := h
  exact ⟨⟨record, rfl, rfl⟩, hash, ⟨latest, rfl, approved⟩, current, rfl, approved'⟩

/-- What the statements of a load have read so far. -/
inductive Read (H : Hashing) (s : RegistrySystem) (k : Nat) (call : LoadCall) : LoadPhase → Prop
  | begun : Read H s k call .begun
  | recorded (hk : s.loads[k]? = some (call, .begun)) : Read H s k call (.recorded (s.registry.model? call.recordId))
  | dated {record : Option RegistryRow} (hk : s.loads[k]? = some (call, .recorded record)) :
    Read H s k call (.dated record (s.registry.latest call.recordId call.asOf))
  | ended {record : Option RegistryRow} {latest : Option PromotionRow} (hk : s.loads[k]? = some (call, .dated record latest)) :
    Read H s k call (.ended (call.serve H record latest (s.registry.current call.recordId)))

variable {k : Nat} {phase : LoadPhase} {w : PromotionRow}

theorem getElem?_setLoad {i : Nat} {call' : LoadCall} {phase' : LoadPhase}
    (h : (s.setLoad i call phase).loads[k]? = some (call', phase')) :
    s.loads[k]? = some (call', phase') ∨ i = k ∧ call' = call ∧ phase' = phase := by
  simp only [setLoad, List.getElem?_set] at h
  split at h
  next same =>
    split at h
    · obtain ⟨rfl, rfl⟩ := Prod.mk.inj (Option.some.inj h)
      exact .inr ⟨same, rfl, rfl⟩
    · cases h
  next => exact .inl h

theorem step_load (h : step H s op = .ok t) (hk : t.loads[k]? = some (call, phase)) :
    s.loads[k]? = some (call, phase) ∨ Read H s k call phase ∧ t.registry = s.registry := by
  cases step_move h with
  | began call' =>
    rw [List.getElem?_append] at hk
    split at hk
    · exact .inl hk
    · obtain ⟨-, same⟩ := Prod.mk.inj (mem_singleton.mp (mem_of_getElem? hk))
      exact .inr ⟨same ▸ .begun, rfl⟩
  | recorded hi =>
    rcases getElem?_setLoad hk with kept | ⟨rfl, rfl, rfl⟩
    · exact .inl kept
    · exact .inr ⟨.recorded hi, rfl⟩
  | dated hi =>
    rcases getElem?_setLoad hk with kept | ⟨rfl, rfl, rfl⟩
    · exact .inl kept
    · exact .inr ⟨.dated hi, rfl⟩
  | ended hi =>
    rcases getElem?_setLoad hk with kept | ⟨rfl, rfl, rfl⟩
    · exact .inl kept
    · exact .inr ⟨.ended hi, rfl⟩
  | _ => exact .inl hk

def Revived (s : RegistrySystem) (w : PromotionRow) : Prop :=
  ∃ row ∈ s.registry.promotions, row.modelId = w.modelId ∧ row.event.isApproved = true ∧ w.createdAt < row.createdAt

theorem Revived.grows (h : s.Revived w) (g : Grows s t) : t.Revived w := by
  obtain ⟨row, member, rest⟩ := h
  exact ⟨row, g.promotions.subset member, rest⟩

theorem Stamped.revived (hs : s.Stamped) {row : PromotionRow} (withdrawn : w ∈ s.registry.promotions)
    (notApproved : w.event.isApproved = false) (current : s.registry.current w.modelId = some row)
    (approved : row.event.isApproved = true) : s.Revived w := by
  obtain ⟨member, newest⟩ := newest_eq_some current
  simp only [eventsOf, mem_filter, decide_eq_true_eq] at member newest
  refine ⟨row, member.1, member.2, approved, lt_of_le_of_ne (newest w ⟨withdrawn, rfl⟩) fun same => ?_⟩
  obtain rfl := hs.eq_of_createdAt withdrawn member.1 same
  rw [notApproved] at approved
  cases approved

/-- A load of the model that had not ended when a withdrawal had committed serves it only if it was revived. -/
structure Guarded (w : PromotionRow) (k : Nat) (call : LoadCall) (s : RegistrySystem) : Prop where
  stamped : s.Stamped
  withdrawn : w ∈ s.registry.promotions
  served : ∀ m, s.loads[k]? = some (call, .ended (.ok m)) → s.Revived w

theorem step_guarded (notApproved : w.event.isApproved = false) (same : w.modelId = call.recordId) (hs : Guarded w k call s)
    (h : step H s op = .ok t) : Guarded w k call t := by
  have grows := step_grows h
  refine ⟨step_stamped hs.stamped h, grows.promotions.subset hs.withdrawn, fun m ended => ?_⟩
  rcases step_load h ended with before | ⟨read, -⟩
  · exact (hs.served m before).grows grows
  · generalize result : LoadPhase.ended (.ok m) = phase at read
    cases read with
    | ended hk =>
      injection result with result
      obtain ⟨-, -, -, row, current, approved⟩ := serve_eq_ok result.symm
      exact (hs.stamped.revived hs.withdrawn notApproved (by rw [same]; exact current) approved).grows grows
    | _ => cases result

/-! ### What is served -/

/-- What a load has read so far: a row of the table, and the latest events of earlier states of the log. -/
def Reads (H : Hashing) (s : RegistrySystem) (call : LoadCall) : LoadPhase → Prop
  | .begun => True
  | .recorded record => ∀ row ∈ record, row ∈ s.registry.models ∧ row.id = call.recordId
  | .dated record latest => (∀ row ∈ record, row ∈ s.registry.models ∧ row.id = call.recordId) ∧
    ∃ log, log <+: s.registry.promotions ∧ latest = Registry.latest { promotions := log } call.recordId call.asOf
  | .ended result => ∀ m, result = .ok m → H.artifactHash m.artifact = call.expectedHash ∧
    (∃ row ∈ s.registry.models, row.id = call.recordId ∧ row.payload = m) ∧
    ∃ log log', log <+: log' ∧ log' <+: s.registry.promotions ∧
      (∃ row ∈ latest { promotions := log } call.recordId call.asOf, row.event.isApproved = true) ∧
      ∃ row ∈ Registry.current { promotions := log' } call.recordId, row.event.isApproved = true

theorem Reads.grows (h : Reads H s call phase) (g : Grows s t) : Reads H t call phase := by
  have rows : ∀ {record : Option RegistryRow}, (∀ row ∈ record, row ∈ s.registry.models ∧ row.id = call.recordId) →
      ∀ row ∈ record, row ∈ t.registry.models ∧ row.id = call.recordId := fun known row member =>
    ⟨g.models.subset (known row member).1, (known row member).2⟩
  cases phase with
  | begun => trivial
  | recorded record => exact rows h
  | dated record latest =>
    obtain ⟨known, log, before, same⟩ := h
    exact ⟨rows known, log, before.trans g.promotions, same⟩
  | ended result =>
    intro m ok
    obtain ⟨hash, ⟨row, member, same⟩, log, log', before, before', approved⟩ := h m ok
    exact ⟨hash, ⟨row, g.models.subset member, same⟩, log, log', before, before'.trans g.promotions, approved⟩

theorem Read.reads (hs : ∀ call phase, s.loads[k]? = some (call, phase) → Reads H s call phase) (h : Read H s k call phase) :
    Reads H s call phase := by
  cases h with
  | begun => trivial
  | recorded hk => exact fun row found => Rows.get?_eq_some found
  | dated hk => exact ⟨hs call _ hk, _, prefix_refl _, rfl⟩
  | ended hk =>
    intro m served
    obtain ⟨known, log, before, rfl⟩ := hs call _ hk
    obtain ⟨⟨row, found, payload⟩, hash, latest, current⟩ := serve_eq_ok served
    exact ⟨hash, ⟨row, (known row found).1, (known row found).2, payload⟩, log, s.registry.promotions, before,
      prefix_refl _, latest, current⟩

theorem after_reads (H : Hashing) (start : Int) (ops : List RegistryOp) (k : Nat) :
    ∀ call phase, (after H start ops).loads[k]? = some (call, phase) → Reads H (after H start ops) call phase := by
  refine Runs.run_inv (P := fun s => ∀ call phase, s.loads[k]? = some (call, phase) → Reads H s call phase)
    (fun s op t hs h call phase hk => ?_) ops (s := { clock := start }) fun call phase none_ => by simp at none_
  have grows := step_grows h
  rcases step_load h hk with before | ⟨read, -⟩
  · exact (hs call phase before).grows grows
  · exact (read.reads hs).grows grows

theorem after_registered (H : Hashing) (start : Int) (ops : List RegistryOp) : ∀ row ∈ (after H start ops).registry.models,
      ∃ reports elapsed, RegistryOp.register row.payload reports elapsed ∈ ops := by
  refine Runs.run_inv_of (P := fun s : RegistrySystem => ∀ row ∈ s.registry.models,
      ∃ reports elapsed, RegistryOp.register row.payload reports elapsed ∈ ops)
    (fun s op t member hs h => ?_) ops (fun _ => id) fun row none_ => by cases none_
  cases step_move h with
  | @register model reports elapsed registry registered =>
    rcases register_eq_ok registered with rfl | ⟨new, rfl, rfl⟩
    · exact hs
    · intro row known
      rcases Rows.mem_snoc.mp known with old | rfl
      · exact hs row old
      · exact ⟨reports, elapsed, member⟩
  | _ => exact hs

end RegistrySystem

open RegistrySystem in
/-- After a withdrawal a load fails unless a promotion was stamped after it; and whatever is served was registered, has
    the expected hash, and was approved by the latest event. -/
theorem withdrawn_model_not_served (H : Hashing) (start : Int) (before later : List RegistryOp) (k : Nat) (call : LoadCall)
    (m : QualifiedLinearModel) (served : (after H start (before ++ later)).loads[k]? = some (call, .ended (.ok m))) :
    (∀ w ∈ (after H start before).registry.promotions, w.event.isApproved = false → w.modelId = call.recordId →
      (∀ result, (after H start before).loads[k]? ≠ some (call, .ended result)) →
      (after H start (before ++ later)).Revived w) ∧
    (∃ reports elapsed, RegistryOp.register m reports elapsed ∈ before ++ later) ∧
    RegistrySystem.Reads H (after H start (before ++ later)) call (.ended (.ok m)) := by
  have reads := after_reads H start (before ++ later) k call _ served
  refine ⟨fun w withdrawn notApproved same unended => ?_, ?_, reads⟩
  · have split_ : after H start (before ++ later) =
      Runs.run (RegistrySystem.step H) (after H start before) later := Runs.run_append ..
    have guarded : Guarded w k call (after H start before) :=
      ⟨after_stamped H start before, withdrawn, fun m' ended => absurd ended (unended _)⟩
    rw [split_] at served ⊢
    exact (Runs.run_inv (fun _ _ _ hs h => step_guarded notApproved same hs h) later guarded).served m served
  · obtain ⟨-, ⟨row, member, -, rfl⟩, -⟩ := reads m rfl
    exact after_registered H start (before ++ later) row member

/-! ### Runs -/

def plainHashing : Hashing where
  artifactHash _ := "artifact"
  sha256 _ := "report"
  casefold := id

def reviewedModel : QualifiedLinearModel where
  artifact := { modelId := "linear", modelVersion := "1", datasetHash := "dataset", validationEnd := 0, pitValidated := true }
  promotion := {
    artifactId := "linear"
    artifactHash := "artifact"
    proposedBy := "alice"
    validations := requiredValidations.map fun kind => {
      kind, passed := true, testedArtifactHash := "artifact", datasetHash := "dataset", reportHash := "report"
      completedAt := 0 }
    approval := some {
      reviewerId := "bob", approved := true, reviewedArtifactHash := "artifact", reviewedValidationHashes := ["report"]
      reviewedAt := 0 } }

/-- The model is registered and promoted; a withdrawal is stamped, a second promotion starts, and the withdrawal
    commits. -/
def withdrawnModel : List RegistryOp :=
  [.register reviewedModel (fun _ => some "bytes") 0,
    .startPromote "linear:1" "bob" true none 0,
    .commitPromote { recordId := "linear:1", reviewerId := "bob", rollbackTarget := none, stamp := 12 } "event-1",
    .stampWithdraw "linear:1" "carol" "drift" 0,
    .startPromote "linear:1" "bob" true none 0,
    .commitWithdraw { recordId := "linear:1", reviewerId := "carol", reason := "drift", revision := 2, stamp := 13 } "event-2"]

def revivedModel : List RegistryOp :=
  [.commitPromote { recordId := "linear:1", reviewerId := "bob", rollbackTarget := none, stamp := 14 } "event-3",
    .beginLoad { recordId := "linear:1", expectedHash := "artifact", asOf := 20 },
    .readRecord 0, .readLatest 0, .readCurrent 0]

open RegistrySystem in
/-- A promotion that started after the stamp of a withdrawal, but before its commit, makes the withdrawn model active
    again. -/
theorem overlapping_promotion_revives :
    (∃ w ∈ (after plainHashing 10 withdrawnModel).registry.promotions,
      w.modelId = "linear:1" ∧ w.event.isApproved = false) ∧
    (∀ op ∈ revivedModel, ∀ recordId reviewerId manual rollbackTarget elapsed,
      op ≠ .startPromote recordId reviewerId manual rollbackTarget elapsed) ∧
    (after plainHashing 10 withdrawnModel).loads = [] ∧
    (after plainHashing 10 (withdrawnModel ++ revivedModel)).loads[0]? =
      some ({ recordId := "linear:1", expectedHash := "artifact", asOf := 20 }, .ended (.ok reviewedModel)) := by
  refine ⟨by decide +kernel, ?_, by decide +kernel, by decide +kernel⟩
  simp [revivedModel]

open RegistrySystem in
/-- What is served in this run was revived, registered and approved. -/
theorem withdrawn_model_not_served_revived : ∃ (k : Nat) (call : LoadCall) (m : QualifiedLinearModel),
    (after plainHashing 10 (withdrawnModel ++ revivedModel)).loads[k]? = some (call, .ended (.ok m)) ∧
    (∀ w ∈ (after plainHashing 10 withdrawnModel).registry.promotions, w.event.isApproved = false →
      w.modelId = call.recordId → (after plainHashing 10 (withdrawnModel ++ revivedModel)).Revived w) := by
  have served : (after plainHashing 10 (withdrawnModel ++ revivedModel)).loads[0]? =
      some ({ recordId := "linear:1", expectedHash := "artifact", asOf := 20 }, .ended (.ok reviewedModel)) := by
    decide +kernel
  have empty : (after plainHashing 10 withdrawnModel).loads = [] := by decide +kernel
  refine ⟨0, _, _, served, fun w withdrawn notApproved same => ?_⟩
  exact (withdrawn_model_not_served plainHashing 10 withdrawnModel revivedModel 0 _ _ served).1 w withdrawn notApproved same
    fun result => by simp [empty]

end Money
