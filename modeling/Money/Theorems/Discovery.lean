import Money.Discovery
import Money.Generation
import Money.Library.Rows

/-! The fundamental channel compares the last two records, not the last two periods: a pair is discovered if its last
    two periods differ enough and the latest is reported once. -/

namespace Money.Discovery
open Grouping List

section
variable (s : ResearchSnapshot)

def factOf (record : EvidenceRecord) : Option Reported :=
  if usable s record then
    match record.payload with
    | .financial fact => if fact.metric ∈ metrics then some (record, fact) else none
    | _ => none
  else none

def Reported.key (r : Reported) : String × String := (r.2.metric, r.2.unit)

def facts (key : String × String) : List Reported := (s.evidence.filterMap (factOf s)).filter fun r => Reported.key r = key

variable {record : EvidenceRecord} {current prior r : Reported} {t : ResearchSnapshot}

theorem factOf_eq_some (h : factOf s record = some r) : r.1 = record ∧ record.payload = .financial r.2 := by
  unfold factOf at h
  split at h
  · split at h
    case h_1 fact hfact =>
      split at h
      · cases h
        exact ⟨rfl, hfact⟩
      · cases h
    case h_2 => cases h
  · cases h

variable {key : String × String}

theorem mem_facts : r ∈ facts s key ↔ r.1 ∈ s.evidence ∧ factOf s r.1 = some r ∧ r.key = key := by
  simp only [facts, mem_filter, mem_filterMap, decide_eq_true_eq]
  constructor
  · rintro ⟨⟨record, hrecord, hfact⟩, hkey⟩
    obtain ⟨rfl, -⟩ := factOf_eq_some s hfact
    exact ⟨hrecord, hfact, hkey⟩
  · rintro ⟨hrecord, hfact, hkey⟩
    exact ⟨⟨r.1, hrecord, hfact⟩, hkey⟩

theorem eq_of_evidenceId_eq (ids : s.evidenceIds.Nodup) {key' : String × String} {a b : Reported}
    (ha : a ∈ facts s key) (hb : b ∈ facts s key') (h : a.1.evidenceId = b.1.evidenceId) : a = b := by
  obtain ⟨harecord, hafact, -⟩ := (mem_facts s).mp ha
  obtain ⟨hbrecord, hbfact, -⟩ := (mem_facts s).mp hb
  have hrecord := inj_on_of_nodup_map ids harecord hbrecord h
  rw [hrecord, hbfact] at hafact
  exact (Option.some.inj hafact).symm

theorem nodup_facts (ids : s.evidenceIds.Nodup) (key : String × String) : (facts s key).Nodup := by
  refine List.Nodup.filter _ (List.Nodup.filterMap (fun a b r hra hrb => ?_) (List.Nodup.of_map _ ids))
  obtain ⟨rfl, -⟩ := factOf_eq_some s hra
  obtain ⟨hsame, -⟩ := factOf_eq_some s hrb
  exact hsame

variable (P : Platform) (percent : Rat → String) (policy : DiscoveryPolicy)

theorem collect_financial (c : Collected) (record : EvidenceRecord) :
    (collect P policy s c record).financial =
      match factOf s record with
      | some r => add r.key r c.financial
      | none => c.financial := by
  unfold collect factOf
  split
  · cases record.payload with
    | ohlcv bar => rfl
    | financial fact => by_cases hmetric : fact.metric ∈ metrics <;> simp [hmetric, Reported.key]
    | document fact =>
      simp only [collectDocument]
      split_ifs <;> rfl
  · rfl

theorem foldl_collect_financial (records : List EvidenceRecord) (c : Collected) (hsound : Sound c.financial) :
    Sound (records.foldl (collect P policy s) c).financial ∧
      ∀ key, get key (records.foldl (collect P policy s) c).financial =
        get key c.financial ++ (records.filterMap (factOf s)).filter fun r => r.key = key := by
  induction records generalizing c with
  | nil => exact ⟨hsound, by simp⟩
  | cons record records ih =>
    rw [foldl_cons]
    have hstep := collect_financial s P policy c record
    cases hfact : factOf s record with
    | none =>
      rw [hfact] at hstep
      simpa only [filterMap_cons, hfact, hstep] using ih (collect P policy s c record) (hstep ▸ hsound)
    | some r =>
      rw [hfact] at hstep
      obtain ⟨hsound', hget⟩ := ih (collect P policy s c record) (hstep ▸ hsound.add r.key r)
      refine ⟨hsound', fun key => ?_⟩
      rw [hget, hstep, get_add, filterMap_cons, hfact, filter_cons, append_assoc]
      by_cases hkey : r.key = key <;> simp [hkey]

theorem mem_financial {rows : List Reported} :
    (key, rows) ∈ (collected P policy s).financial ↔ rows = facts s key ∧ rows ≠ [] := by
  obtain ⟨hsound, hget⟩ := foldl_collect_financial s P policy s.evidence {} Sound.nil
  have hfacts : get key (collected P policy s).financial = facts s key := hget key
  rw [← hfacts]
  exact hsound.mem_iff

theorem channel_collected : ∀ reason ∈ (collected P policy s).reasons, reason.channel = "catalyst" := by
  have hstep : ∀ (c : Collected) record, (∀ reason ∈ c.reasons, reason.channel = "catalyst") →
      ∀ reason ∈ (collect P policy s c record).reasons, reason.channel = "catalyst" := by
    intro c record hc
    unfold collect
    split
    · cases record.payload with
      | ohlcv bar => exact hc
      | financial fact =>
        dsimp only
        split <;> exact hc
      | document fact =>
        dsimp only [collectDocument]
        split_ifs
        · exact hc
        · intro reason hreason
          rcases Rows.mem_snoc.mp hreason with hold | rfl
          · exact hc reason hold
          · rfl
        · exact hc
        · exact hc
    · exact hc
  have hfold : ∀ (records : List EvidenceRecord) (c : Collected), (∀ reason ∈ c.reasons, reason.channel = "catalyst") →
      ∀ reason ∈ (records.foldl (collect P policy s) c).reasons, reason.channel = "catalyst" := by
    intro records
    induction records with
    | nil => exact fun c hc => hc
    | cons record records ih => exact fun c hc => ih _ (hstep c record hc)
  exact hfold s.evidence {} (by simp)

/-! ### Discovered pairs -/

def Yields (key : String × String) : Prop :=
  ∃ reason ∈ documentaryDiscovery P percent policy s, reason.channel = "fundamental" ∧
    ∃ prior ∈ facts s key, ∃ current ∈ facts s key, reason.evidenceIds = [prior.1.evidenceId, current.1.evidenceId]

def Changed (key : String × String) : Prop :=
  ∃ prior ∈ facts s key, ∃ current ∈ facts s key, prior.2.periodEnd < current.2.periodEnd ∧
    (∀ r ∈ facts s key, r.2.periodEnd ≤ prior.2.periodEnd ∨ r.2.periodEnd = current.2.periodEnd) ∧
    prior.2.value ≠ 0 ∧ policy.financialChangeFraction ≤ |relativeChange P prior.2.value current.2.value|

def Repeated (key : String × String) : Prop :=
  ∃ a ∈ facts s key, ∃ b ∈ facts s key, a.1.evidenceId ≠ b.1.evidenceId ∧ a.2.periodEnd = b.2.periodEnd ∧
    ∀ r ∈ facts s key, r.2.periodEnd ≤ a.2.periodEnd

def Functional : Prop := ∀ key, ∀ a ∈ facts s key, ∀ b ∈ facts s key, a.2.periodEnd = b.2.periodEnd → a.2.value = b.2.value

theorem fundamentalReason_eq_some {group : (String × String) × List Reported} {reason : DiscoveryReason} :
    fundamentalReason P percent policy group = some reason →
      reason.channel = "fundamental" ∧ ∃ prior ∈ group.2, ∃ current ∈ group.2,
        reason.evidenceIds = [prior.1.evidenceId, current.1.evidenceId] := by
  intro h
  unfold fundamentalReason at h
  split at h
  case h_1 => cases h
  case h_2 prior current hlast =>
    obtain ⟨rest, hperm, -⟩ := lastTwo_eq_some _ hlast
    split at h
    · cases h
    · split at h
      · cases h
        exact ⟨rfl, prior, hperm.mem_iff.mpr (by simp), current, hperm.mem_iff.mpr (by simp), rfl⟩
      · cases h

theorem yields_iff (ids : s.evidenceIds.Nodup) (key : String × String) :
    Yields s P percent policy key ↔ (fundamentalReason P percent policy (key, facts s key)).isSome := by
  have hmem : ∀ reason : DiscoveryReason,
      reason ∈ ((collected P policy s).financial.insertionSort keyBefore).filterMap (fundamentalReason P percent policy) ↔
        ∃ key', fundamentalReason P percent policy (key', facts s key') = some reason := by
    intro reason
    simp only [mem_filterMap, mem_insertionSort]
    constructor
    · rintro ⟨⟨key', rows⟩, hgroup, hreason⟩
      obtain ⟨rfl, -⟩ := (mem_financial s P policy).mp hgroup
      exact ⟨key', hreason⟩
    · rintro ⟨key', hreason⟩
      refine ⟨(key', facts s key'), (mem_financial s P policy).mpr ⟨rfl, fun hempty => ?_⟩, hreason⟩
      obtain ⟨-, prior, hprior, -⟩ := fundamentalReason_eq_some P percent policy hreason
      rw [hempty] at hprior
      cases hprior
  constructor
  · rintro ⟨reason, hreason, hchannel, prior, hprior, current, hcurrent, hcited⟩
    rcases mem_append.mp hreason with hcatalyst | hfundamental
    · rw [channel_collected s P policy reason hcatalyst] at hchannel
      simp at hchannel
    · obtain ⟨key', hkey'⟩ := (hmem reason).mp hfundamental
      obtain ⟨-, prior', hprior', current', -, hcited'⟩ := fundamentalReason_eq_some P percent policy hkey'
      rw [hcited', List.cons.injEq] at hcited
      -- The first cited record is a fact of both pairs, which are therefore one.
      have hsame := eq_of_evidenceId_eq s ids hprior' hprior hcited.1
      have hkeys : key' = key := by
        rw [← ((mem_facts s).mp hprior').2.2, ← ((mem_facts s).mp hprior).2.2, hsame]
      rw [← hkeys, hkey']
      rfl
  · intro h
    obtain ⟨reason, hreason⟩ := Option.isSome_iff_exists.mp h
    obtain ⟨hchannel, hcited⟩ := fundamentalReason_eq_some P percent policy hreason
    exact ⟨reason, mem_append_right _ ((hmem reason).mpr ⟨key, hreason⟩), hchannel, hcited⟩

/-- The last two records of a pair: every other record is no later than the first of them. -/
structure Latest (key : String × String) (prior current : Reported) : Prop where
  prior_mem : prior ∈ facts s key
  current_mem : current ∈ facts s key
  ordered : prior.2.periodEnd ≤ current.2.periodEnd
  others : ∀ r ∈ facts s key, r.2.periodEnd ≤ prior.2.periodEnd ∨ r = current
  distinct : prior ≠ current

theorem latest_of_lastTwo (ids : s.evidenceIds.Nodup)
    (h : lastTwo (fun r => r.2.periodEnd) (facts s key) = some (prior, current)) : Latest s key prior current := by
  obtain ⟨rest, hperm, hle, hrest⟩ := lastTwo_eq_some _ h
  have hnodup := hperm.nodup_iff.mp (nodup_facts s ids key)
  refine ⟨hperm.mem_iff.mpr (by simp), hperm.mem_iff.mpr (by simp), hle, fun r hr => ?_, ?_⟩
  · rw [hperm.mem_iff, mem_cons, mem_cons] at hr
    rcases hr with rfl | rfl | hearlier
    · exact .inr rfl
    · exact .inl le_rfl
    · exact .inl (hrest r hearlier)
  · rintro rfl
    simp at hnodup

variable {s P policy}

theorem Latest.repeated_iff (h : Latest s key prior current)
    (ids : s.evidenceIds.Nodup) : Repeated s key ↔ prior.2.periodEnd = current.2.periodEnd := by
  have hordered := h.ordered
  constructor
  · rintro ⟨a, ha, b, hb, hne, hperiods, hlast⟩
    have hcurrent := hlast current h.current_mem
    -- One of the two is not the last record, so that it is no later than the last but one.
    by_cases hfirst : a = current
    · have hsecond := (h.others b hb).resolve_right (by rintro rfl; exact hne (by rw [hfirst]))
      omega
    · have hearlier := (h.others a ha).resolve_right hfirst
      omega
  · intro hsame
    refine ⟨prior, h.prior_mem, current, h.current_mem, fun hid => ?_, hsame, fun r hr => ?_⟩
    · exact h.distinct (eq_of_evidenceId_eq s ids h.prior_mem h.current_mem hid)
    · rcases h.others r hr with hearlier | rfl
      · exact hearlier
      · exact hsame.ge

theorem Latest.changed_iff (h : Latest s key prior current)
    (functional : Functional s) (hlt : prior.2.periodEnd < current.2.periodEnd) :
    Changed s P policy key ↔ prior.2.value ≠ 0 ∧
      policy.financialChangeFraction ≤ |relativeChange P prior.2.value current.2.value| := by
  constructor
  · rintro ⟨p, hp, c, hc, hpc, hothers, hzero, hchange⟩
    have hc' : c = current := by
      refine (h.others c hc).resolve_left fun hearly => ?_
      have hcurrent := hothers current h.current_mem
      omega
    subst hc'
    have hp' : p.2.periodEnd = prior.2.periodEnd := by
      have hbelow := (h.others p hp).resolve_right (by rintro rfl; exact lt_irrefl _ hpc)
      have habove := hothers prior h.prior_mem
      omega
    rw [functional key p hp prior h.prior_mem hp'] at hzero hchange
    exact ⟨hzero, hchange⟩
  · rintro ⟨hzero, hchange⟩
    refine ⟨prior, h.prior_mem, current, h.current_mem, hlt, fun r hr => ?_, hzero, hchange⟩
    exact (h.others r hr).imp id (by rintro rfl; rfl)

theorem yields_iff_changed (ids : s.evidenceIds.Nodup) (functional : Functional s) (key : String × String) :
    Yields s P percent policy key ↔ Changed s P policy key ∧ ¬ Repeated s key := by
  rw [yields_iff s P percent policy ids]
  unfold fundamentalReason
  dsimp only
  split
  case h_1 hnone =>
    simp only [Option.isSome_none, Bool.false_eq_true, false_iff, not_and_or]
    left
    rintro ⟨prior, hprior, current, hcurrent, hlt, -⟩
    rw [eq_of_lastTwo_eq_none _ hnone hprior hcurrent] at hlt
    exact lt_irrefl _ hlt
  case h_2 prior current hlast =>
    have hlatest := latest_of_lastTwo s ids hlast
    rw [hlatest.repeated_iff ids]
    by_cases hsame : prior.2.periodEnd = current.2.periodEnd
    · simp [hsame]
    · rw [hlatest.changed_iff functional (lt_of_le_of_ne hlatest.ordered hsame)]
      simp only [hsame, false_or, not_false_eq_true, and_true]
      split_ifs <;> simp_all

/-! ### Other orders and repeated facts -/

abbrev withEvidence (s : ResearchSnapshot) (evidence : List EvidenceRecord) : ResearchSnapshot := { s with evidence }

/-- Some usable record reports the value of the fact for its period, in whatever offset the end is written. -/
def Stated (s : ResearchSnapshot) (fact : FinancialFact) : Prop :=
  ∃ r ∈ facts s (fact.metric, fact.unit), r.2.value = fact.value ∧ r.2.periodEnd = fact.periodEnd

def SameFacts (s t : ResearchSnapshot) : Prop := ∀ fact, Stated s fact ↔ Stated t fact

theorem exists_fact_of_same (same : SameFacts s t) (hr : r ∈ facts s key) :
    ∃ r' ∈ facts t key, r'.2.value = r.2.value ∧ r'.2.periodEnd = r.2.periodEnd := by
  obtain ⟨-, -, rfl⟩ := (mem_facts s).mp hr
  exact (same r.2).mp ⟨r, hr, rfl, rfl⟩

theorem SameFacts.changed (same : SameFacts s t) (h : Changed s P policy key) : Changed t P policy key := by
  obtain ⟨prior, hprior, current, hcurrent, hlt, hothers, hchange⟩ := h
  obtain ⟨prior', hprior', hvalue, hend⟩ := exists_fact_of_same same hprior
  obtain ⟨current', hcurrent', hvalue', hend'⟩ := exists_fact_of_same same hcurrent
  refine ⟨prior', hprior', current', hcurrent', by rwa [hend, hend'], fun r hr => ?_, by rwa [hvalue, hvalue']⟩
  obtain ⟨r', hr', -, hperiod⟩ := exists_fact_of_same (fun fact => (same fact).symm) hr
  rw [hend, hend', ← hperiod]
  exact hothers r' hr'

theorem SameFacts.functional (same : SameFacts s t) (h : Functional s) : Functional t := by
  intro key a ha b hb hperiod
  obtain ⟨a', ha', hvalue, hend⟩ := exists_fact_of_same (fun fact => (same fact).symm) ha
  obtain ⟨b', hb', hvalue', hend'⟩ := exists_fact_of_same (fun fact => (same fact).symm) hb
  rw [← hvalue, ← hvalue']
  exact h key a' ha' b' hb' (by rw [hend, hend', hperiod])

variable {evidence : List EvidenceRecord}

theorem facts_perm (h : evidence.Perm s.evidence) (key : String × String) :
    (facts (withEvidence s evidence) key).Perm (facts s key) :=
  (h.filterMap (factOf s)).filter _

theorem sameFacts_of_perm (h : evidence.Perm s.evidence) : SameFacts s (withEvidence s evidence) := fun fact => by
  simp only [Stated, (facts_perm h _).mem_iff]

/-- The record delivers a fact that the snapshot has. -/
def Repeats (s : ResearchSnapshot) (record : EvidenceRecord) : Prop := ∃ fact, record.payload = .financial fact ∧ Stated s fact

theorem sameFacts_of_repeats (repeats : Repeats s record)
    (h : evidence.Perm (record :: s.evidence)) : SameFacts s (withEvidence s evidence) := by
  obtain ⟨fact, hpayload, hstated⟩ := repeats
  have hmem : ∀ key r, r ∈ facts (withEvidence s evidence) key ↔
      r ∈ facts s key ∨ factOf s record = some r ∧ r.key = key := by
    intro key r
    rw [mem_facts, mem_facts]
    show r.1 ∈ evidence ∧ factOf s r.1 = some r ∧ r.key = key ↔ _
    rw [h.mem_iff, mem_cons, or_and_right, or_comm]
    refine or_congr_right ⟨?_, fun ⟨hfact, hkey⟩ => ?_⟩
    · rintro ⟨rfl, hfact, hkey⟩
      exact ⟨hfact, hkey⟩
    · obtain ⟨hrecord, -⟩ := factOf_eq_some s hfact
      exact ⟨hrecord, by rw [hrecord]; exact hfact, hkey⟩
  intro fact'
  constructor
  · rintro ⟨r, hr, same⟩
    exact ⟨r, (hmem _ r).mpr (.inl hr), same⟩
  · rintro ⟨r, hr, same⟩
    rcases (hmem _ r).mp hr with hold | ⟨hnew, hkey⟩
    · exact ⟨r, hold, same⟩
    · -- the new record states what another one does already
      obtain ⟨-, hsame⟩ := factOf_eq_some s hnew
      rw [hpayload] at hsame
      cases hsame
      obtain ⟨r', hr', hvalue, hend⟩ := hstated
      exact ⟨r', hkey ▸ hr', hvalue.trans same.1, hend.trans same.2⟩

variable (s P policy)

/-- Fundamental discovery is a function of the distinct facts exactly as far as no pair that changed has two records for
    its latest period. -/
theorem fundamental_discovery_iff (ids : s.evidenceIds.Nodup) (functional : Functional s) :
    ((∀ key, Yields s P percent policy key ↔ Changed s P policy key) ↔ ∀ key, Changed s P policy key → ¬ Repeated s key) ∧
    (∀ evidence, evidence.Perm s.evidence → ∀ key,
      Yields (withEvidence s evidence) P percent policy key ↔ Yields s P percent policy key) ∧
    ∀ record evidence, Repeats s record → evidence.Perm (record :: s.evidence) →
      (withEvidence s evidence).evidenceIds.Nodup →
      ((∀ key, Yields s P percent policy key → Yields (withEvidence s evidence) P percent policy key) ↔
        ∀ key, Changed s P policy key → Repeated (withEvidence s evidence) key → Repeated s key) := by
  have hyields : ∀ key, Yields s P percent policy key ↔ Changed s P policy key ∧ ¬ Repeated s key :=
    yields_iff_changed percent ids functional
  refine ⟨?_, fun evidence hperm key => ?_, fun record evidence hrepeats hperm hids => ?_⟩
  · simp only [hyields, and_iff_left_iff_imp]
  · have hids : (withEvidence s evidence).evidenceIds.Nodup := (hperm.map _).nodup_iff.mpr ids
    have hsame := sameFacts_of_perm hperm
    have hrepeated : Repeated (withEvidence s evidence) key ↔ Repeated s key := by
      simp only [Repeated, (facts_perm hperm key).mem_iff]
    rw [hyields, yields_iff_changed percent hids (hsame.functional functional), hrepeated]
    exact and_congr_left fun _ => ⟨SameFacts.changed fun fact => (hsame fact).symm, hsame.changed⟩
  · have hsame := sameFacts_of_repeats hrepeats hperm
    have hadded : ∀ key, Yields (withEvidence s evidence) P percent policy key ↔
        Changed (withEvidence s evidence) P policy key ∧ ¬ Repeated (withEvidence s evidence) key :=
      yields_iff_changed percent hids (hsame.functional functional)
    simp only [hyields, hadded]
    constructor
    · intro h key hchanged hrepeated
      by_contra honce
      exact (h key ⟨hchanged, honce⟩).2 hrepeated
    · rintro h key ⟨hchanged, honce⟩
      exact ⟨hsame.changed hchanged, fun hrepeated => honce (h key hchanged hrepeated)⟩

end

/-! ### Accounts delivered twice -/

/-- A cash figure at the end of a day, in the accounts that a provider delivers. -/
def cashRecord (id provider : String) (value : Rat) (day : Int) : EvidenceRecord where
  evidenceId := id
  snapshotId := "snapshot"
  source := "accounts"
  provider := provider
  sourceId := id
  canonicalSourceId := "accounts-" ++ toString day
  observationTime := days day
  publicationTime := some (days day)
  retrievalTime := days 20714
  freshUntil := days 20720
  pitSafe := true
  payload := .financial { metric := "cash", value, unit := "GBP", periodEnd := days day }

def yearlyAccounts : ResearchSnapshot :=
  withEvidence clearedRequest.snapshot [cashRecord "earlier" "register" 100 20000, cashRecord "later" "register" 200 20365]

def secondDelivery : EvidenceRecord := cashRecord "again" "vendor" 200 20365

theorem functional_of_forall {s : ResearchSnapshot} (h : ∀ a ∈ s.evidence.filterMap (factOf s),
    ∀ b ∈ s.evidence.filterMap (factOf s), a.2.periodEnd = b.2.periodEnd → a.2.value = b.2.value) : Functional s :=
  fun _ a ha b hb => h a (mem_filter.mp ha).1 b (mem_filter.mp hb).1

theorem repeated_fact_removes_discovery :
    Functional yearlyAccounts ∧ Repeats yearlyAccounts secondDelivery ∧
      (documentaryDiscovery plainPlatform (fun _ => "") {} yearlyAccounts).map (·.evidenceIds) = [["earlier", "later"]] ∧
      documentaryDiscovery plainPlatform (fun _ => "") {}
        (withEvidence yearlyAccounts (secondDelivery :: yearlyAccounts.evidence)) = [] := by
  refine ⟨functional_of_forall (by decide +kernel), ⟨_, rfl, ?_⟩, by decide +kernel, by decide +kernel⟩
  unfold Stated
  decide +kernel

theorem fundamental_discovery_iff_yearly :
    yearlyAccounts.evidenceIds.Nodup ∧ Functional yearlyAccounts ∧
      ((∀ key, Yields yearlyAccounts plainPlatform (fun _ => "") {} key ↔ Changed yearlyAccounts plainPlatform {} key) ↔
        ∀ key, Changed yearlyAccounts plainPlatform {} key → ¬ Repeated yearlyAccounts key) := by
  have hids : yearlyAccounts.evidenceIds.Nodup := by decide +kernel
  have hfunctional : Functional yearlyAccounts := functional_of_forall (by decide +kernel)
  exact ⟨hids, hfunctional, (fundamental_discovery_iff yearlyAccounts plainPlatform _ {} hids hfunctional).1⟩

end Money.Discovery
