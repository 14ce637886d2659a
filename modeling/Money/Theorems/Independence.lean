import Money.Generation
import Money.Theorems.Text

/-! The strength of independence counts sources, families and providers. One more citation of a cited source leaves the
    sources and every overlap, but it is counted among the providers and, for a claim that cited nothing, among the
    families. -/

namespace Money
open Checked List

section
variable {α : Type} [BEq α] [LawfulBEq α]

theorem length_eraseDups_congr {l m : List α} (h : ∀ a, a ∈ l ↔ a ∈ m) : l.eraseDups.length = m.eraseDups.length := by
  refine List.Perm.length_eq ((perm_ext_iff_of_nodup (nodup_eraseDups l) (nodup_eraseDups m)).mpr fun a => ?_)
  rw [mem_eraseDups, mem_eraseDups, h]

end

theorem overlap_congr {before after : List (List String)} {l m : List String} (h : ∀ a, a ∈ l ↔ a ∈ m) :
    overlap (before ++ l :: after) = overlap (before ++ m :: after) := by
  have hunion : (before ++ l :: after).flatten.eraseDups.length = (before ++ m :: after).flatten.eraseDups.length := by
    refine length_eraseDups_congr fun a => ?_
    simp only [flatten_append, flatten_cons, mem_append, h]
  simp only [overlap, hunion, map_append, map_cons, length_eraseDups_congr h]

/-! ### Citations -/

section
variable (s : ResearchSnapshot)

def recordOf (id : String) : Option EvidenceRecord := s.evidence.reverse.find? fun e => e.evidenceId = id

def citations (r : FirmReport) : List (ReportClaim × EvidenceRecord) :=
  r.claims.flatMap fun c => c.evidenceIds.filterMap fun id => (recordOf s id).map fun e => (c, e)

def citedSources (r : FirmReport) : List String := (citations s r).map (·.2.canonicalSourceId)

variable (reports : List FirmReport)

def citedFamilies : List Family := (reports.flatMap (citations s)).map (·.1.family)

def citedProviders : List String := (reports.flatMap (citations s)).map (·.2.provider)

theorem mem_citations {r : FirmReport} {c : ReportClaim} {e : EvidenceRecord} :
    (c, e) ∈ citations s r ↔ c ∈ r.claims ∧ ∃ id ∈ c.evidenceIds, recordOf s id = some e := by
  simp only [citations, mem_flatMap, mem_filterMap, Option.map_eq_some_iff, Prod.mk.injEq]
  constructor
  · rintro ⟨_, hc, id, hid, _, he, rfl, rfl⟩
    exact ⟨hc, id, hid, he⟩
  · rintro ⟨hc, id, hid, he⟩
    exact ⟨c, hc, id, hid, e, he, rfl, rfl⟩

theorem citedRecords_eq_ok {r : FirmReport} {rows : List (ReportClaim × EvidenceRecord)} :
    citedRecords s r.claims = .ok rows ↔
      (∀ c ∈ r.claims, ∀ id ∈ c.evidenceIds, (recordOf s id).isSome) ∧ rows = citations s r := by
  have hstep : (fun (p : ReportClaim × String) => (do
      let record ← demand (s.evidence.reverse.find? fun e => e.evidenceId = p.2)
        (Err.value "report cites evidence outside the snapshot")
      pure (p.1, record) : Except Err _)) =
      fun p => demand ((recordOf s p.2).map fun e => (p.1, e)) (.value "report cites evidence outside the snapshot") := by
    funext p
    simp only [recordOf]
    cases s.evidence.reverse.find? fun e => e.evidenceId = p.2 <;> rfl
  have hrows : ((r.claims.flatMap fun c => c.evidenceIds.map fun id => (c, id)).filterMap fun p =>
      (recordOf s p.2).map fun e => (p.1, e)) = citations s r := by
    simp only [citations, filterMap_flatMap, filterMap_map]
    rfl
  have hcited : citedRecords s r.claims = (r.claims.flatMap fun c => c.evidenceIds.map fun id => (c, id)).mapM fun p =>
      demand ((recordOf s p.2).map fun e => (p.1, e)) (.value "report cites evidence outside the snapshot") := by
    rw [← hstep]
    rfl
  rw [hcited, mapM_demand_eq_ok, hrows]
  simp only [mem_flatMap, mem_map, Option.isSome_map]
  refine and_congr_left fun _ => ⟨fun h c hc id hid => h (c, id) ⟨c, hc, id, hid, rfl⟩, ?_⟩
  rintro h _ ⟨c, hc, id, hid, rfl⟩
  exact h c hc id hid

def Cited : Prop :=
  ∀ r ∈ reports, ∀ c ∈ r.claims, ∀ id ∈ c.evidenceIds, (recordOf s id).isSome

theorem mapM_citedRecords_eq_ok {reports : List FirmReport} {cited : List (List (ReportClaim × EvidenceRecord))} :
    (reports.mapM fun r => citedRecords s r.claims) = .ok cited ↔ Cited s reports ∧ cited = reports.map (citations s) := by
  induction reports generalizing cited with
  | nil =>
    rw [mapM_nil, pure_eq_ok]
    exact ⟨fun h => ⟨by simp [Cited], h.symm⟩, fun h => h.2.symm⟩
  | cons r reports ih =>
    simp only [mapM_cons, ok_iff, citedRecords_eq_ok, ih, Cited, forall_mem_cons, map_cons]
    constructor
    · rintro ⟨_, ⟨hr, rfl⟩, _, ⟨hreports, rfl⟩, rfl⟩
      exact ⟨⟨hr, hreports⟩, rfl⟩
    · rintro ⟨⟨hr, hreports⟩, rfl⟩
      exact ⟨_, ⟨hr, rfl⟩, _, ⟨hreports, rfl⟩, rfl⟩

def sourceCount : Nat := (reports.flatMap (citedSources s)).eraseDups.length

def sourceOverlap : Rat := overlap (reports.map (citedSources s))

def largestOverlap : Rat :=
  max (max (sourceOverlap s reports) (overlap (reports.map fun r =>
      r.modelFamily :: (match r.llmProviderFamily with
        | some family => if family = "" then [] else [family]
        | none => []))))
    (max (overlap (reports.map (·.featureFamilies))) (overlap (reports.map (·.argumentFamilies))))

def strengthWith (families providers : Nat) : Strength :=
  if 5 ≤ sourceCount s reports ∧ 3 ≤ families ∧ 2 ≤ providers ∧ largestOverlap s reports < 2 / 5 then .high
  else if 3 ≤ sourceCount s reports ∧ 2 ≤ families ∧ sourceOverlap s reports < 3 / 5 then .medium
  else .low

theorem evidenceIndependence_strength {reports : List FirmReport} {strength : Strength} :
    (∃ report, evidenceIndependence s reports = .ok report ∧ report.strength = strength) ↔
      Cited s reports ∧ strengthWith s reports (citedFamilies s reports).eraseDups.length
        (citedProviders s reports).eraseDups.length = strength := by
  have hsources : ((reports.map (citations s)).map fun rows => rows.map (·.2.canonicalSourceId)) =
      reports.map (citedSources s) := by
    rw [map_map]
    rfl
  simp only [evidenceIndependence, ok_iff, mapM_citedRecords_eq_ok]
  constructor
  · rintro ⟨_, ⟨_, ⟨hcited, rfl⟩, rfl⟩, rfl⟩
    refine ⟨hcited, ?_⟩
    simp only [hsources, strengthWith, sourceCount, sourceOverlap, largestOverlap, citedFamilies, citedProviders,
      flatMap_def]
    rfl
  · rintro ⟨hcited, rfl⟩
    refine ⟨_, ⟨_, ⟨hcited, rfl⟩, rfl⟩, ?_⟩
    simp only [hsources, strengthWith, sourceCount, sourceOverlap, largestOverlap, citedFamilies, citedProviders,
      flatMap_def]
    rfl

end

/-! ### One more citation of a source -/

def Strength.rank : Strength → Nat
  | low => 0
  | medium => 1
  | high => 2

/-- A claim of a report, and a record of the snapshot whose source that report already cites. -/
structure Duplicate (s : ResearchSnapshot) where
  before : List FirmReport
  report : FirmReport
  after : List FirmReport
  first : List ReportClaim
  claim : ReportClaim
  rest : List ReportClaim
  record : EvidenceRecord
  evidenceIds : List String
  claims : report.claims = first ++ claim :: rest
  known : recordOf s record.evidenceId = some record
  added : evidenceIds.Perm (record.evidenceId :: claim.evidenceIds)
  same : record.canonicalSourceId ∈ citedSources s report

namespace Duplicate
variable {s : ResearchSnapshot} (d : Duplicate s)

def reports : List FirmReport := d.before ++ d.report :: d.after

def revised : FirmReport :=
  { d.report with claims := d.first ++ { d.claim with evidenceIds := d.evidenceIds } :: d.rest }

def cited : List FirmReport := d.before ++ d.revised :: d.after

/-- The citation brings the families or the providers up to the number that the next strength asks for. -/
def Completes : Prop :=
  (5 ≤ sourceCount s d.reports ∧ largestOverlap s d.reports < 2 / 5 ∧
    3 ≤ (d.claim.family :: citedFamilies s d.reports).eraseDups.length ∧
    2 ≤ (d.record.provider :: citedProviders s d.reports).eraseDups.length ∧
    ¬ (3 ≤ (citedFamilies s d.reports).eraseDups.length ∧ 2 ≤ (citedProviders s d.reports).eraseDups.length)) ∨
  (3 ≤ sourceCount s d.reports ∧ sourceOverlap s d.reports < 3 / 5 ∧
    2 ≤ (d.claim.family :: citedFamilies s d.reports).eraseDups.length ∧
    (citedFamilies s d.reports).eraseDups.length < 2)

theorem mem_values {β : Type} (f : Family → EvidenceRecord → β) (x : β) :
    x ∈ (citations s d.revised).map (fun p => f p.1.family p.2) ↔
      x = f d.claim.family d.record ∨ x ∈ (citations s d.report).map fun p => f p.1.family p.2 := by
  have hvalue : ∀ r, x ∈ (citations s r).map (fun p => f p.1.family p.2) ↔
      ∃ c ∈ r.claims, ∃ id ∈ c.evidenceIds, ∃ e, recordOf s id = some e ∧ f c.family e = x := by
    intro r
    rw [mem_map]
    constructor
    · rintro ⟨⟨c, e⟩, hp, hx⟩
      obtain ⟨hc, id, hid, he⟩ := (mem_citations s).mp hp
      exact ⟨c, hc, id, hid, e, he, hx⟩
    · rintro ⟨c, hc, id, hid, e, he, hx⟩
      exact ⟨(c, e), (mem_citations s).mpr ⟨hc, id, hid, he⟩, hx⟩
  rw [hvalue, hvalue, d.claims]
  simp only [revised, mem_append, mem_cons, or_and_right, exists_or, exists_eq_left, d.added.mem_iff, d.known,
    Option.some.injEq, exists_eq_left']
  rw [eq_comm, or_assoc, or_left_comm]

theorem mem_citedSources (x : String) : x ∈ citedSources s d.revised ↔ x ∈ citedSources s d.report := by
  have hvalues := d.mem_values (fun _ e => e.canonicalSourceId) x
  refine hvalues.trans (or_iff_right_of_imp ?_)
  rintro rfl
  exact d.same

theorem mem_citedFamilies (x : Family) : x ∈ citedFamilies s d.cited ↔ x ∈ d.claim.family :: citedFamilies s d.reports := by
  have hvalues := d.mem_values (fun family _ => family) x
  simp only [citedFamilies, cited, reports, flatMap_append, flatMap_cons, map_append, mem_append,
    mem_cons, hvalues]
  tauto

theorem mem_citedProviders (x : String) :
    x ∈ citedProviders s d.cited ↔ x ∈ d.record.provider :: citedProviders s d.reports := by
  have hvalues := d.mem_values (fun _ e => e.provider) x
  simp only [citedProviders, cited, reports, flatMap_append, flatMap_cons, map_append, mem_append,
    mem_cons, hvalues]
  tauto

theorem sourceCount_cited : sourceCount s d.cited = sourceCount s d.reports := by
  refine length_eraseDups_congr fun x => ?_
  simp only [cited, reports, flatMap_append, flatMap_cons, mem_append, d.mem_citedSources]

theorem sourceOverlap_cited : sourceOverlap s d.cited = sourceOverlap s d.reports := by
  simp only [sourceOverlap, cited, reports, map_append, map_cons]
  exact overlap_congr d.mem_citedSources

theorem largestOverlap_cited : largestOverlap s d.cited = largestOverlap s d.reports := by
  rw [largestOverlap, d.sourceOverlap_cited, largestOverlap]
  simp only [cited, reports, map_append, map_cons, revised]

theorem cited_of_cited (h : Cited s d.reports) : Cited s d.cited := by
  have hreport : ∀ c ∈ d.report.claims, ∀ id ∈ c.evidenceIds, (recordOf s id).isSome :=
    h d.report (mem_append_right _ mem_cons_self)
  intro r hr
  rcases mem_append.mp hr with hbefore | hlater
  · exact h r (mem_append_left _ hbefore)
  rcases mem_cons.mp hlater with rfl | hafter
  · intro c hc id hid
    rw [d.claims] at hreport
    simp only [revised, mem_append, mem_cons] at hc hreport
    rcases hc with hfirst | rfl | hrest
    · exact hreport c (.inl hfirst) id hid
    · rcases mem_cons.mp (d.added.mem_iff.mp hid) with rfl | hold
      · simp [d.known]
      · exact hreport d.claim (.inr (.inl rfl)) id hold
    · exact hreport c (.inr (.inr hrest)) id hid
  · exact h r (mem_append_right _ (mem_cons_of_mem _ hafter))

/-- The strength does not rise exactly if the citation completes neither count. -/
theorem duplicate_source_no_stronger_iff {b : EvidenceIndependenceReport} (h : evidenceIndependence s d.reports = .ok b) :
    ∃ a, evidenceIndependence s d.cited = .ok a ∧ (a.strength.rank ≤ b.strength.rank ↔ ¬ d.Completes) := by
  obtain ⟨hcited, hbefore⟩ := (evidenceIndependence_strength s).mp ⟨b, h, rfl⟩
  obtain ⟨a, ha, hafter⟩ := (evidenceIndependence_strength s).mpr ⟨d.cited_of_cited hcited, rfl⟩
  refine ⟨a, ha, ?_⟩
  rw [length_eraseDups_congr d.mem_citedFamilies, length_eraseDups_congr d.mem_citedProviders] at hafter
  rw [hafter, ← hbefore]
  simp only [strengthWith, d.sourceCount_cited, d.sourceOverlap_cited, d.largestOverlap_cited, Completes]
  grind [Strength.rank]

def wireRecord (id provider canonicalSource : String) : EvidenceRecord where
  evidenceId := id
  snapshotId := "snapshot"
  source := "newswire"
  provider := provider
  sourceId := id
  canonicalSourceId := canonicalSource
  observationTime := days 20713
  publicationTime := some (days 20713)
  retrievalTime := days 20713
  freshUntil := days 20720
  pitSafe := true
  payload := .document { kind := .news, title := "title", excerpt := "excerpt", url := "https://news.example" }

def wireSnapshot : ResearchSnapshot :=
  { clearedRequest.snapshot with
    evidence :=
      [wireRecord "a" "alpha" "story-1", wireRecord "b" "alpha" "story-2", wireRecord "c" "alpha" "story-3",
        wireRecord "d" "alpha" "story-4", wireRecord "e" "alpha" "story-5", wireRecord "f" "beta" "story-1"] }

def wireDuplicate : Duplicate wireSnapshot where
  before := []
  report :=
    { sampleReport .tradingagents with
      claims := [{ claimId := "1", family := .technical, evidenceIds := ["a", "b"] },
        { claimId := "2", family := .fundamental, evidenceIds := ["c"] }]
      modelFamily := "first", featureFamilies := ["price"], argumentFamilies := ["momentum"] }
  after :=
    [{ sampleReport .aiHedgeFund with
      claims := [{ claimId := "3", family := .catalyst, evidenceIds := ["d", "e"] }]
      modelFamily := "second", featureFamilies := ["news"], argumentFamilies := ["event"] }]
  first := []
  claim := { claimId := "1", family := .technical, evidenceIds := ["a", "b"] }
  rest := [{ claimId := "2", family := .fundamental, evidenceIds := ["c"] }]
  record := wireRecord "f" "beta" "story-1"
  evidenceIds := ["f", "a", "b"]
  claims := rfl
  known := by decide
  added := .refl _
  same := by decide

theorem duplicate_source_raises_strength :
    (evidenceIndependence wireSnapshot wireDuplicate.reports).map (·.strength) = .ok .medium ∧
      (evidenceIndependence wireSnapshot wireDuplicate.cited).map (·.strength) = .ok .high := by
  decide +kernel

theorem duplicate_source_no_stronger_iff_wire : ∃ b a, evidenceIndependence wireSnapshot wireDuplicate.reports = .ok b ∧
      evidenceIndependence wireSnapshot wireDuplicate.cited = .ok a ∧
      (a.strength.rank ≤ b.strength.rank ↔ ¬ wireDuplicate.Completes) := by
  have hcited : Cited wireSnapshot wireDuplicate.reports := by
    unfold Cited
    decide
  obtain ⟨b, hb, -⟩ := (evidenceIndependence_strength wireSnapshot).mpr ⟨hcited, rfl⟩
  obtain ⟨a, ha, hiff⟩ := wireDuplicate.duplicate_source_no_stronger_iff hb
  exact ⟨b, a, hb, ha, hiff⟩

end Duplicate
end Money
