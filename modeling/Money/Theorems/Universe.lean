import Money.Library.Rows
import Money.Library.Ranking
import Money.Generation
import Money.Theorems.Text
import Money.Universe

/-! Every member is screened by itself, and the selected ones are the first of the ranking of those whose window can be
    used. -/

namespace Money
open Checked List UniverseScore Screened

variable {U : UniversePlatform}

def tradedGbp (P : Platform) (bar : PriceBar) : Rat :=
  P.round ((match bar.currency with
    | .gbp => bar.close
    | .gbx => P.round (bar.close / 100)) * bar.volume)

def meanTradedValue (P : Platform) (policy : UniverseScreenPolicy) (s : ResearchSnapshot) : Rat :=
  meanOf P ((screenWindow policy s).map fun r => tradedGbp P r.2)

variable {P : Platform} {quote : String} {m : FrozenUniverseMember} {x : Screened} {screen : UniverseScreen}
  {s : ResearchSnapshot}

theorem tradedValue_eq_ok {bar : PriceBar} {value : Rat} :
    tradedValue P quote bar = .ok value ↔ bar.currency.code = quote ∧ 0 < bar.close ∧ tradedGbp P bar = value := by
  simp only [tradedValue, priceGbp, tradedGbp, ok_iff]
  cases bar.currency <;> simp [pure_eq_ok]

theorem mapM_tradedValue_eq_ok {values : List Rat}
    {window : List (EvidenceRecord × PriceBar)} : (window.mapM fun r => tradedValue P quote r.2) = .ok values ↔
      (∀ r ∈ window, r.2.currency.code = quote ∧ 0 < r.2.close) ∧ (window.map fun r => tradedGbp P r.2) = values :=
  mapM_eq_ok_iff fun r _ v => by rw [tradedValue_eq_ok, and_assoc]

def Screened.ticker : Screened → String
  | .scored score => score.ticker
  | .unresolved entry => entry.ticker

/-- How the screen treats a member: without evidence, with an incomplete window, or with a score. -/
inductive ScreenedAs (P : Platform) (snapshots : List ResearchSnapshot) (at_ : Int) (policy : UniverseScreenPolicy)
    (m : FrozenUniverseMember) : Screened → Prop
  | missing (unfrozen : m.snapshotHash = none) (absent : ∀ s ∈ snapshots, s.ticker ≠ m.instrument.ticker) :
    ScreenedAs P snapshots at_ policy m (.unresolved {
      ticker := m.instrument.ticker, snapshotHash := none, state := .unresolvedData, reason := m.evidenceStatus })
  | incomplete (s : ResearchSnapshot) (found : (snapshots.find? fun s => s.ticker = m.instrument.ticker) = some s)
      (hash : m.snapshotHash = some s.hash) (incomplete : ¬ CompleteWindow policy at_ s) :
    ScreenedAs P snapshots at_ policy m (.unresolved {
      ticker := m.instrument.ticker, snapshotHash := some s.hash, state := .unresolvedData
      reason := "SCREEN_CURRENT_PIT_HISTORY_REQUIRED" })
  | scored (s : ResearchSnapshot) (found : (snapshots.find? fun s => s.ticker = m.instrument.ticker) = some s)
      (hash : m.snapshotHash = some s.hash) (complete : CompleteWindow policy at_ s)
      (priced : ∀ r ∈ screenWindow policy s, r.2.currency.code = s.instrument.quoteCurrency ∧ 0 < r.2.close) :
    ScreenedAs P snapshots at_ policy m (.scored {
      value := meanTradedValue P policy s, ticker := m.instrument.ticker, snapshotHash := s.hash
      evidenceIds := (screenWindow policy s).map (·.1.evidenceId) })

variable {at_ : Int} {policy : UniverseScreenPolicy} {snapshots : List ResearchSnapshot}

theorem ScreenedAs.ticker (h : ScreenedAs P snapshots at_ policy m x) : x.ticker = m.instrument.ticker := by
  cases h <;> rfl

theorem screenMember_eq_ok :
    screenMember U snapshots at_ policy m = .ok x ↔ ScreenedAs U.toPlatform snapshots at_ policy m x := by
  unfold screenMember
  constructor
  · intro h
    cases hash : m.snapshotHash with
    | none =>
      simp only [hash, ok_iff] at h
      obtain ⟨absent, rfl⟩ := h
      exact .missing hash fun s hs => by simpa using List.find?_eq_none.mp absent s hs
    | some hash' =>
      simp only [hash, ok_iff, Option.filter_eq_some_iff, decide_eq_true_eq] at h
      obtain ⟨s, ⟨found, rfl⟩, h⟩ := h
      have ticker : s.ticker = m.instrument.ticker := by simpa using List.find?_some found
      split at h
      next complete =>
        simp only [ok_iff, mapM_tradedValue_eq_ok] at h
        obtain ⟨_, ⟨priced, rfl⟩, rfl⟩ := h
        rw [ticker]
        exact .scored s found hash complete priced
      next incomplete =>
        cases h
        exact .incomplete s found hash incomplete
  · intro h
    cases h with
    | missing unfrozen absent =>
      simp only [unfrozen, ok_iff, and_true]
      exact List.find?_eq_none.mpr fun s hs => by simpa using absent s hs
    | incomplete s found hash incomplete =>
      simp only [hash, found, ok_iff]
      exact ⟨s, by simp, by rw [if_neg incomplete]; rfl⟩
    | scored s found hash complete priced =>
      have ticker : s.ticker = m.instrument.ticker := by simpa using List.find?_some found
      simp only [hash, found, ok_iff]
      refine ⟨s, by simp, ?_⟩
      rw [if_pos complete, ← ticker]
      simp only [ok_iff, mapM_tradedValue_eq_ok]
      exact ⟨_, ⟨priced, rfl⟩, rfl⟩

/-! ### The ranking -/

/-- The strict order of the ranking: the larger value first, then the smaller ticker. -/
def Ahead (a b : Rat × String) : Prop :=
  b.1 < a.1 ∨ (a.1 = b.1 ∧ Text.before a.2 b.2 = true ∧ a.2 ≠ b.2)

instance decidableAhead : DecidableRel Ahead := fun _ _ => inferInstanceAs (Decidable (_ ∨ _))

theorem ahead_asymm (a b : Rat × String) (h : Ahead a b) : ¬ Ahead b a := by
  rintro (larger | ⟨same, before, -⟩)
  · rcases h with h | ⟨same, -⟩
    · exact absurd (h.trans larger) (lt_irrefl _)
    · exact absurd larger (by rw [same]; exact lt_irrefl _)
  · rcases h with h | ⟨-, before', different⟩
    · exact absurd h (by rw [same]; exact lt_irrefl _)
    · exact different (Text.before_antisymm before' before)

def UniverseScore.key (score : UniverseScore) : Rat × String := (score.value, score.ticker)

instance total_scoreBefore : Std.Total before := ⟨fun a b => by
  rcases lt_trichotomy a.value b.value with lt | eq | gt
  · exact .inr (.inl lt)
  · rcases Text.before_total a.ticker b.ticker with before | before
    · exact .inl (.inr ⟨eq, before⟩)
    · exact .inr (.inr ⟨eq.symm, before⟩)
  · exact .inl (.inl gt)⟩

instance trans_scoreBefore : IsTrans UniverseScore before := ⟨fun a b c hab hbc => by
  rcases hab with hab | ⟨hab, ab⟩
  · rcases hbc with hbc | ⟨hbc, -⟩
    · exact .inl (hbc.trans hab)
    · exact .inl (hbc ▸ hab)
  · rcases hbc with hbc | ⟨hbc, bc⟩
    · exact .inl (hab ▸ hbc)
    · exact .inr ⟨hab.trans hbc, Text.before_trans ab bc⟩⟩

theorem ranked_ahead {scores : List UniverseScore} (distinct : (scores.map (·.ticker)).Nodup) :
    ((scores.insertionSort before).map key).Pairwise Ahead := by
  have sorted := pairwise_insertionSort before scores
  have perm := perm_insertionSort before scores
  have apart : (scores.insertionSort before).Pairwise fun a b => a.ticker ≠ b.ticker :=
    pairwise_map.mp ((perm.map _).nodup_iff.mpr distinct)
  refine pairwise_map.mpr ((sorted.and apart).imp ?_)
  rintro a b ⟨larger | ⟨same, before⟩, different⟩
  · exact .inl larger
  · exact .inr ⟨same, before, different⟩

/-! ### The screen of a universe -/

theorem tickers_split : ∀ screened : List Screened, ((screened.filterMap Screened.score?).map (·.ticker) ++
    (screened.filterMap Screened.entry?).map (·.ticker)).Perm (screened.map Screened.ticker)
  | [] => .refl _
  | .scored score :: screened => (tickers_split screened).cons score.ticker
  | .unresolved entry :: screened =>
    perm_middle.trans ((tickers_split screened).cons entry.ticker)

theorem selected_take (policy : UniverseScreenPolicy) : ∀ (scores : List UniverseScore) (k : Nat),
    (((scores.zipIdx k).map fun (score, rank) => score.entry policy rank).filter fun e => e.state = .selected).map
      (·.ticker) = (scores.take (policy.maximumCandidates - k)).map (·.ticker)
  | [], k => by simp
  | score :: scores, k => by
    have later := selected_take policy scores (k + 1)
    rw [zipIdx_cons, map_cons, filter_cons]
    by_cases first : k < policy.maximumCandidates
    · obtain ⟨n, hn⟩ : ∃ n, policy.maximumCandidates - k = n + 1 := ⟨policy.maximumCandidates - k - 1, by omega⟩
      rw [show policy.maximumCandidates - (k + 1) = n by omega] at later
      rw [hn, take_succ_cons, map_cons, ← later]
      simp [entry, first]
    · rw [show policy.maximumCandidates - k = 0 by omega, take_zero, map_nil]
      rw [show policy.maximumCandidates - (k + 1) = 0 by omega, take_zero, map_nil] at later
      simpa [entry, first] using later

def screenOf (U : UniversePlatform) (u : QualifiedUniverseSnapshot) (policy : UniverseScreenPolicy)
    (screened : List Screened) : UniverseScreen :=
  let ranked := ((screened.filterMap score?).insertionSort before).zipIdx.map
    fun (score, rank) => score.entry policy rank
  { universeHash := u.hash
    policy
    methodologyHash := U.methodologyHash policy
    entries := ranked ++
      (screened.filterMap entry?).insertionSort fun a b => Text.before a.ticker b.ticker = true
    selectedTickers := (ranked.filter fun e => e.state = .selected).map (·.ticker) }

/-- The inputs that the screen accepts, with what it makes of the members. -/
structure Screens (U : UniversePlatform) (u : QualifiedUniverseSnapshot) (snapshots : List ResearchSnapshot) (at_ : Int)
    (policy : UniverseScreenPolicy) (screened : List Screened) : Prop where
  current : u.observedAt ≤ at_ ∧ at_ < u.validUntil
  distinct : (snapshots.map (·.ticker)).Nodup
  known : ∀ s ∈ snapshots, s.ticker ∈ u.members.map (·.instrument.ticker)
  members : List.Forall₂ (ScreenedAs U.toPlatform snapshots at_ policy) u.members screened

variable {u : QualifiedUniverseSnapshot} {screened : List Screened}

theorem screenOf_entries : ((screenOf U u policy screened).entries.map (·.ticker)).Perm (screened.map Screened.ticker) := by
  have ranked : ∀ (scores : List UniverseScore) (k : Nat),
      ((scores.zipIdx k).map fun (score, rank) => score.entry policy rank).map (·.ticker) = scores.map (·.ticker) := by
    intro scores
    induction scores with
    | nil => simp
    | cons score scores ih =>
      intro k
      rw [zipIdx_cons, map_cons, map_cons, ih]
      rfl
  simp only [screenOf, map_append, ranked]
  refine (List.Perm.append ?_ ?_).trans (tickers_split screened)
  · exact (perm_insertionSort _ _).map _
  · exact (perm_insertionSort _ _).map _

theorem screenOf_selected :
    (screenOf U u policy screened).selectedTickers = (((screened.filterMap score?).insertionSort
      before).take policy.maximumCandidates).map (·.ticker) :=
  selected_take policy _ 0

section
variable (h : Screens U u snapshots at_ policy screened)
include h

theorem Screens.tickers :
    screened.map Screened.ticker = u.members.map (·.instrument.ticker) := by
  have members := h.members
  clear h
  generalize u.members = l at members
  induction members with
  | nil => rfl
  | cons first _ ih => rw [map_cons, map_cons, first.ticker, ih]

theorem unresolved_state
    {entry : UniverseScreenEntry} (hentry : .unresolved entry ∈ screened) : entry.state = .unresolvedData ∧
      ∃ m ∈ u.members, entry.reason = m.evidenceStatus ∨ entry.reason = "SCREEN_CURRENT_PIT_HISTORY_REQUIRED" := by
  obtain ⟨m, hm, screens⟩ := exists_of_mem_forall₂ h.members hentry
  cases screens with
  | missing => exact ⟨rfl, m, hm, .inl rfl⟩
  | incomplete => exact ⟨rfl, m, hm, .inr rfl⟩

theorem screenOf_auditable : (screenOf U u policy screened).auditable U = .ok screen ↔
      (u.members.map (·.instrument.ticker)).Nodup ∧
        screen = { screenOf U u policy screened with hash := U.screenHash (screenOf U u policy screened) } := by
  have bound : (screenOf U u policy screened).selectedTickers.length ≤ policy.maximumCandidates := by
    rw [screenOf_selected, length_map]
    exact length_take_le _ _
  have unresolved : (((screened.filterMap entry?).insertionSort fun a b =>
      Text.before a.ticker b.ticker = true).filter fun e => e.state = .selected) = [] := by
    refine filter_eq_nil_iff.mpr fun entry member => ?_
    obtain ⟨x, hx, hentry⟩ := mem_filterMap.mp ((mem_insertionSort _).mp member)
    cases x with
    | scored => cases hentry
    | unresolved =>
      cases hentry
      simp [(unresolved_state h hx).1]
  have selected : (screenOf U u policy screened).selectedTickers =
      ((screenOf U u policy screened).entries.filter fun e => e.state = .selected).map (·.ticker) := by
    simp only [screenOf, filter_append, unresolved, append_nil]
  simp only [UniverseScreen.auditable, ok_iff]
  rw [screenOf_entries.nodup_iff, h.tickers]
  constructor
  · rintro ⟨-, -, distinct, -, rfl⟩
    exact ⟨distinct, rfl⟩
  · rintro ⟨distinct, rfl⟩
    exact ⟨rfl, ⟨selected, bound⟩, distinct, .inl rfl, rfl⟩

end

theorem screenQualifiedUniverse_eq_ok :
    screenQualifiedUniverse U u snapshots at_ policy = .ok screen ↔ ∃ screened, Screens U u snapshots at_ policy screened ∧
      (u.members.map (·.instrument.ticker)).Nodup ∧
      screen = { screenOf U u policy screened with hash := U.screenHash (screenOf U u policy screened) } := by
  simp only [screenQualifiedUniverse, ok_iff]
  constructor
  · rintro ⟨current, ⟨distinct, known⟩, screened, visited, audited⟩
    have members := (forall₂_of_mapM visited).imp fun _ _ h => screenMember_eq_ok.mp h
    have screens : Screens U u snapshots at_ policy screened := ⟨current, distinct, known, members⟩
    exact ⟨screened, screens, (screenOf_auditable screens).mp audited⟩
  · rintro ⟨screened, screens, audited⟩
    refine ⟨screens.current, ⟨screens.distinct, screens.known⟩, screened, ?_, (screenOf_auditable screens).mpr audited⟩
    exact mapM_of_forall₂ (screens.members.imp fun _ _ h => screenMember_eq_ok.mpr h)

/-- The member of the universe whose window the policy can use, with its mean traded value. -/
def Qualified (P : Platform) (u : QualifiedUniverseSnapshot) (snapshots : List ResearchSnapshot) (at_ : Int)
    (policy : UniverseScreenPolicy) (entry : Rat × String) : Prop :=
  ∃ m ∈ u.members, ∃ s ∈ snapshots, m.instrument.ticker = entry.2 ∧ s.ticker = entry.2 ∧ CompleteWindow policy at_ s ∧
    entry.1 = meanTradedValue P policy s

theorem find_ticker (distinct : (snapshots.map (·.ticker)).Nodup)
    (hs : s ∈ snapshots) {ticker : String} (same : s.ticker = ticker) :
    (snapshots.find? fun s => s.ticker = ticker) = some s := by
  subst same
  exact Rows.get?_of_mem distinct hs

theorem mem_scores (h : Screens U u snapshots at_ policy screened)
    {entry : Rat × String} : entry ∈ (screened.filterMap score?).map key ↔
      Qualified U.toPlatform u snapshots at_ policy entry := by
  constructor
  · intro member
    obtain ⟨score, hscore, rfl⟩ := mem_map.mp member
    obtain ⟨x, hx, found⟩ := mem_filterMap.mp hscore
    obtain ⟨m, hm, screens⟩ := exists_of_mem_forall₂ h.members hx
    cases screens with
    | missing => cases found
    | incomplete => cases found
    | scored s hs _ complete =>
      cases found
      have ticker : s.ticker = m.instrument.ticker := by simpa using List.find?_some hs
      exact ⟨m, hm, s, mem_of_find?_eq_some hs, rfl, ticker, complete, rfl⟩
  · rintro ⟨m, hm, s, hs, member, same, complete, value⟩
    have found := find_ticker h.distinct hs (same.trans member.symm)
    obtain ⟨x, hx, screens⟩ := exists_of_mem_forall₂ h.members.flip hm
    have scored : x.score?.map key = some entry := by
      cases screens with
      | missing _ absent => exact absurd (same.trans member.symm) (absent s hs)
      | incomplete s' found' _ incomplete =>
        cases found.symm.trans found'
        exact absurd complete incomplete
      | scored s' found' =>
        cases found.symm.trans found'
        exact congrArg some (Prod.ext value.symm member)
    obtain ⟨score, hscore, key⟩ := Option.map_eq_some_iff.mp scored
    exact mem_map.mpr ⟨score, mem_filterMap.mpr ⟨x, hx, hscore⟩, key⟩

theorem exists_ranking (h : Screens U u snapshots at_ policy screened)
    (distinct : (u.members.map (·.instrument.ticker)).Nodup) : ∃ ranking : List (Rat × String),
      (∀ entry, entry ∈ ranking ↔ Qualified U.toPlatform u snapshots at_ policy entry) ∧ ranking.Pairwise Ahead ∧
      (screenOf U u policy screened).selectedTickers = (ranking.take policy.maximumCandidates).map (·.2) := by
  have scores : ((screened.filterMap score?).map (·.ticker)).Nodup := by
    have whole := (tickers_split screened).nodup_iff.mpr (h.tickers ▸ distinct)
    exact (nodup_append.mp whole).1
  refine ⟨_, fun entry => ?_, ranked_ahead scores, ?_⟩
  · rw [← mem_scores h]
    exact ((perm_insertionSort _ _).map _).mem_iff
  · rw [screenOf_selected, map_take, map_take, map_map]
    rfl

theorem screenQualifiedUniverse_perm (u : QualifiedUniverseSnapshot) {snapshots' : List ResearchSnapshot}
    (at_ : Int) (policy : UniverseScreenPolicy) (perm : snapshots'.Perm snapshots) :
    screenQualifiedUniverse U u snapshots' at_ policy = screenQualifiedUniverse U u snapshots at_ policy := by
  have accepted : ((snapshots'.map (·.ticker)).Nodup ∧ ∀ s ∈ snapshots', s.ticker ∈ u.members.map (·.instrument.ticker)) ↔
      (snapshots.map (·.ticker)).Nodup ∧ ∀ s ∈ snapshots, s.ticker ∈ u.members.map (·.instrument.ticker) :=
    and_congr (perm.map _).nodup_iff ⟨fun h s hs => h s (perm.mem_iff.mpr hs), fun h s hs => h s (perm.mem_iff.mp hs)⟩
  simp only [screenQualifiedUniverse, accepted]
  by_cases distinct : (snapshots.map (·.ticker)).Nodup
  · have members : screenMember U snapshots' at_ policy = screenMember U snapshots at_ policy := by
      funext m
      have same : (snapshots'.find? fun s => s.ticker = m.instrument.ticker) =
          snapshots.find? fun s => s.ticker = m.instrument.ticker := by
        cases found : snapshots.find? fun s => s.ticker = m.instrument.ticker with
        | none =>
          refine List.find?_eq_none.mpr fun s hs => List.find?_eq_none.mp found s (perm.mem_iff.mp hs)
        | some s =>
          exact find_ticker ((perm.map _).nodup_iff.mpr distinct) (perm.mem_iff.mpr (mem_of_find?_eq_some found))
            (by simpa using List.find?_some found)
      simp only [screenMember, same]
    rw [members]
  · have refused : ∀ f : Unit → Except Err UniverseScreen, (require ((snapshots.map (·.ticker)).Nodup ∧
        ∀ s ∈ snapshots, s.ticker ∈ u.members.map (·.instrument.ticker))
          (Err.value "UNIVERSE_SCREEN_MEMBERSHIP_MISMATCH") >>= f) = .error (.value "UNIVERSE_SCREEN_MEMBERSHIP_MISMATCH") :=
      fun f => bind_of_error (require_eq_error.mpr ⟨fun h => distinct h.1, rfl⟩) f
    simp only [refused]

theorem meanOf_exact (exact : ∀ x, P.round x = x) (values : List Rat) : meanOf P values = values.sum / values.length := by
  have total : ∀ (values : List Rat) (start : Rat),
      values.foldl (fun total v => P.round (total + v)) start = start + values.sum := by
    intro values
    induction values with
    | nil => simp
    | cons v values ih =>
      intro start
      rw [foldl_cons, ih, exact, sum_cons, add_assoc]
  rw [meanOf, exact, total, zero_add]

def poundsTraded (bar : PriceBar) : Rat :=
  match bar.currency with
  | .gbp => bar.close * bar.volume
  | .gbx => bar.close / 100 * bar.volume

theorem meanTradedValue_exact (exact : ∀ x, P.round x = x)
    (complete : CompleteWindow policy at_ s) : meanTradedValue P policy s =
      ((screenWindow policy s).map fun r => poundsTraded r.2).sum / policy.observationWindow := by
  have traded : ∀ bar, tradedGbp P bar = poundsTraded bar := fun bar => by
    rw [tradedGbp, poundsTraded, exact]
    cases bar.currency <;> simp only [exact]
  rw [meanTradedValue, meanOf_exact exact, length_map, complete.1]
  simp only [traded]

theorem statuses_of_frozen {u' : QualifiedUniverseSnapshot} (h : u.frozenMembership U = .ok u') :
    ∀ m ∈ u.members, isStatus m.evidenceStatus = true := by
  simp only [QualifiedUniverseSnapshot.frozenMembership, require_bind_eq_ok] at h
  exact h.1

/-- The selected members are the first of the ranking, by mean traded value and then by ticker, of those whose window
    can be used; every other one has a reason; and the order of the snapshots is irrelevant. -/
theorem screen_is_top_selection (exact : ∀ x, U.round x = x) (u : QualifiedUniverseSnapshot)
    (frozen : u.frozenMembership U = .ok u) (snapshots : List ResearchSnapshot) (at_ : Int)
    (policy : UniverseScreenPolicy) (screen : UniverseScreen)
    (screened : screenQualifiedUniverse U u snapshots at_ policy = .ok screen) :
    (screen.entries.map (·.ticker)).Nodup ∧
    (screen.entries.map (·.ticker)).Perm (u.members.map (·.instrument.ticker)) ∧
    (∃ ranking : List (Rat × String), (∀ value ticker, (value, ticker) ∈ ranking ↔
        ∃ m ∈ u.members, ∃ s ∈ snapshots, m.instrument.ticker = ticker ∧ s.ticker = ticker ∧ CompleteWindow policy at_ s ∧
          value = ((screenWindow policy s).map fun r => poundsTraded r.2).sum / policy.observationWindow) ∧
      ranking.Pairwise Ahead ∧ screen.selectedTickers = (ranking.take policy.maximumCandidates).map (·.2)) ∧
    (∀ e ∈ screen.entries, e.ticker ∉ screen.selectedTickers → e.state ≠ .selected ∧ e.reason ≠ "") ∧
    ∀ snapshots' : List ResearchSnapshot, snapshots'.Perm snapshots →
      screenQualifiedUniverse U u snapshots' at_ policy = .ok screen := by
  obtain ⟨visited, screens, distinct, rfl⟩ := screenQualifiedUniverse_eq_ok.mp screened
  have entries : ((screenOf U u policy visited).entries.map (·.ticker)).Perm (u.members.map (·.instrument.ticker)) :=
    screens.tickers ▸ screenOf_entries
  refine ⟨entries.nodup_iff.mpr distinct, entries, ?_, fun e he unselected => ?_, fun snapshots' perm => ?_⟩
  · obtain ⟨ranking, members, sorted, selected⟩ := exists_ranking screens distinct
    refine ⟨ranking, fun value ticker => ?_, sorted, selected⟩
    rw [members]
    refine exists_congr fun m => and_congr_right fun _ => exists_congr fun s => and_congr_right fun _ =>
      and_congr_right fun _ => and_congr_right fun _ => and_congr_right fun complete => ?_
    rw [meanTradedValue_exact exact complete]
  · rcases mem_append.mp he with ranked | unresolved
    · refine ⟨fun selected => unselected ?_, ?_⟩
      · exact mem_map_of_mem (mem_filter.mpr ⟨ranked, decide_eq_true selected⟩)
      · obtain ⟨_, -, rfl⟩ := mem_map.mp ranked
        simp [entry]
    · obtain ⟨x, hx, found⟩ := mem_filterMap.mp ((mem_insertionSort _).mp unresolved)
      cases x with
      | scored => cases found
      | unresolved =>
        cases found
        obtain ⟨state, m, hm, reason⟩ := unresolved_state screens hx
        refine ⟨by simp [state], fun empty => ?_⟩
        rcases reason with reason | reason
        · have status := statuses_of_frozen frozen m hm
          simp [← reason, empty, isStatus] at status
        · simp [empty] at reason
  · rw [screenQualifiedUniverse_perm u at_ policy perm, screened]

def plainUniverse : UniversePlatform where
  toPlatform := plainPlatform
  reviewHash review := review.metadata.ticker
  membershipHash _ := "membership"
  methodologyHash _ := "methodology"
  screenHash _ := "screen"

/-- An instrument of its broker alone, without an ethical clearance that has to be evaluated again. -/
def sampleInstrument (ticker : String) : InstrumentMetadata := { clearedInstrument with ticker, ethicalClearance := none }

/-- The last twenty bars of the sample job as the snapshot of another ticker, in some currency. -/
def sampleSnapshot (ticker : String) (currency : Currency) : ResearchSnapshot :=
  { clearedRequest.snapshot with
    ticker
    instrument := sampleInstrument ticker
    evidence := (dailyBars.drop 40).map fun e => { e with payload := .ohlcv {
      opening := 1000, high := 1010, low := 990, close := 1000, volume := 100000, currency } } }

def sampleMembership : QualifiedUniverseSnapshot where
  observedAt := days 20714 + hours 1
  validUntil := days 20714 + hours 6
  members := [
    { instrument := sampleInstrument "ABC", qualificationHash := "ABC", validUntil := days 20714 + hours 6
      snapshotHash := some "hash", evidenceStatus := "READY" },
    { instrument := sampleInstrument "XYZ", qualificationHash := "XYZ", validUntil := days 20714 + hours 6
      evidenceStatus := "RESEARCH_PROVIDER_UNAVAILABLE" }]
  hash := "membership"

theorem screen_is_top_selection_sample : ∃ screen,
    screenQualifiedUniverse plainUniverse sampleMembership [sampleSnapshot "ABC" .gbx] (days 20714 + hours 2) {} =
      .ok screen ∧ screen.selectedTickers = ["ABC"] ∧ (screen.entries.map (·.ticker)).Perm ["ABC", "XYZ"] := by
  obtain ⟨screen, screened, selected⟩ : ∃ screen, screenQualifiedUniverse plainUniverse sampleMembership
      [sampleSnapshot "ABC" .gbx] (days 20714 + hours 2) {} = .ok screen ∧ screen.selectedTickers = ["ABC"] := by
    apply exists_of_toOption
    decide +kernel
  have top := screen_is_top_selection (fun _ => rfl) sampleMembership (by decide +kernel)
    [sampleSnapshot "ABC" .gbx] (days 20714 + hours 2) {} screen screened
  exact ⟨screen, screened, selected, top.2.1⟩

end Money
