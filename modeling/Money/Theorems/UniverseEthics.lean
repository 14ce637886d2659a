import Money.Library.RoundRobin
import Money.Theorems.Ethics
import Money.UniverseEthics

/-! An issuer that needs the evaluator is passed over only when the budget of the run is spent, so the rounds are fair
    as long as the cursor finds its issuer. An assessment lasts only as long as every run can use the evidence. -/

namespace Money
open Checked RoundRobin List Text EthicsRun

namespace EthicsRun
variable {T : EthicsPlatform} {run : EthicsRun}

/-! ### One issuer -/

def Asks (T : EthicsPlatform) (run : EthicsRun) (s : EthicsState) (g : IssuerGroup) : Prop :=
  ∃ r previous key exclusions, run.request T g = .ok r ∧ run.previous s g.key = .ok previous ∧
    r.consult T previous = .ok (.pending key exclusions)

/-- The evaluator is called: the issuer needs it, there is one, and the budget is not spent. -/
def Attempts (T : EthicsPlatform) (run : EthicsRun) (p : Pass) (g : IssuerGroup) : Prop :=
  run.Asks T p.state g ∧ run.evaluator ≠ none ∧ p.attempted.length < run.maximum

theorem boundedEvaluate_state (run : EthicsRun) (key : String) (prompt : Prompt) (p : Pass) :
    (run.evaluator ≠ none ∧ p.attempted.length < run.maximum ∧ (run.boundedEvaluate key prompt p).2 =
      { p with attempted := p.attempted ++ [key], state := { p.state with cursor := some key } }) ∨
    (¬ (run.evaluator ≠ none ∧ p.attempted.length < run.maximum) ∧ (run.boundedEvaluate key prompt p).2 = p) := by
  unfold boundedEvaluate
  cases evaluator : run.evaluator with
  | none => exact .inr ⟨by simp, rfl⟩
  | some ask =>
    simp only
    by_cases spent : run.maximum ≤ p.attempted.length
    · rw [if_pos spent]
      exact .inr ⟨by omega, rfl⟩
    · rw [if_neg spent]
      exact .inl ⟨by simp, by omega, rfl⟩

theorem screenIssuer_state {σ : Type} (r : ScreeningRequest) (ask : Evaluator σ) (previous : Option IssuerScreening) (s : σ) :
    (∃ key exclusions, r.consult T previous = .ok (.pending key exclusions) ∧
      (screenIssuer T r (some ask) previous s).2 = (ask ⟨r.issuer, exclusions, r.evidence⟩ s).2) ∨
    ((∀ key exclusions, r.consult T previous ≠ .ok (.pending key exclusions)) ∧
      (screenIssuer T r (some ask) previous s).2 = s) := by
  unfold screenIssuer
  cases r.consult T previous with
  | error e => exact .inr ⟨by simp, rfl⟩
  | ok c =>
    cases c with
    | settled screening => exact .inr ⟨by simp, rfl⟩
    | pending key exclusions => exact .inl ⟨key, exclusions, rfl, rfl⟩

/-- The screening of an issuer attempts it or leaves the cursor, replaces its screening, and keeps those of all others.
    -/
structure Screens (T : EthicsPlatform) (run : EthicsRun) (p : Pass) (g : IssuerGroup) (p' : Pass) : Prop where
  served : (run.Attempts T p g ∧ p'.attempted = p.attempted ++ [g.key] ∧ p'.state.cursor = some g.key) ∨
    (¬ run.Attempts T p g ∧ p'.attempted = p.attempted ∧ p'.state.cursor = p.state.cursor)
  own : p'.state.screenings g.key = p.state.screenings g.key ∨ ∃ r previous screening, run.request T g = .ok r ∧
    run.previous p.state g.key = .ok previous ∧
      (screenIssuer T r (some (run.boundedEvaluate g.key)) previous p).1 = .ok screening ∧
      p'.state.screenings g.key = some screening
  others : ∀ k, k ≠ g.key → p'.state.screenings k = p.state.screenings k

/-- What the evaluator does to the pass, before the screening is recorded. -/
theorem screenIssuer_served {p : Pass} {g : IssuerGroup} {r : ScreeningRequest} {previous : Option IssuerScreening}
    (requested : run.request T g = .ok r) (read : run.previous p.state g.key = .ok previous) :
    let p' := (screenIssuer T r (some (run.boundedEvaluate g.key)) previous p).2
    ((run.Attempts T p g ∧ p'.attempted = p.attempted ++ [g.key] ∧ p'.state.cursor = some g.key) ∨
      (¬ run.Attempts T p g ∧ p'.attempted = p.attempted ∧ p'.state.cursor = p.state.cursor)) ∧
    p'.state.screenings = p.state.screenings := by
  have asks_iff : run.Asks T p.state g ↔ ∃ key exclusions, r.consult T previous = .ok (.pending key exclusions) := by
    simp [Asks, requested, read]
  intro p'
  rcases screenIssuer_state r (run.boundedEvaluate g.key) previous p with
    ⟨key, exclusions, pending, state⟩ | ⟨settled, state⟩
  · rcases boundedEvaluate_state run g.key ⟨r.issuer, exclusions, r.evidence⟩ p with
      ⟨configured, left, evaluated⟩ | ⟨denied, evaluated⟩
    · rw [show p' = _ from state.trans evaluated]
      exact ⟨.inl ⟨⟨asks_iff.mpr ⟨key, exclusions, pending⟩, configured, left⟩, rfl, rfl⟩, rfl⟩
    · rw [show p' = _ from state.trans evaluated]
      exact ⟨.inr ⟨fun attempts => denied attempts.2, rfl, rfl⟩, rfl⟩
  · rw [show p' = _ from state]
    refine ⟨.inr ⟨fun attempts => ?_, rfl, rfl⟩, rfl⟩
    obtain ⟨key, exclusions, pending⟩ := asks_iff.mp attempts.1
    exact settled key exclusions pending

theorem screenGroup_screens (T : EthicsPlatform) (run : EthicsRun) (p : Pass) (g : IssuerGroup) :
    Screens T run p g (run.screenGroup T p g).1 := by
  unfold screenGroup
  split
  next e requested =>
    refine ⟨.inr ⟨?_, rfl, rfl⟩, .inl rfl, fun _ _ => rfl⟩
    rintro ⟨⟨r, _, key, exclusions, requested', -⟩, -⟩
    cases requested.symm.trans requested'
  next e requested read =>
    refine ⟨.inr ⟨?_, rfl, rfl⟩, .inl rfl, fun _ _ => rfl⟩
    rintro ⟨⟨r, _, key, exclusions, -, read', -⟩, -⟩
    cases read.symm.trans read'
  next r previous requested read =>
    obtain ⟨served, kept⟩ := screenIssuer_served requested read
    split
    next e p' screened =>
      rw [screened] at served kept
      exact ⟨served, .inl (congrFun kept g.key), fun k _ => congrFun kept k⟩
    next screening p' screened =>
      rw [screened] at served kept
      refine ⟨served, .inr ⟨r, previous, screening, requested, read, by rw [screened], Function.update_self ..⟩,
        fun k hk => ?_⟩
      exact (Function.update_of_ne hk _ _).trans (congrFun kept k)

theorem screenGroups_served (T : EthicsPlatform) (run : EthicsRun) : ∀ (gs : List IssuerGroup) (p : Pass), ∃ served,
    (run.screenGroups T gs p).1.attempted = p.attempted ++ served ∧ served.Sublist (gs.map (·.key)) ∧
      (run.screenGroups T gs p).1.state.cursor = cursorAfter p.state.cursor served ∧
      (run.maximum ≤ p.attempted.length → served = [])
  | [], p => ⟨[], by simp [screenGroups], by simp, by simp [screenGroups, cursorAfter], fun _ => rfl⟩
  | g :: gs, p => by
    have screens := screenGroup_screens T run p g
    rw [screenGroups]
    -- the attempts of the first group
    obtain ⟨first, attempted, hfirst, cursor, spent⟩ : ∃ first, (run.screenGroup T p g).1.attempted = p.attempted ++ first ∧
        (first = [g.key] ∨ first = []) ∧
        (run.screenGroup T p g).1.state.cursor = cursorAfter p.state.cursor first ∧
        (run.maximum ≤ p.attempted.length → first = []) := by
      rcases screens.served with ⟨attempts, attempted, cursor⟩ | ⟨-, attempted, cursor⟩
      · exact ⟨[g.key], attempted, .inl rfl, cursor, fun spent => absurd attempts.2.2 (by omega)⟩
      · exact ⟨[], by simpa using attempted, .inr rfl, by simpa [cursorAfter] using cursor, fun _ => rfl⟩
    have sublist : first.Sublist [g.key] := by
      rcases hfirst with rfl | rfl <;> simp
    split
    next p' e stopped =>
      rw [stopped] at attempted cursor
      exact ⟨first, attempted, sublist.trans (by simp), cursor, spent⟩
    next p' continued =>
      rw [continued] at attempted cursor
      obtain ⟨later, attempted', sublist', cursor', spent'⟩ := screenGroups_served T run gs p'
      refine ⟨first ++ later, ?_, ?_, ?_, fun hspent => ?_⟩
      · rw [attempted', attempted, append_assoc]
      · exact sublist.append sublist'
      · rw [cursor', cursor, cursorAfter_append]
      · rw [spent hspent, spent' (by rw [attempted, length_append]; omega)]
        rfl

variable {g : IssuerGroup}

/-- Those attempted before an issuer that needs the evaluator stand before it in the order of the run. -/
theorem screenGroups_front (configured : run.evaluator ≠ none) (post : List IssuerGroup) :
    ∀ (pre : List IssuerGroup) (p : Pass), g.key ∉ pre.map (·.key) → run.Asks T p.state g →
      ∃ front rest, (run.screenGroups T (pre ++ g :: post) p).1.attempted = p.attempted ++ (front ++ rest) ∧
        front.Sublist (pre.map (·.key)) ∧ (rest = [] ∨ rest.head? = some g.key)
  | [], p, _, asks => by
    obtain ⟨served, attempted, -, -, spent⟩ := screenGroups_served T run (g :: post) p
    refine ⟨[], served, attempted, nil_sublist _, ?_⟩
    by_cases left : p.attempted.length < run.maximum
    · -- the first group is attempted at once
      have screens := screenGroup_screens T run p g
      rcases screens.served with ⟨-, attempted', -⟩ | ⟨passed, -⟩
      · rw [screenGroups] at attempted
        split at attempted
        next p' e stopped =>
          rw [stopped] at attempted'
          rw [attempted', append_cancel_left_eq] at attempted
          exact .inr (by rw [← attempted]; rfl)
        next p' continued =>
          rw [continued] at attempted'
          obtain ⟨later, attempted'', -⟩ := screenGroups_served T run post p'
          rw [attempted'', attempted', append_assoc, append_cancel_left_eq] at attempted
          exact .inr (by rw [← attempted]; rfl)
      · exact absurd ⟨asks, configured, left⟩ passed
    · exact .inl (spent (by omega))
  | h :: pre, p, absent, asks => by
    simp only [map_cons, mem_cons, not_or] at absent
    have screens := screenGroup_screens T run p h
    obtain ⟨first, attempted, sublist⟩ : ∃ first, (run.screenGroup T p h).1.attempted = p.attempted ++ first ∧
        first.Sublist [h.key] := by
      rcases screens.served with ⟨-, attempted, -⟩ | ⟨-, attempted, -⟩
      · exact ⟨[h.key], attempted, List.Sublist.refl _⟩
      · exact ⟨[], by simpa using attempted, nil_sublist _⟩
    have others := screens.others g.key absent.1
    rw [cons_append, screenGroups]
    split
    next p' e stopped =>
      rw [stopped] at attempted
      exact ⟨first, [], by simpa using attempted, sublist.trans (by simp), .inl rfl⟩
    next p' continued =>
      rw [continued] at attempted others
      have asks' : run.Asks T p'.state g := by
        obtain ⟨r, previous, key, exclusions, requested, read, pending⟩ := asks
        exact ⟨r, previous, key, exclusions, requested, by rw [EthicsRun.previous, others]; exact read, pending⟩
      obtain ⟨front, rest, attempted', sublist', hrest⟩ := screenGroups_front configured post pre p' absent.2 asks'
      refine ⟨first ++ front, rest, ?_, sublist.append sublist', hrest⟩
      rw [attempted', attempted]
      simp only [append_assoc]

/-! ### The order of a run -/

def code (key : String) : List ℕ := key.toList.map Char.toNat

theorem code_injective : Function.Injective code := fun _ _ h => eq_of_codes h

def sortedGroups (run : EthicsRun) : List IssuerGroup :=
  run.groups.insertionSort fun a b => before a.key b.key = true

theorem sortedGroups_perm : run.sortedGroups.Perm run.groups := perm_insertionSort _ _

theorem sortedGroups_sorted (run : EthicsRun) : (run.sortedGroups.map fun g => code g.key).Pairwise (· < ·) := by
  have total : Std.Total fun a b : IssuerGroup => before a.key b.key = true := ⟨fun a b => before_total a.key b.key⟩
  have trans : IsTrans IssuerGroup fun a b => before a.key b.key = true := ⟨fun _ _ _ => before_trans⟩
  have ordered : run.sortedGroups.Pairwise fun a b => before a.key b.key = true := pairwise_insertionSort _ _
  have distinct : run.sortedGroups.Pairwise fun a b => a.key ≠ b.key :=
    pairwise_map.mp ((sortedGroups_perm.map _).nodup_iff.mpr run.distinct)
  refine pairwise_map.mpr ((ordered.and distinct).imp fun {a b} ⟨before, other⟩ => ?_)
  rcases lt_trichotomy (code a.key) (code b.key) with lt | same | gt
  · exact lt
  · exact absurd (code_injective same) other
  · exact absurd gt (not_lt.mpr (before_iff.mp before))

/-- The run reads the cursor, and finds the issuer that it names. -/
def CursorKept (run : EthicsRun) (s : EthicsState) : Prop :=
  run.cursorFile = .intact ∧ ∀ c ∈ s.cursor, c ∈ run.groups.map (·.key)
  deriving Decidable

theorem ordered_some (run : EthicsRun) (c : String) : run.ordered (some c) =
    match run.sortedGroups.findIdx? fun g : IssuerGroup => g.key = c with
    | none => run.sortedGroups
    | some index => run.sortedGroups.drop (index + 1) ++ run.sortedGroups.take (index + 1) := rfl

theorem ordered_perm (run : EthicsRun) (cursor : Option String) : (run.ordered cursor).Perm run.groups := by
  cases cursor with
  | none => exact sortedGroups_perm
  | some c =>
    rw [ordered_some]
    split
    · exact sortedGroups_perm
    · refine perm_append_comm.trans ?_
      rw [take_append_drop]
      exact sortedGroups_perm

theorem ordered_before {cursor : Option String} (kept : ∀ c ∈ cursor, c ∈ run.groups.map (·.key))
    {pre post : List IssuerGroup} (split : run.ordered cursor = pre ++ g :: post) :
    ((cursor.map code).toList ++ pre.map fun h => code h.key).Pairwise (Before · · (code g.key)) := by
  have sorted := sortedGroups_sorted run
  cases cursor with
  | none =>
    change run.sortedGroups = _ at split
    rw [split, map_append, map_cons] at sorted
    exact pairwise_before_of_sorted sorted
  | some c =>
    have member : ∃ h ∈ run.sortedGroups, h.key = c := by
      obtain ⟨h, hh, key⟩ := mem_map.mp (kept c rfl)
      exact ⟨h, sortedGroups_perm.mem_iff.mpr hh, key⟩
    rw [ordered_some] at split
    cases found : run.sortedGroups.findIdx? fun g : IssuerGroup => g.key = c with
    | none =>
      obtain ⟨h, hh, key⟩ := member
      exact absurd key (by simpa using List.findIdx?_eq_none_iff.mp found h hh)
    | some index =>
      simp only [found] at split
      obtain ⟨bound, key, -⟩ := List.findIdx?_eq_some_iff_getElem.mp found
      have parts : run.sortedGroups = run.sortedGroups.take index ++ run.sortedGroups[index] ::
          run.sortedGroups.drop (index + 1) := by
        rw [← drop_eq_getElem_cons bound, take_append_drop]
      have key : run.sortedGroups[index].key = c := by simpa using key
      rw [take_succ_eq_append_getElem bound] at split
      have codes := congrArg (List.map fun h => code h.key) split
      simp only [map_append, map_cons, map_nil, key] at codes
      rw [parts, map_append, map_cons, key] at sorted
      exact pairwise_before_of_turned sorted codes

/-! ### Sequences of runs -/

/-- The issuer is a member that the evaluator would be asked about if the budget allowed. -/
def Wants (T : EthicsPlatform) (run : EthicsRun) (s : EthicsState) (x : String) : Prop :=
  run.evaluator ≠ none ∧ ∃ g ∈ run.groups, g.key = x ∧ run.Asks T s g

theorem screenUniverse_cursor (s : EthicsState) : (run.screenUniverse T s).1.state.cursor =
    cursorAfter s.cursor (run.screenUniverse T s).1.attempted := by
  unfold screenUniverse
  split
  · split
    · split
      next cursor _ =>
        obtain ⟨served, attempted, -, after, -⟩ := screenGroups_served T run (run.ordered cursor)
          { state := s, result := run.legacy }
        rw [after, attempted]
        rfl
      · rfl
    · rfl
  · rfl

theorem screenUniverse_round {s : EthicsState} {x : String} (wants : run.Wants T s x) (kept : run.CursorKept s) :
    Round (code x) (s.cursor.map code) ((run.screenUniverse T s).1.attempted.map code) := by
  obtain ⟨configured, g, member, rfl, asks⟩ := wants
  obtain ⟨pre, post, split⟩ := append_of_mem ((ordered_perm run s.cursor).mem_iff.mpr member)
  have before := ordered_before kept.2 split
  have nothing : Round (code g.key) (s.cursor.map code) ([].map code) :=
    ⟨[], [], rfl, not_mem_nil, .inl rfl, before.sublist (append_sublist_append_left _ |>.mpr (nil_sublist _))⟩
  simp only [screenUniverse, kept.1, Reading.read]
  split
  · split
    · have absent : g.key ∉ pre.map (·.key) := by
        have distinct := ((ordered_perm run s.cursor).map (·.key)).nodup_iff.mpr run.distinct
        rw [split, map_append, map_cons] at distinct
        exact fun h => (nodup_append.mp distinct).2.2 g.key h g.key mem_cons_self rfl
      obtain ⟨front, rest, attempted, sublist, hrest⟩ := screenGroups_front configured post pre
        { state := s, result := run.legacy } absent asks
      rw [split, attempted]
      have sublist' := sublist.map code
      rw [map_map] at sublist'
      refine ⟨front.map code, rest.map code, by simp, fun h => ?_, ?_, ?_⟩
      · obtain ⟨h', hh', same⟩ := mem_map.mp h
        exact absent (sublist.subset (code_injective same ▸ hh'))
      · rcases hrest with rfl | hrest
        · exact .inl rfl
        · exact .inr (by rw [List.head?_map, hrest]; rfl)
      · exact before.sublist (append_sublist_append_left _ |>.mpr sublist')
    · exact nothing
  · exact nothing

end EthicsRun

def ethicsStep (T : EthicsPlatform) (s : EthicsState) (run : EthicsRun) : Except Err EthicsState :=
  .ok (run.screenUniverse T s).1.state

def attemptsOf (T : EthicsPlatform) : EthicsState → List EthicsRun → List (List String)
  | _, [] => []
  | s, run :: later => (run.screenUniverse T s).1.attempted :: attemptsOf T (run.screenUniverse T s).1.state later

variable {T : EthicsPlatform}

theorem attemptsOf_rounds {x : String} : ∀ {runs : List EthicsRun} {s : EthicsState},
    Runs.Along (ethicsStep T) (fun s run => run.Wants T s x) s runs →
    Runs.Along (ethicsStep T) (fun s run => run.CursorKept s) s runs →
    Rounds (code x) (s.cursor.map code) ((attemptsOf T s runs).map (List.map code))
  | [], _, _, _ => trivial
  | run :: later, s, ⟨wants, laterWants⟩, ⟨kept, laterKept⟩ => by
    refine ⟨screenUniverse_round wants kept, ?_⟩
    rw [cursorAfter_map, ← screenUniverse_cursor]
    exact attemptsOf_rounds laterWants laterKept

/-- While every run finds the issuer of the cursor, an issuer that needs the evaluator is attempted before any other is
    attempted twice. -/
theorem evaluation_budget_is_fair (T : EthicsPlatform) (s : EthicsState) (runs : List EthicsRun) (x : String)
    (wants : Runs.Along (ethicsStep T) (fun s run => run.Wants T s x) s runs)
    (kept : Runs.Along (ethicsStep T) (fun s run => run.CursorKept s) s runs) (y : String) (other : y ≠ x)
    (pre post : List String) (split : (attemptsOf T s runs).flatten = pre ++ y :: post) (again : y ∈ pre) : x ∈ pre := by
  have codes : ((attemptsOf T s runs).map (List.map code)).flatten =
      pre.map code ++ code y :: post.map code := by
    rw [← map_flatten, split, map_append, map_cons]
  have first := served_first (attemptsOf_rounds wants kept) codes (fun same => other (code_injective same))
    (mem_map_of_mem again)
  obtain ⟨x', member, same⟩ := mem_map.mp first
  exact code_injective same ▸ member

instance decidableAsks (T : EthicsPlatform) (run : EthicsRun) (s : EthicsState) (g : IssuerGroup) :
    Decidable (run.Asks T s g) :=
  match requested : run.request T g with
  | .error e => .isFalse fun ⟨r, _, _, _, found, _⟩ => by
    rw [requested] at found
    cases found
  | .ok r =>
    match read : run.previous s g.key with
    | .error e => .isFalse fun ⟨_, previous, _, _, _, found, _⟩ => by
      rw [read] at found
      cases found
    | .ok previous =>
      match consulted : r.consult T previous with
      | .error e | .ok (.settled screening) => .isFalse fun ⟨_, _, _, _, found, found', pending⟩ => by
        cases requested.symm.trans found
        cases read.symm.trans found'
        cases consulted.symm.trans pending
      | .ok (.pending key exclusions) => .isTrue ⟨r, previous, key, exclusions, requested, read, consulted⟩

instance decidableWants (T : EthicsPlatform) (run : EthicsRun) (s : EthicsState) (x : String) : Decidable (run.Wants T s x) :=
  match configured : run.evaluator with
  | none => .isFalse fun wants => wants.1 configured
  | some _ => decidable_of_iff (∃ g ∈ run.groups, g.key = x ∧ run.Asks T s g) (by simp [EthicsRun.Wants, configured])

def issuerGroup (isin : String) : IssuerGroup where
  key := "isin:" ++ isin
  name := "Issuer plc"
  isins := [isin]
  facts := [{ provider := "provider", dataset := "issuer-profile", raw := annualReport.content, observedAt := days 20700 }]

def approvedRights : List (String × ProviderRights) :=
  [("provider", { admissibleDatasets := ["issuer-profile"], deadline := some (days 20750), evidenceHashes := [hashOf 'a'] })]

def lapsedRights : List (String × ProviderRights) :=
  [("provider", { admissibleDatasets := [], deadline := none, evidenceHashes := [] })]

def universeRun (day : Int) (rights : List (String × ProviderRights)) (answer : Except Err String) (isins : List String)
    (distinct : ((isins.map issuerGroup).map (·.key)).Nodup) : EthicsRun where
  now := days day
  maximum := 1
  rights
  groups := isins.map issuerGroup
  distinct
  identityHash _ _ := hashOf 'a'
  evaluator := some fun _ _ => answer

def failingRun (isins : List String) (distinct : ((isins.map issuerGroup).map (·.key)).Nodup) : EthicsRun :=
  universeRun 20714 approvedRights (.error (.upstream "timeout")) isins distinct

def steadyRuns : List EthicsRun :=
  List.replicate 3 (failingRun ["GB0000000001", "GB0000000002"] (by decide))

theorem evaluation_budget_is_fair_steady :
    (attemptsOf (samplePlatform (assessmentOf excludedActivities ["software"])) {} steadyRuns).flatten =
      ["isin:GB0000000001", "isin:GB0000000002"] ++ "isin:GB0000000001" :: [] ∧
    "isin:GB0000000002" ∈ ["isin:GB0000000001", "isin:GB0000000002"] := by
  obtain ⟨served, wants, kept⟩ :
      (attemptsOf (samplePlatform (assessmentOf excludedActivities ["software"])) {} steadyRuns).flatten =
        ["isin:GB0000000001", "isin:GB0000000002"] ++ "isin:GB0000000001" :: [] ∧
      Runs.Along (ethicsStep (samplePlatform (assessmentOf excludedActivities ["software"])))
        (fun s run => run.Wants (samplePlatform (assessmentOf excludedActivities ["software"])) s "isin:GB0000000002")
        {} steadyRuns ∧
      Runs.Along (ethicsStep (samplePlatform (assessmentOf excludedActivities ["software"])))
        (fun s run => run.CursorKept s) {} steadyRuns := by
    decide +kernel
  exact ⟨served, evaluation_budget_is_fair _ _ _ "isin:GB0000000002" wants kept "isin:GB0000000001" (by decide) _ _ served
    (by decide)⟩

def changingRuns : List EthicsRun :=
  [failingRun ["GB0000000001", "GB0000000002", "GB0000000003"] (by decide),
    failingRun ["GB0000000002", "GB0000000003"] (by decide), failingRun ["GB0000000001", "GB0000000003"] (by decide)]

/-- The third issuer needs the evaluator in all three runs and is not attempted, while the first one is attempted
    twice. -/
theorem lost_cursor_starves :
    Runs.Along (ethicsStep (samplePlatform (assessmentOf excludedActivities ["software"])))
      (fun s run => 1 ≤ run.maximum ∧
        run.Wants (samplePlatform (assessmentOf excludedActivities ["software"])) s "isin:GB0000000003") {} changingRuns ∧
    attemptsOf (samplePlatform (assessmentOf excludedActivities ["software"])) {} changingRuns =
      [["isin:GB0000000001"], ["isin:GB0000000002"], ["isin:GB0000000001"]] := by
  decide +kernel

/-! ### Lasting assessments -/

section
variable {T : EthicsPlatform} {evidence evidence' : List EthicalEvidence}

/-- Two lists of documents in which every source has the same text under the same hash, of the same kind. -/
def SameSources (evidence evidence' : List EthicalEvidence) : Prop :=
  ∀ id, (sourceOf evidence id).map (fun e => (e.contentSha256, e.content, e.evidenceKind)) =
    (sourceOf evidence' id).map fun e => (e.contentSha256, e.content, e.evidenceKind)

section
variable (same : SameSources evidence evidence')
include same

theorem SameSources.exists_iff {P : Hash × String × EvidenceKind → Prop} (id : String) :
    (∃ e ∈ sourceOf evidence id, P (e.contentSha256, e.content, e.evidenceKind)) ↔
      ∃ e ∈ sourceOf evidence' id, P (e.contentSha256, e.content, e.evidenceKind) := by
  have found := same id
  cases first : sourceOf evidence id <;> cases second : sourceOf evidence' id <;> simp_all

theorem SameSources.supported (c : EthicalCitation) :
    c.supported evidence ↔ c.supported evidence' :=
  same.exists_iff (P := fun view => view.1 = c.evidenceHash ∧ c.quote.toList <:+: view.2.1.toList) c.sourceId

theorem SameSources.citationsValid (citations : List EthicalCitation) :
    citationsValid evidence citations ↔ citationsValid evidence' citations := by
  simp only [Money.citationsValid, same.supported]

theorem SameSources.scopeValid (a : EthicalAssessment) :
    scopeValid evidence a ↔ scopeValid evidence' a := by
  have kinds : ∀ id, (∃ e ∈ sourceOf evidence id, e.evidenceKind ≠ .news) ↔
      ∃ e ∈ sourceOf evidence' id, e.evidenceKind ≠ .news :=
    same.exists_iff (P := fun view => view.2.2 ≠ .news)
  simp only [Money.scopeValid, same.citationsValid, kinds]

theorem SameSources.activitiesValid (a : EthicalAssessment) :
    activitiesValid T evidence a ↔ activitiesValid T evidence' a := by
  simp only [Money.activitiesValid, same.citationsValid]

theorem SameSources.exposed (item : ExclusionAssessment) :
    exposed evidence item ↔ exposed evidence' item := by
  simp only [Money.exposed, same.citationsValid]

theorem SameSources.clears (a : EthicalAssessment) (item : ExclusionAssessment) :
    clears evidence a item ↔ clears evidence' a item := by
  simp only [Money.clears, same.citationsValid, same.scopeValid]

theorem SameSources.openReasons (a : EthicalAssessment) (exclusions : List String) :
    openReasons T evidence a exclusions = openReasons T evidence' a exclusions := by
  have reason : ∀ item, openReason evidence a item = openReason evidence' a item := by
    intro item
    cases conclusion : item.conclusion <;> simp only [openReason, conclusion]
    · exact flag_congr (not_congr (same.clears a item)) _
    · exact flag_congr (not_congr (same.exposed item)) _
  unfold Money.openReasons
  rw [funext reason, flag_congr (not_congr (same.scopeValid a)), flag_congr (not_congr (same.activitiesValid a))]

theorem SameSources.assess {issuer issuer' : IssuerIdentity}
    (key : issuer.issuerKey = issuer'.issuerKey) (name : issuer.legalName = issuer'.legalName) (a : EthicalAssessment)
    (exclusions : List String) : a.assess T issuer evidence exclusions = a.assess T issuer' evidence' exclusions := by
  have exposure : a.assessments.filter (fun item => Money.exposed evidence item) =
      a.assessments.filter fun item => Money.exposed evidence' item :=
    filter_congr fun item _ => by simp only [same.exposed]
  unfold EthicalAssessment.assess
  simp only [key, name, exposure, same.openReasons]

end

theorem sourceOf_eq_some (distinct : (evidence.map (·.sourceId)).Nodup) {id : String} {e : EthicalEvidence} :
    sourceOf evidence id = some e ↔ e ∈ evidence ∧ e.sourceId = id := by
  constructor
  · intro found
    exact ⟨mem_reverse.mp (mem_of_find?_eq_some found), by simpa using List.find?_some found⟩
  · rintro ⟨member, rfl⟩
    cases found : sourceOf evidence e.sourceId with
    | none => simpa using List.find?_eq_none.mp found e (mem_reverse.mpr member)
    | some e' =>
      have member' : e' ∈ evidence := mem_reverse.mp (mem_of_find?_eq_some found)
      have same : e'.sourceId = e.sourceId := by simpa using List.find?_some found
      rw [inj_on_of_nodup_map distinct member' member same]

theorem sameSources_of_material (perm : (evidence.map (·.material)).Perm (evidence'.map (·.material)))
    (distinct : (evidence.map (·.sourceId)).Nodup) (distinct' : (evidence'.map (·.sourceId)).Nodup)
    (same : ∀ e ∈ evidence, ∀ e' ∈ evidence', e.contentSha256 = e'.contentSha256 → e.content = e'.content) :
    SameSources evidence evidence' := by
  have view : ∀ {e e' : EthicalEvidence}, e ∈ evidence → e' ∈ evidence' → e.material = e'.material →
      e.sourceId = e'.sourceId ∧
        (e.contentSha256, e.content, e.evidenceKind) = (e'.contentSha256, e'.content, e'.evidenceKind) := by
    intro e e' he he' material
    simp only [EthicalEvidence.material, List.cons.injEq, and_true] at material
    obtain ⟨id, -, hash, kind⟩ := material
    have kinds : e.evidenceKind = e'.evidenceKind := by
      cases h : e.evidenceKind <;> cases h' : e'.evidenceKind <;> simp [h, h', EvidenceKind.name] at kind ⊢
    exact ⟨id, by rw [hash, same e he e' he' hash, kinds]⟩
  intro id
  cases first : sourceOf evidence id with
  | some e =>
    obtain ⟨member, rfl⟩ := (sourceOf_eq_some distinct).mp first
    obtain ⟨e', member', material⟩ := mem_map.mp (perm.subset (mem_map_of_mem member))
    obtain ⟨id, shown⟩ := view member member' material.symm
    rw [(sourceOf_eq_some distinct').mpr ⟨member', id.symm⟩, Option.map_some, Option.map_some, shown]
  | none =>
    cases second : sourceOf evidence' id with
    | none => rfl
    | some e' =>
      obtain ⟨member', rfl⟩ := (sourceOf_eq_some distinct').mp second
      obtain ⟨e, member, material⟩ := mem_map.mp (perm.symm.subset (mem_map_of_mem member'))
      rw [(sourceOf_eq_some distinct).mpr ⟨member, (view member member' material).1⟩] at first
      cases first

end

/-- A request about the same issuer, material evidence and policy. No two documents of the two have one hash and
    different texts. -/
structure ScreeningRequest.SameMatter (r origin : ScreeningRequest) : Prop where
  issuerKey : r.issuer.issuerKey = origin.issuer.issuerKey
  legalName : r.issuer.legalName = origin.issuer.legalName
  material : (r.evidence.map (·.material)).Perm (origin.evidence.map (·.material))
  policy : ∀ e, e ∈ r.excludedActivities ↔ e ∈ origin.excludedActivities
  texts : ∀ e ∈ r.evidence, ∀ e' ∈ origin.evidence, e.contentSha256 = e'.contentSha256 → e.content = e'.content

/-- The later screening has the same basis and the same window. -/
structure IssuerScreening.Keeps (p : IssuerScreening) (a : EthicalAssessment) (p' : IssuerScreening) : Prop where
  assessment : p'.assessment = some a
  cacheKey : p'.cacheKey = p.cacheKey
  policyHash : p'.clearance.policyHash = p.clearance.policyHash
  screenedAt : p'.clearance.screenedAt = p.clearance.screenedAt
  validUntil : p'.clearance.validUntil = p.clearance.validUntil
  result : p'.clearance.result = p.clearance.result

theorem materialEvidence_congr {evidence evidence' : List EthicalEvidence}
    (perm : (evidence.map (·.material)).Perm (evidence'.map (·.material))) :
    materialEvidence evidence = materialEvidence evidence' := by
  have total : Std.Total tupleBefore := ⟨fun a b => le_total _ _⟩
  have trans : IsTrans (List String) tupleBefore := ⟨fun a b c hab hbc => le_trans hab hbc⟩
  have injective : Function.Injective fun s : String => s.toList.map Char.toNat := fun _ _ h => eq_of_codes h
  have antisymm : ∀ a b, tupleBefore a b → tupleBefore b a → a = b := fun a b hab hba =>
    map_injective_iff.mpr injective (le_antisymm hab hba)
  refine List.Perm.eq_of_pairwise (fun a b _ _ => antisymm a b) (pairwise_insertionSort tupleBefore _)
    (pairwise_insertionSort tupleBefore _) ?_
  exact (perm_insertionSort _ _).trans (perm.trans (perm_insertionSort _ _).symm)

section
variable {T : EthicsPlatform} {origin r : ScreeningRequest} {key policyHash : Hash} {exclusions : List String}
  {p p' : IssuerScreening} {a : EthicalAssessment}

theorem ScreeningRequest.distinct_of_admitted (h : r.refusals T = []) : (r.evidence.map (·.sourceId)).Nodup := by
  simp only [refusals, append_eq_nil_iff, flag_eq_nil, not_not] at h
  exact h.1.1.1.1.1.1.1.2

/-- A screening returned for a request that was not refused, with its assessment. -/
structure IssuerScreening.Lasting (T : EthicsPlatform) (origin : ScreeningRequest) (p : IssuerScreening)
    (a : EthicalAssessment) : Prop where
  returned : ∃ key policyHash exclusions, origin.Keyed T key policyHash exclusions ∧
    origin.Returned T key policyHash exclusions p
  assessed : p.assessment = some a
  admitted : origin.refusals T = []

theorem screenIssuer_lasting {σ : Type} {evaluator : Option (Evaluator σ)} {previous : Option IssuerScreening} {s : σ}
    (h : (screenIssuer T origin evaluator previous s).1 = .ok p) (assessed : p.assessment = some a) :
    p.Lasting T origin a := by
  obtain ⟨key, policyHash, exclusions, keyed, returned, admitted⟩ := screenIssuer_returned h
  exact ⟨⟨key, policyHash, exclusions, keyed, returned⟩, assessed, admitted (by simp [assessed])⟩

/-- A request made during the lifetime of a screening, whose own validity period is not shorter. -/
structure ScreeningRequest.Timely (r : ScreeningRequest) (p : IssuerScreening) : Prop where
  begun : p.clearance.screenedAt ≤ r.now
  current : r.now < p.clearance.validUntil
  lifetime : p.clearance.validUntil ≤ p.clearance.screenedAt + days r.validityDays

theorem IssuerScreening.Keeps.refl (assessed : p.assessment = some a) : p.Keeps a p :=
  ⟨assessed, rfl, rfl, rfl, rfl, rfl⟩

section
variable (same : r.SameMatter origin) (lasting : p.Lasting T origin a) (admitted : r.refusals T = [])
  (keeps : p.Keeps a p') (timely : r.Timely p)
include same lasting admitted keeps timely

/-- A request that asks the same and can use its evidence has the key, the policy and the result of the kept screening.
    -/
theorem ScreeningRequest.SameMatter.reusable
    (keyed : r.Keyed T key policyHash exclusions) :
    r.Reusable T key policyHash exclusions p' a := by
  obtain ⟨key', policyHash', exclusions', keyed', returned⟩ := lasting.returned
  obtain ⟨-, -, rfl⟩ := Platform.policyExclusions_eq_ok.mp keyed.excluded
  obtain ⟨-, -, rfl⟩ := Platform.policyExclusions_eq_ok.mp keyed'.excluded
  have excluded : sortedSet r.excludedActivities = sortedSet origin.excludedActivities :=
    sortedSet_eq_iff.mpr same.policy
  have policies : policyHash = policyHash' := by
    have hashed := keyed.policy
    rw [excluded, keyed'.policy, Except.ok.injEq] at hashed
    exact hashed.symm
  have sources := sameSources_of_material same.material (distinct_of_admitted admitted)
    (distinct_of_admitted lasting.admitted) same.texts
  constructor
  · exact keeps.assessment
  · exact admitted
  · rw [keeps.cacheKey, returned.key, keyed.material, keyed'.material, same.issuerKey, same.legalName,
      materialEvidence_congr same.material, policies]
  · rw [keeps.screenedAt]
    exact timely.begun
  · rw [keeps.validUntil]
    exact timely.current
  · rw [keeps.validUntil, keeps.screenedAt]
    exact timely.lifetime
  · rw [keeps.policyHash, returned.policy, policies]
  · rw [keeps.result, returned.result a lasting.assessed, excluded, sources.assess same.issuerKey same.legalName]

theorem ScreeningRequest.SameMatter.consult
    {c : Consultation}
    (h : r.consult T (some p') = .ok c) : ∃ s, c = .settled s ∧ p.Keeps a s := by
  obtain ⟨key, policyHash, exclusions, keyed, outcome⟩ := ScreeningRequest.consult_eq_ok h
  have reusable := same.reusable lasting admitted keeps timely keyed
  rcases outcome with ⟨q, b, s, ⟨⟩, again, reused, rfl⟩ | ⟨refused, -⟩ | ⟨-, denied, -⟩
  · cases keeps.assessment.symm.trans again.assessment
    obtain ⟨returned, assessed, -, screenedAt, result, validUntil⟩ := ScreeningRequest.reuse_eq_ok keyed again reused
    refine ⟨s, rfl, ⟨assessed, ?_, ?_, screenedAt.trans keeps.screenedAt, ?_, result.trans keeps.result⟩⟩
    · rw [returned.key, ← reusable.key, keeps.cacheKey]
    · rw [returned.policy, ← reusable.policy, keeps.policyHash]
    · obtain ⟨_, _, _, -, returned'⟩ := lasting.returned
      obtain ⟨n, whole⟩ := returned'.whole
      rw [validUntil, keeps.screenedAt, keeps.validUntil, whole, add_sub_cancel_left, days_ediv]
  · exact absurd admitted refused
  · exact absurd reusable (denied p' a rfl)

end

end

namespace EthicsRun
variable {T : EthicsPlatform} {origin : ScreeningRequest} {p : IssuerScreening} {a : EthicalAssessment} {k : String}

/-- The run can read the screening and use the evidence of the issuer, and asks what was asked before. -/
def Repeats (T : EthicsPlatform) (run : EthicsRun) (origin : ScreeningRequest) (p : IssuerScreening) (g : IssuerGroup) :
    Prop :=
  run.screeningFiles g.key = .intact ∧
    ∃ r, run.request T g = .ok r ∧ r.refusals T = [] ∧ r.SameMatter origin ∧ r.Timely p

def HoldsAssessment (s : EthicsState) (k : String) (p : IssuerScreening) (a : EthicalAssessment) : Prop :=
  ∃ p', s.screenings k = some p' ∧ p.Keeps a p'

variable {run : EthicsRun}

theorem screenGroup_holds (lasting : p.Lasting T origin a) {pass : Pass} {g : IssuerGroup}
    (repeats : g.key = k → run.Repeats T origin p g)
    (holds : HoldsAssessment pass.state k p a) : HoldsAssessment (run.screenGroup T pass g).1.state k p a ∧
      (k ∈ (run.screenGroup T pass g).1.attempted → k ∈ pass.attempted) := by
  have screens := screenGroup_screens T run pass g
  by_cases own : g.key = k
  · obtain ⟨intact, r, requested, admitted, same, timely⟩ := repeats own
    obtain ⟨p', found, keeps⟩ := holds
    subst own
    have read : run.previous pass.state g.key = .ok (some p') := by
      rw [previous, intact, found]
      rfl
    have consulted : ∀ c, r.consult T (some p') = .ok c → ∃ s, c = .settled s ∧ p.Keeps a s :=
      fun c => same.consult lasting admitted keeps timely
    constructor
    · rcases screens.own with unchanged | ⟨r', _, screening, requested', read', screened, recorded⟩
      · exact ⟨p', unchanged.trans found, keeps⟩
      · cases requested.symm.trans requested'
        cases read.symm.trans read'
        refine ⟨screening, recorded, ?_⟩
        unfold screenIssuer at screened
        split at screened
        · cases screened
        next settled =>
          obtain ⟨s, ⟨⟩, kept⟩ := consulted _ settled
          cases screened
          exact kept
        next pending =>
          obtain ⟨s, ⟨⟩, -⟩ := consulted _ pending
    · rcases screens.served with ⟨⟨⟨r', _, key, exclusions, requested', read', pending⟩, -⟩, -⟩ | ⟨-, attempted, -⟩
      · cases requested.symm.trans requested'
        cases read.symm.trans read'
        obtain ⟨s, ⟨⟩, -⟩ := consulted _ pending
      · rw [attempted]
        exact id
  · obtain ⟨p', found, keeps⟩ := holds
    refine ⟨⟨p', (screens.others k (Ne.symm own)).trans found, keeps⟩, fun member => ?_⟩
    rcases screens.served with ⟨-, attempted, -⟩ | ⟨-, attempted, -⟩
    · rw [attempted, mem_append, mem_singleton] at member
      exact member.resolve_right (Ne.symm own)
    · rwa [attempted] at member

theorem screenGroups_holds (lasting : p.Lasting T origin a) : ∀ {gs : List IssuerGroup} (pass : Pass),
    (∀ g ∈ gs, g.key = k → run.Repeats T origin p g) →
    HoldsAssessment pass.state k p a → HoldsAssessment (run.screenGroups T gs pass).1.state k p a ∧
      (k ∈ (run.screenGroups T gs pass).1.attempted → k ∈ pass.attempted)
  | [], _, _, holds => ⟨holds, id⟩
  | g :: gs, pass, repeats, holds => by
    obtain ⟨holds', attempted⟩ := screenGroup_holds lasting (repeats g mem_cons_self) holds
    rw [screenGroups]
    split
    next p' e stopped =>
      rw [stopped] at holds' attempted
      exact ⟨holds', attempted⟩
    next p' continued =>
      rw [continued] at holds' attempted
      obtain ⟨holds'', attempted'⟩ := screenGroups_holds lasting p'
        (fun h hh => repeats h (mem_cons_of_mem g hh)) holds'
      exact ⟨holds'', fun member => attempted (attempted' member)⟩

theorem screenUniverse_holds {s : EthicsState} (lasting : p.Lasting T origin a)
    (repeats : ∀ g ∈ run.groups, g.key = k → run.Repeats T origin p g) (holds : HoldsAssessment s k p a) :
    HoldsAssessment (run.screenUniverse T s).1.state k p a ∧ k ∉ (run.screenUniverse T s).1.attempted := by
  unfold screenUniverse
  split
  · split
    · split
      next cursor _ =>
        obtain ⟨holds', attempted⟩ := screenGroups_holds lasting { state := s, result := run.legacy }
          (fun g hg => repeats g ((ordered_perm run cursor).mem_iff.mp hg)) holds
        exact ⟨holds', fun member => not_mem_nil (attempted member)⟩
      · exact ⟨holds, not_mem_nil⟩
    · exact ⟨holds, not_mem_nil⟩
  · exact ⟨holds, not_mem_nil⟩

end EthicsRun

theorem attemptsOf_holds {origin : ScreeningRequest} {p : IssuerScreening} {a : EthicalAssessment}
    {k : String} (lasting : p.Lasting T origin a) : ∀ {runs : List EthicsRun} {s : EthicsState},
    (∀ run ∈ runs, ∀ g ∈ run.groups, g.key = k → run.Repeats T origin p g) →
    EthicsRun.HoldsAssessment s k p a → ∀ served ∈ attemptsOf T s runs, k ∉ served
  | [], _, _, _, _, member => by cases member
  | run :: later, s, repeats, holds, served, member => by
    obtain ⟨holds', unattempted⟩ := screenUniverse_holds lasting (repeats run mem_cons_self) holds
    rcases mem_cons.mp member with rfl | member
    · exact unattempted
    · exact attemptsOf_holds lasting (fun r hr => repeats r (mem_cons_of_mem run hr)) holds' served member

/-- The run can read the screening of the issuer and use its evidence, and its validity period covers the lifetime of the
    clearance. -/
def EthicsRun.CanUse (T : EthicsPlatform) (run : EthicsRun) (k : String) (p : IssuerScreening) : Prop :=
  ∀ g ∈ run.groups, g.key = k →
    run.screeningFiles k = .intact ∧ (∃ r, run.request T g = .ok r ∧ r.refusals T = []) ∧
    p.clearance.validUntil ≤ p.clearance.screenedAt + days run.validityDays

theorem EthicsRun.request_clock {run : EthicsRun} {g : IssuerGroup} {r : ScreeningRequest}
    (h : run.request T g = .ok r) : r.now = run.now ∧ r.validityDays = run.validityDays := by
  simp only [request, ok_iff] at h
  obtain ⟨issuer, -, approvals, -, rfl⟩ := h
  exact ⟨rfl, rfl⟩

/-- While an assessment lasts, no run calls the evaluator for the issuer, as long as every run can use the evidence. -/
theorem one_evaluation_per_window {σ : Type} (T : EthicsPlatform) (origin : ScreeningRequest)
    (evaluator : Option (Evaluator σ)) (previous : Option IssuerScreening) (t : σ) (p : IssuerScreening)
    (obtained : (screenIssuer T origin evaluator previous t).1 = .ok p) (assessed : p.assessment ≠ none)
    (s : EthicsState) (k : String) (kept : s.screenings k = some p) (runs : List EthicsRun)
    (same : ∀ run ∈ runs, ∀ g ∈ run.groups, g.key = k → ∀ r, run.request T g = .ok r → r.refusals T = [] →
      r.SameMatter origin) (window : ∀ run ∈ runs, p.clearance.screenedAt ≤ run.now ∧ run.now < p.clearance.validUntil)
    (usable : ∀ run ∈ runs, run.CanUse T k p) : ∀ served ∈ attemptsOf T s runs, k ∉ served := by
  obtain ⟨a, assessed⟩ := Option.ne_none_iff_exists'.mp assessed
  refine attemptsOf_holds (screenIssuer_lasting obtained assessed) (fun run hrun g hg own => ?_) ⟨p, kept, .refl assessed⟩
  obtain ⟨intact, ⟨r, requested, admitted⟩, lifetime⟩ := usable run hrun g hg own
  obtain ⟨now, validity⟩ := request_clock requested
  obtain ⟨begun, current⟩ := window run hrun
  exact ⟨own ▸ intact, r, requested, admitted, same run hrun g hg own r requested admitted, now ▸ begun, now ▸ current,
    validity ▸ lifetime⟩

def answeringRun (day : Int) (rights : List (String × ProviderRights)) : EthicsRun :=
  universeRun day rights (.ok "") ["GB0000000001"] (by decide)

def answeringRequest (day : Int) : ScreeningRequest where
  issuer := {
    issuerKey := "isin:GB0000000001", legalName := "Issuer plc", isins := ["GB0000000001"]
    identityEvidenceHashes := [hashOf 'a'] }
  evidence := [annualReport]
  now := days day
  sourceApprovals := [{ provider := "provider", evidenceHashes := [hashOf 'a'], validUntil := days 20750 }]

theorem one_evaluation_per_window_steady : ∃ p s, s.screenings "isin:GB0000000001" = some p ∧ p.assessment ≠ none ∧
    ∀ served ∈ attemptsOf (samplePlatform (assessmentOf excludedActivities ["software"])) s
      [answeringRun 20715 approvedRights, answeringRun 20716 approvedRights], "isin:GB0000000001" ∉ served := by
  obtain ⟨p, obtained, assessed, begun, current, lifetime⟩ := exists_of_toOption
    (show ∃ p ∈ (screenIssuer (samplePlatform (assessmentOf excludedActivities ["software"])) (answeringRequest 20714)
        (some fun _ (u : Unit) => (.ok "", u)) none ()).1.toOption, p.assessment ≠ none ∧
      p.clearance.screenedAt ≤ days 20715 ∧ days 20716 < p.clearance.validUntil ∧
      p.clearance.validUntil ≤ p.clearance.screenedAt + days 30 by decide +kernel)
  have requested : ∀ day ∈ [20715, 20716],
      (answeringRun day approvedRights).request (samplePlatform (assessmentOf excludedActivities ["software"]))
          (issuerGroup "GB0000000001") = .ok (answeringRequest day) ∧
        (answeringRequest day).refusals (samplePlatform (assessmentOf excludedActivities ["software"])) = [] := by
    decide +kernel
  have matter : ∀ day, (answeringRequest day).SameMatter (answeringRequest 20714) := fun day =>
    ⟨rfl, rfl, List.Perm.refl _, fun _ => Iff.rfl, by simp [answeringRequest]⟩
  have only : ∀ run ∈ [answeringRun 20715 approvedRights, answeringRun 20716 approvedRights], ∃ day ∈ [20715, 20716],
      run = answeringRun day approvedRights := by simp
  refine ⟨p, { screenings := fun _ => some p }, rfl, assessed, ?_⟩
  refine one_evaluation_per_window _ (answeringRequest 20714) _ none () p obtained assessed _ _ rfl _ ?_ ?_ ?_
  · intro run hrun g hg _ r hr _
    obtain ⟨day, hday, rfl⟩ := only run hrun
    cases mem_singleton.mp hg
    cases (requested day hday).1.symm.trans hr
    exact matter day
  · intro run hrun
    obtain ⟨day, hday, rfl⟩ := only run hrun
    have later : days 20715 ≤ days day ∧ days day ≤ days 20716 := by
      rcases mem_cons.mp hday with rfl | hday
      · decide
      · cases mem_singleton.mp hday
        decide
    exact ⟨begun.trans later.1, later.2.trans_lt current⟩
  · intro run hrun g hg _
    obtain ⟨day, hday, rfl⟩ := only run hrun
    cases mem_singleton.mp hg
    exact ⟨rfl, ⟨_, requested day hday⟩, lifetime⟩

/-- The approval lapses for one run and is renewed: the evaluator is asked again, twenty eight days before the end. -/
theorem lapsed_approval_repeats_evaluation :
    attemptsOf (samplePlatform (assessmentOf excludedActivities ["software"])) {}
      [answeringRun 20714 approvedRights, answeringRun 20715 lapsedRights, answeringRun 20716 approvedRights] =
        [["isin:GB0000000001"], [], ["isin:GB0000000001"]] ∧
    ∃ p ∈ ((answeringRun 20714 approvedRights).screenUniverse (samplePlatform (assessmentOf excludedActivities ["software"]))
        {}).1.state.screenings "isin:GB0000000001", p.assessment ≠ none ∧ p.clearance.result = .pass ∧
      p.clearance.validUntil = days 20744 := by
  decide +kernel

end Money
