import Money.Library.RoundRobin
import Money.Theorems.Text
import Money.UniverseProgress

/-! Each run begins where the last one ended, so the services of any runs go round the candidates one by one. -/

namespace Money
open Checked Text RoundRobin List EnrichmentRun

variable {rows : List CandidateRow} {binding : Option String} {file : CursorFile} {order : List ℕ}

theorem candidates_perm (rows : List CandidateRow) : (candidates rows).Perm (enrichmentInputs rows) :=
  perm_insertionSort _ _

theorem candidates_sorted (rows : List CandidateRow) :
    (candidates rows).Pairwise fun i j => before (keyAt rows i) (keyAt rows j) = true := by
  have total : Std.Total fun i j => before (keyAt rows i) (keyAt rows j) = true := ⟨fun i j => before_total _ _⟩
  have trans : IsTrans ℕ fun i j => before (keyAt rows i) (keyAt rows j) = true := ⟨fun _ _ _ => before_trans⟩
  exact pairwise_insertionSort _ _

def DistinctKeys (rows : List CandidateRow) : Prop := ((candidates rows).map (keyAt rows)).Nodup

def startAfter (rows : List CandidateRow) (key : String) : ℕ := bisectRight ((candidates rows).map (keyAt rows)) key

theorem startAfter_le (rows : List CandidateRow) (key : String) : startAfter rows key ≤ (candidates rows).length := by
  simpa [startAfter, bisectRight] using countP_le_length

theorem enrichmentOrder_eq_rotate {replay : Bool} (h : enrichmentOrder rows binding replay file = .ok order) :
    ∃ start, order = (candidates rows).rotate start ∧
      ∀ key, file.resumeAfter binding = .ok (some key) → replay = false → start = startAfter rows key := by
  unfold enrichmentOrder at h
  split at h
  next offline =>
    obtain rfl := pure_eq_ok.mp h
    rcases offline with offline | empty
    · exact ⟨0, by simp, by simp [offline]⟩
    · by_cases kept : ∃ key, file.resumeAfter binding = .ok (some key)
      · obtain ⟨key, hkey⟩ := kept
        exact ⟨startAfter rows key, by simp [empty], fun key' hkey' _ => by simp_all⟩
      · exact ⟨0, by simp, fun key hkey => absurd ⟨key, hkey⟩ kept⟩
  next =>
    obtain ⟨resumed, hresumed, h⟩ := bind_eq_ok.mp h
    cases resumed with
    | none => exact ⟨0, by simp [← pure_eq_ok.mp h], by simp [hresumed]⟩
    | some key =>
      obtain rfl := pure_eq_ok.mp h
      refine ⟨startAfter rows key, (rotate_eq_drop_append_take (startAfter_le rows key)).symm, fun key' hkey' _ => ?_⟩
      rw [Option.some.inj (Except.ok.inj (hresumed.symm.trans hkey'))]

theorem enrichmentOrder_perm {replay : Bool} (h : enrichmentOrder rows binding replay file = .ok order) :
    order.Perm (enrichmentInputs rows) := by
  obtain ⟨start, rfl, -⟩ := enrichmentOrder_eq_rotate h
  exact (rotate_perm _ _).trans (candidates_perm rows)

/-- There is an order, unless the parser of the cursor fails in a way that is not expected of it. -/
theorem enrichmentOrder_isOk (replay : Bool) : (∃ order, enrichmentOrder rows binding replay file = .ok order) ↔
    (replay = true ∨ candidates rows = []) ∨ file ≠ .nested := by
  unfold enrichmentOrder
  split
  next offline => exact iff_of_true ⟨_, rfl⟩ (.inl offline)
  next online =>
    rw [or_iff_right online]
    constructor
    · rintro ⟨order, h⟩ rfl
      cases h
    · intro readable
      obtain ⟨resumed, hresumed⟩ : ∃ resumed, file.resumeAfter binding = .ok resumed := by
        unfold CursorFile.resumeAfter
        split <;> first | exact absurd rfl readable | exact ⟨_, rfl⟩ | (split <;> exact ⟨_, rfl⟩)
      rw [bind_of_ok hresumed]
      cases resumed <;> exact ⟨_, rfl⟩

/-! ### Where the next run begins -/

theorem before_refl (key : String) : before key key = true := by
  rcases before_total key key with h | h <;> exact h

theorem split_at_key (key : String) : ∀ {l : List ℕ}, (l.Pairwise fun i j => before (keyAt rows i) (keyAt rows j) = true) →
    (∀ i ∈ l.take (bisectRight (l.map (keyAt rows)) key), before (keyAt rows i) key = true) ∧
      ∀ i ∈ l.drop (bisectRight (l.map (keyAt rows)) key), before (keyAt rows i) key = false
  | [], _ => by simp
  | a :: l, sorted => by
    obtain ⟨first, later⟩ := pairwise_cons.mp sorted
    have ih := split_at_key key later
    by_cases ha : before (keyAt rows a) key = true
    · simpa [bisectRight, ha] using ih
    · -- the keys that follow are after this one
      have behind : ∀ i ∈ l, before (keyAt rows i) key = false := fun i hi =>
        Bool.eq_false_iff.mpr fun h => ha (before_trans (first i hi) h)
      have none_before : bisectRight ((a :: l).map (keyAt rows)) key = 0 := by
        simpa [bisectRight, ha, countP_eq_zero] using behind
      rw [none_before]
      simpa [ha] using behind

theorem startAfter_keyAt (distinct : DistinctKeys rows) {k : ℕ} (hk : k < (candidates rows).length) :
    startAfter rows (keyAt rows (candidates rows)[k]) = k + 1 := by
  obtain ⟨front, back⟩ := split_at_key (keyAt rows (candidates rows)[k]) (candidates_sorted rows)
  change ∀ i ∈ (candidates rows).take (startAfter rows _), _ at front
  change ∀ i ∈ (candidates rows).drop (startAfter rows _), _ at back
  refine Nat.le_antisymm (Nat.not_lt.mp fun more => ?_) (Nat.not_le.mp fun fewer => ?_)
  · have hnext : k + 1 < (candidates rows).length := more.trans_le (startAfter_le rows _)
    have h := front _ (mem_take_iff_getElem.mpr ⟨k + 1, by omega, rfl⟩)
    have h' := pairwise_iff_getElem.mp (candidates_sorted rows) k (k + 1) hk hnext (Nat.lt_succ_self k)
    exact pairwise_iff_getElem.mp (pairwise_map.mp distinct) k (k + 1) hk hnext (Nat.lt_succ_self k)
      (before_antisymm h' h)
  · have h := back _ (mem_drop_iff_getElem.mpr ⟨k - startAfter rows (keyAt rows (candidates rows)[k]), by omega, rfl⟩)
    simp [Nat.add_sub_cancel' fewer, before_refl] at h

theorem resumeAfter_record (i : ℕ) :
    (recordNetworkProgress rows binding i).resumeAfter binding = .ok (some (keyAt rows i)) := by
  simp [recordNetworkProgress, CursorFile.resumeAfter, pure, Except.pure]

theorem enrichmentOrder_record (distinct : DistinctKeys rows) {k : ℕ} (hk : k < (candidates rows).length) :
    enrichmentOrder rows binding false (recordNetworkProgress rows binding (candidates rows)[k]) =
      .ok ((candidates rows).rotate (k + 1)) := by
  have readable : recordNetworkProgress rows binding (candidates rows)[k] ≠ .nested := nofun
  obtain ⟨order, h⟩ : ∃ order, enrichmentOrder rows binding false
      (recordNetworkProgress rows binding (candidates rows)[k]) = .ok order :=
    (enrichmentOrder_isOk false).mpr (.inr readable)
  obtain ⟨start, rfl, hstart⟩ := enrichmentOrder_eq_rotate h
  rw [h, hstart _ (resumeAfter_record _) rfl, startAfter_keyAt distinct hk]

theorem cursor_live (h : enrichmentOrder rows binding false file = .ok order) (count : ℕ) :
    (live count).cursor rows binding file =
      ((order.take count).getLast?.map (recordNetworkProgress rows binding)).getD file := by
  simp only [cursor, serviced, h, Except.toOption, Option.getD_some]
  induction order.take count using List.reverseRecOn with
  | nil => rfl
  | append_singleton l i _ => simp

theorem enrichmentOrder_after (distinct : DistinctKeys rows) (h : enrichmentOrder rows binding false file = .ok order)
    (count : ℕ) : enrichmentOrder rows binding false ((live count).cursor rows binding file) =
      .ok (order.rotate (min count order.length)) := by
  rw [cursor_live h, take_eq_take_min]
  obtain ⟨start, rfl, -⟩ := enrichmentOrder_eq_rotate h
  cases served : min count ((candidates rows).rotate start).length with
  | zero => simpa using h
  | succ k =>
    have hk : k + 1 ≤ (candidates rows).length := by
      rw [← served, length_rotate]
      exact Nat.min_le_right ..
    have hlast : (k + start) % (candidates rows).length < (candidates rows).length := Nat.mod_lt _ (by omega)
    have last : (((candidates rows).rotate start).take (k + 1)).getLast? =
        some (candidates rows)[(k + start) % (candidates rows).length] := by
      rw [List.getLast?_eq_getElem?, length_take, length_rotate, Nat.min_eq_left hk, Nat.add_sub_cancel,
        getElem?_take_of_lt (Nat.lt_succ_self k), getElem?_rotate (by omega), getElem?_eq_getElem hlast]
    have next : ((k + start) % (candidates rows).length + 1) % (candidates rows).length =
        (start + (k + 1)) % (candidates rows).length := by
      rw [Nat.mod_add_mod]
      congr 1
      omega
    rw [last, Option.map_some, Option.getD_some, enrichmentOrder_record distinct hlast, rotate_rotate,
      ← rotate_mod, next, rotate_mod]

theorem services_of_error {e : Err} (h : enrichmentOrder rows binding false file = .error e) :
    ∀ runs, services rows binding file runs = []
  | [] => rfl
  | .replay :: later => services_of_error h later
  | .live count :: later => by
    have nothing : (live count).serviced rows binding file = [] := by
      simp [serviced, h, Except.toOption]
    rw [services, nothing, cursor, nothing]
    exact services_of_error h later

theorem services_balanced (distinct : DistinctKeys rows) {i j : ℕ} (hi : i ∈ enrichmentInputs rows)
    (hj : j ∈ enrichmentInputs rows) : ∀ (runs : List EnrichmentRun) {file : CursorFile} {order earlier served : List ℕ},
    enrichmentOrder rows binding false file = .ok order → Balanced order earlier →
    served <+: services rows binding file runs → (earlier ++ served).count i ≤ (earlier ++ served).count j + 1
  | [], file, order, earlier, served, horder, h, hserved => by
    have members := enrichmentOrder_perm horder
    rw [prefix_nil.mp hserved, append_nil]
    exact h.count_le (members.mem_iff.mpr hi) (members.mem_iff.mpr hj)
  | .replay :: later, _, _, _, _, horder, h, hserved => services_balanced distinct hi hj later horder h hserved
  | .live count :: later, file, order, earlier, served, horder, h, hserved => by
    have members := enrichmentOrder_perm horder
    have nodup := members.nodup_iff.mpr (nodup_range.filter _)
    obtain ⟨rest, hrest⟩ := hserved
    have begins : (live count).serviced rows binding file = order.take count := by
      rw [serviced, horder]
      rfl
    rw [services, begins] at hrest
    rcases append_eq_append_iff.mp hrest with ⟨left, hleft, -⟩ | ⟨more, rfl, hmore⟩
    · -- the run goes on after these services
      have hlength : served.length ≤ order.length :=
        (prefix_append served left).length_le.trans (hleft ▸ length_take_le' ..)
      have taken : served = order.take served.length :=
        prefix_iff_eq_take.mp ((prefix_append served left).trans (hleft ▸ take_prefix ..))
      have turned := h.serveAll nodup hlength
      rw [← taken] at turned
      refine turned.count_le ?_ ?_
      · exact (rotate_perm _ _).mem_iff.mpr (members.mem_iff.mpr hi)
      · exact (rotate_perm _ _).mem_iff.mpr (members.mem_iff.mpr hj)
    · rw [← append_assoc]
      refine services_balanced distinct hi hj later (enrichmentOrder_after distinct horder count) ?_ ⟨rest, hmore.symm⟩
      have turned := h.serveAll nodup (Nat.min_le_right count _)
      rwa [← take_eq_take_min] at turned

theorem services_replay (rows : List CandidateRow) (binding : Option String) : ∀ (runs : List EnrichmentRun)
    (file : CursorFile), services rows binding file runs = services rows binding file (runs.filter (· ≠ .replay))
  | [], _ => rfl
  | .replay :: later, file => services_replay rows binding later file
  | .live count :: later, file => by
    simp only [services, filter_cons, ne_eq, reduceCtorEq, not_false_eq_true, decide_true, if_true]
    rw [services_replay rows binding later]

/-- The candidate has the least key after the given one; where no key is after it, the least of all. -/
def NextAfter (rows : List CandidateRow) (key : String) (first : ℕ) : Prop :=
  ∀ j ∈ enrichmentInputs rows,
    (before (keyAt rows j) key = false →
      before (keyAt rows first) key = false ∧ before (keyAt rows first) (keyAt rows j) = true) ∧
    ((∀ i ∈ enrichmentInputs rows, before (keyAt rows i) key = true) → before (keyAt rows first) (keyAt rows j) = true)

theorem nextAfter_head {key : String} {first : ℕ} {rest : List ℕ} (hkey : file.resumeAfter binding = .ok (some key))
    (h : enrichmentOrder rows binding false file = .ok (first :: rest)) : NextAfter rows key first := by
  intro j hj
  obtain ⟨start, horder, hstart⟩ := enrichmentOrder_eq_rotate h
  obtain rfl := hstart key hkey rfl
  obtain ⟨front, back⟩ := split_at_key key (candidates_sorted rows)
  change ∀ i ∈ (candidates rows).take (startAfter rows key), _ at front
  change ∀ i ∈ (candidates rows).drop (startAfter rows key), _ at back
  replace horder := horder.symm
  rw [rotate_eq_drop_append_take (startAfter_le rows key)] at horder
  have sorted := candidates_sorted rows
  rw [← take_append_drop (startAfter rows key) (candidates rows)] at sorted
  obtain ⟨sortedFront, sortedBack, -⟩ := pairwise_append.mp sorted
  have hj' : j ∈ (candidates rows).take (startAfter rows key) ∨ j ∈ (candidates rows).drop (startAfter rows key) := by
    rw [← mem_append, take_append_drop]
    exact (candidates_perm rows).mem_iff.mpr hj
  have least : ∀ {l l' : List ℕ}, (l.Pairwise fun i j => before (keyAt rows i) (keyAt rows j) = true) → l ++ l' = first :: rest →
      j ∈ l → first ∈ l ∧ before (keyAt rows first) (keyAt rows j) = true := by
    intro l l' hl hfirst hmem
    cases l with
    | nil => cases hmem
    | cons a l =>
      obtain ⟨rfl, -⟩ := List.cons.inj hfirst
      refine ⟨mem_cons_self, ?_⟩
      rcases mem_cons.mp hmem with rfl | hmem
      · exact before_refl _
      · exact (pairwise_cons.mp hl).1 j hmem
  constructor
  · intro hafter
    have hdrop := hj'.resolve_left fun h => by simp [front j h] at hafter
    obtain ⟨hfirst, hle⟩ := least sortedBack horder hdrop
    exact ⟨back first hfirst, hle⟩
  · intro hall
    -- none is after the key, so the round begins anew
    have hempty : (candidates rows).drop (startAfter rows key) = [] := eq_nil_iff_forall_not_mem.mpr fun i hi => by
      have := hall i ((candidates_perm rows).mem_iff.mp (mem_of_mem_drop hi))
      simp [back i hi] at this
    rw [hempty, nil_append] at horder
    refine (least sortedFront (by rw [append_nil]; exact horder) (hj'.resolve_right ?_)).2
    simp [hempty]

/-- Every run has an order, a permutation of the candidates, exactly if reading the cursor fails in expected ways only.
    The services of any runs from any cursor go round: each candidate was serviced as often as any other, up to one. An
    offline run changes nothing. -/
theorem enrichment_order_is_fair (rows : List CandidateRow) (binding : Option String) (file : CursorFile) :
    ((∀ replay, ∃ order, enrichmentOrder rows binding replay file = .ok order ∧ order.Perm (enrichmentInputs rows)) ↔
      (file = .nested → enrichmentInputs rows = [])) ∧
    (DistinctKeys rows → ∀ runs served, served <+: services rows binding file runs →
      ∀ i ∈ enrichmentInputs rows, ∀ j ∈ enrichmentInputs rows, served.count i ≤ served.count j + 1) ∧
    (∀ key first rest, file.resumeAfter binding = .ok (some key) →
      enrichmentOrder rows binding false file = .ok (first :: rest) → NextAfter rows key first) ∧
    replay.cursor rows binding file = file ∧
    ∀ runs, services rows binding file runs = services rows binding file (runs.filter (· ≠ .replay)) := by
  refine ⟨⟨fun all nested => ?_, fun expected replay => ?_⟩, fun distinct runs served hserved i hi j hj => ?_,
    fun key first rest hkey horder => nextAfter_head hkey horder, rfl, fun runs => services_replay rows binding runs file⟩
  · obtain ⟨order, horder, -⟩ := all false
    rcases (enrichmentOrder_isOk false).mp ⟨order, horder⟩ with (offline | empty) | readable
    · cases offline
    · exact perm_nil.mp (empty ▸ (candidates_perm rows).symm)
    · exact absurd nested readable
  · have able : (replay = true ∨ candidates rows = []) ∨ file ≠ .nested := by
      by_cases nested : file = .nested
      · exact .inl (.inr (perm_nil.mp (expected nested ▸ candidates_perm rows)))
      · exact .inr nested
    obtain ⟨order, horder⟩ := (enrichmentOrder_isOk replay).mpr able
    exact ⟨order, horder, enrichmentOrder_perm horder⟩
  · cases horder : enrichmentOrder rows binding false file with
    | error e =>
      rw [services_of_error horder, prefix_nil] at hserved
      simp [hserved]
    | ok order => simpa using services_balanced distinct hi hj runs horder (Balanced.init _) hserved

def threeRows : List CandidateRow := [⟨"B", none, true⟩, ⟨"A", some "GB00B03MLX29", true⟩, ⟨"C", none, true⟩]

theorem enrichment_order_is_fair_sample : DistinctKeys threeRows ∧
    ∀ served, served <+: services threeRows none .unreadable [.live 2, .replay, .live 3] →
      served.count 0 ≤ served.count 2 + 1 := by
  have distinct : DistinctKeys threeRows := by
    unfold DistinctKeys
    decide
  refine ⟨distinct, fun served hserved => ?_⟩
  exact (enrichment_order_is_fair threeRows none .unreadable).2.1 distinct _ served hserved 0 (by decide) 2 (by decide)

/-- A cursor file that is nested too deeply leaves a live run without an order, and an offline one with it. -/
theorem nested_cursor_raises : enrichmentInputs threeRows ≠ [] ∧
    enrichmentOrder threeRows none false .nested = .error .recursion ∧
    enrichmentOrder threeRows none true .nested = .ok [1, 0, 2] := by decide

end Money
