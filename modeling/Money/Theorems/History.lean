import Mathlib.Data.List.Sort
import Money.History

/-! The pages of a history are consecutive pieces of one list, because the job's id makes the order of the rows total. -/

namespace Money
open Checked List HistoryQuery

namespace HistoryQuery

variable {like : String → String → Bool} {workspace : String} {q : HistoryQuery} {jobs rows : List Job} {offset : ℕ}

/-- What the database may answer to the statement. -/
structure Arranged (like : String → String → Bool) (workspace : String) (q : HistoryQuery) (jobs rows : List Job) :
    Prop where
  selected : rows.Perm (jobs.filter (q.selects like workspace))
  ordered : rows.Pairwise q.before

theorem Arranged.unique (distinct : (jobs.map (·.id)).Nodup) {rows' : List Job} (h : q.Arranged like workspace jobs rows)
    (h' : q.Arranged like workspace jobs rows') : rows = rows' := by
  refine Perm.eq_of_pairwise (fun a b ha hb ab ba => ?_) h.ordered h'.ordered (h.selected.trans h'.selected.symm)
  have same : a.id = b.id := by
    unfold before at ab ba
    rcases ab with ab | ⟨at_, ab⟩
    · split_ifs at ab ba <;> omega
    · rcases ba with ba | ⟨-, ba⟩
      · split_ifs at ba <;> omega
      · exact String.le_antisymm ab ba
  exact inj_on_of_nodup_map distinct (mem_of_mem_filter (h.selected.mem_iff.mp ha))
    (mem_of_mem_filter (h'.selected.mem_iff.mp hb)) same

theorem history_eq (rows : List Job) (valid : q.valid) (within : offset ≤ 100000) : q.history rows offset =
    .ok ⟨((rows.drop offset).take q.limit).map Job.listed,
      if offset + q.limit < rows.length then some (offset + q.limit) else none⟩ := by
  have more : q.limit < ((rows.drop offset).take (q.limit + 1)).length ↔ offset + q.limit < rows.length := by
    rw [length_take, length_drop]
    omega
  simp only [history, ok_iff, more, take_take, Nat.min_eq_left (Nat.le_succ _)]
  exact ⟨⟨valid, within⟩, trivial⟩

/-- Every page starts where the one before it ended, and the last one is not full. -/
theorem lists_iff (valid : q.valid) (few : rows.length ≤ 100000) (within : offset ≤ 100000) {listed : List Job} :
    q.Lists (fun _ => rows) offset listed ↔ listed = (rows.drop offset).map Job.listed := by
  induction n : rows.length - offset using Nat.strong_induction_on generalizing offset listed with
  | _ n ih =>
  subst n
  have page := history_eq rows valid within
  by_cases more : offset + q.limit < rows.length
  · rw [if_pos more] at page
    have rest : rows.length - (offset + q.limit) < rows.length - offset := by
      have := valid.1
      omega
    have split : (rows.drop offset).map Job.listed =
        ((rows.drop offset).take q.limit).map Job.listed ++ (rows.drop (offset + q.limit)).map Job.listed := by
      rw [← map_append, ← drop_drop, take_append_drop]
    rw [split]
    constructor
    · rintro (h | ⟨h, at_⟩)
      · cases page.symm.trans h
      · cases page.symm.trans at_
        rw [(ih _ rest (by omega) rfl).mp h]
    · rintro rfl
      exact .next ((ih _ rest (by omega) rfl).mpr rfl) page
  · rw [if_neg more, take_of_length_le (by rw [length_drop]; omega)] at page
    constructor
    · rintro (h | ⟨h, at_⟩)
      · cases page.symm.trans h
        rfl
      · cases page.symm.trans at_
    · rintro rfl
      exact .last page

end HistoryQuery

theorem StateFilter.name_injective : StateFilter.name.Injective := by
  rintro ⟨⟩ ⟨⟩ <;> decide

/-- The pages of a history list every job of the workspace that it selects once; and exactly the jobs that wait or have
    ended are under one state filter. -/
theorem history_lists_and_filters (like : String → String → Bool) (workspace : String) (jobs : List Job)
    (distinct : (jobs.map (·.id)).Nodup) (few : jobs.countP (·.workspaceId = workspace) ≤ 100000) :
    (∀ (q : HistoryQuery) (arrange : ℕ → List Job), q.valid → (∀ n, q.Arranged like workspace jobs (arrange n)) →
      ∃ all, (∀ listed, q.Lists arrange 0 listed ↔ listed = all) ∧
        all.Perm ((jobs.filter (q.selects like workspace)).map Job.listed)) ∧ ∀ j ∈ jobs, j.workspaceId = workspace →
      ((∃! f : StateFilter, selects like workspace { state := some f } j) ↔
        j.status ∈ [.queued, .complete, .rejected, .failed]) := by
  refine ⟨fun q arrange valid arranged => ?_, fun j _ owned => ?_⟩
  · have always : arrange = fun _ => arrange 0 := funext fun n => (arranged n).unique distinct (arranged 0)
    have first := arranged 0
    generalize arrange 0 = rows at always first
    subst always
    have few : rows.length ≤ 100000 := by
      rw [first.selected.length_eq, ← countP_eq_length_filter]
      refine (countP_mono_left fun j _ h => ?_).trans few
      exact decide_eq_true (of_decide_eq_true h).1
    exact ⟨_, fun listed => lists_iff valid few (Nat.zero_le _), first.selected.map _⟩
  · have selected : ∀ f : StateFilter,
        selects like workspace { state := some f } j ↔ j.status.name = f.name := by
      simp [selects, owned]
    simp only [selected]
    constructor
    · rintro ⟨f, same, -⟩
      revert same
      cases j.status <;> cases f <;> decide
    · intro done
      simp only [mem_cons, not_mem_nil, or_false] at done
      obtain ⟨f, same⟩ : ∃ f : StateFilter, j.status.name = f.name := by
        rcases done with h | h | h | h <;> rw [h]
        exacts [⟨.queued, rfl⟩, ⟨.complete, rfl⟩, ⟨.rejected, rfl⟩, ⟨.failed, rfl⟩]
      exact ⟨f, same, fun g hg => StateFilter.name_injective (hg.symm.trans same)⟩

def underwayJob : Job where
  id := "job"
  ticker := "ABC"
  kind := .standard
  mandate := {}
  workspaceId := "workspace"
  idempotencyKey := none
  requestHash := ""
  maxAttempts := 3
  status := .discovery
  createdAt := 0
  updatedAt := 0

def earlierJob : Job := { underwayJob with id := "earlier", status := .complete, createdAt := -1 }

/-- Two jobs, each on a page of its own. -/
theorem history_lists_and_filters_underway : ∃ all,
    (∀ listed, HistoryQuery.Lists { limit := 1 } (fun _ => [underwayJob, earlierJob]) 0 listed ↔ listed = all) ∧
      all.Perm [earlierJob.listed, underwayJob.listed] :=
  (history_lists_and_filters (fun _ _ => true) "workspace" [earlierJob, underwayJob] (by decide) (by decide)).1 { limit := 1 }
    _ (by decide) fun _ => ⟨by decide, by simp [before, earlierJob, underwayJob]⟩

theorem underway_not_listed : selects (fun _ _ => true) "workspace" {} underwayJob ∧
    ∀ f : StateFilter, ¬selects (fun _ _ => true) "workspace" { state := some f } underwayJob := by
  refine ⟨by decide, ?_⟩
  rintro ⟨⟩ <;> decide

end Money
