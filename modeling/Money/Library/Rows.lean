import Mathlib.Tactic.Common

/-! Tables as lists of rows with a key. A lookup finds the first row of a key, an update rewrites the rows of a key in
    place. -/

namespace Rows
open List
variable {ρ κ : Type} [DecidableEq κ] {key : ρ → κ}

def get? (key : ρ → κ) (rows : List ρ) (k : κ) : Option ρ := rows.find? fun r => key r = k

def update (key : ρ → κ) (rows : List ρ) (k : κ) (f : ρ → ρ) : List ρ :=
  rows.map fun r => if key r = k then f r else r

def insert? (key : ρ → κ) (rows : List ρ) (r : ρ) : Option (List ρ) :=
  if get? key rows (key r) = none then some (rows ++ [r]) else none

theorem mem_snoc {r r' : ρ} {rows : List ρ} : r ∈ rows ++ [r'] ↔ r ∈ rows ∨ r = r' := by simp

@[simp] theorem get?_nil (k : κ) : get? key [] k = none := rfl

theorem get?_cons (r : ρ) (rows : List ρ) (k : κ) :
    get? key (r :: rows) k = if key r = k then some r else get? key rows k := by
  by_cases h : key r = k <;> simp [get?, h]

variable {rows : List ρ} {k : κ} {r : ρ}

theorem get?_eq_some (h : get? key rows k = some r) : r ∈ rows ∧ key r = k :=
  ⟨mem_of_find?_eq_some h, by simpa using List.find?_some h⟩

theorem get?_eq_none : get? key rows k = none ↔ ∀ r ∈ rows, key r ≠ k := by
  simp [get?]

theorem insert?_eq_some {rows' : List ρ} :
    insert? key rows r = some rows' ↔ get? key rows (key r) = none ∧ rows' = rows ++ [r] := by
  unfold insert?
  split <;> simp_all [eq_comm]

theorem get?_isSome_of_mem (h : r ∈ rows) : (get? key rows (key r)).isSome := by
  cases hg : get? key rows (key r) with
  | some _ => rfl
  | none => exact absurd rfl (get?_eq_none.mp hg r h)

theorem get?_of_mem : ∀ {rows : List ρ}, (rows.map key).Nodup → r ∈ rows → get? key rows (key r) = some r
  | [], _, h => by cases h
  | r' :: rows, hn, h => by
    simp only [map_cons, nodup_cons] at hn
    rw [get?_cons]
    rcases mem_cons.mp h with rfl | h
    · simp
    · have hne : key r' ≠ key r := fun he => hn.1 (he ▸ mem_map_of_mem h)
      rw [if_neg hne]
      exact get?_of_mem hn.2 h

theorem get?_append (rows rows' : List ρ) (k : κ) : get? key (rows ++ rows') k = (get? key rows k).or (get? key rows' k) := by
  simp only [get?, List.find?_append]

theorem get?_append_singleton (h : get? key rows (key r) = none) (k : κ) :
    get? key (rows ++ [r]) k = if key r = k then some r else get? key rows k := by
  rw [get?_append, get?_cons, get?_nil]
  by_cases hk : key r = k
  · subst hk
    simp [h]
  · simp [hk]

theorem get?_append_of_some {rows' : List ρ} (h : get? key rows k = some r) : get? key (rows ++ rows') k = some r := by
  rw [get?_append, h, Option.some_or]

theorem get?_append_ne_none {rows' : List ρ} (h : get? key rows k ≠ none) : get? key (rows ++ rows') k ≠ none := by
  obtain ⟨r, hr⟩ := Option.ne_none_iff_exists'.mp h
  rw [get?_append_of_some hr]
  exact Option.some_ne_none r

variable {f : ρ → ρ}

theorem get?_update (hf : ∀ r, key (f r) = key r) (k' : κ) :
    get? key (update key rows k f) k' = if k' = k then (get? key rows k').map f else get? key rows k' := by
  induction rows with
  | nil => simp [update]
  | cons r rows ih =>
    have hcons : update key (r :: rows) k f = (if key r = k then f r else r) :: update key rows k f := rfl
    have hkey : key (if key r = k then f r else r) = key r := by
      split
      · exact hf r
      · rfl
    rw [hcons, get?_cons, get?_cons, hkey, ih]
    by_cases hr : key r = k'
    · subst hr
      by_cases hk : key r = k <;> simp [hk]
    · simp [hr]

theorem get?_map (hf : ∀ r, key (f r) = key r) (rows : List ρ) (k : κ) :
    get? key (rows.map f) k = (get? key rows k).map f := by
  induction rows with
  | nil => rfl
  | cons r rows ih =>
    rw [map_cons, get?_cons, get?_cons, hf, ih]
    split <;> rfl

theorem map_update {β : Type} {g : ρ → β} (hg : ∀ r, g (f r) = g r) : (update key rows k f).map g = rows.map g := by
  simp only [update, map_map]
  apply map_congr_left
  intro r _
  simp only [Function.comp_apply]
  split
  · exact hg r
  · rfl

theorem mem_update : r ∈ update key rows k f ↔ ∃ r₀ ∈ rows, r = if key r₀ = k then f r₀ else r₀ := by
  simp only [update, mem_map]
  exact ⟨fun ⟨a, ha, h⟩ => ⟨a, ha, h.symm⟩, fun ⟨a, ha, h⟩ => ⟨a, ha, h.symm⟩⟩

theorem mem_update_of_ne (hf : ∀ r, key (f r) = key r) (hne : key r ≠ k) : r ∈ update key rows k f ↔ r ∈ rows := by
  rw [mem_update]
  constructor
  · rintro ⟨r₀, hr₀, rfl⟩
    split at hne
    next hk => exact absurd ((hf r₀).trans hk) hne
    next hk =>
      rw [if_neg hk]
      exact hr₀
  · exact fun hr => ⟨r, hr, (if_neg hne).symm⟩

theorem mem_update_self (hr : r ∈ rows) : f r ∈ update key rows (key r) f :=
  mem_update.mpr ⟨r, hr, (if_pos rfl).symm⟩

theorem nodup_append_singleton (hn : (rows.map key).Nodup)
    (h : get? key rows (key r) = none) : ((rows ++ [r]).map key).Nodup := by
  rw [map_append, nodup_append]
  refine ⟨hn, by simp, ?_⟩
  intro a ha b hb heq
  obtain ⟨r', hr', rfl⟩ := mem_map.mp ha
  simp only [map_cons, map_nil, mem_singleton] at hb
  exact get?_eq_none.mp h r' hr' (heq.trans hb)

omit [DecidableEq κ] in
theorem nodup_map (hf : ∀ r, key (f r) = key r) (hn : (rows.map key).Nodup) : ((rows.map f).map key).Nodup := by
  rw [map_map]
  exact (map_congr_left fun r _ => hf r).symm ▸ hn

theorem nodup_update {κ' : Type} {key' : ρ → κ'} (hf : ∀ r, key' (f r) = key' r)
    (hn : (rows.map key').Nodup) : ((update key rows k f).map key').Nodup := by
  rw [map_update hf]
  exact hn

omit [DecidableEq κ] in
theorem nodup_filter (p : ρ → Bool) (hn : (rows.map key).Nodup) : ((rows.filter p).map key).Nodup :=
  (filter_sublist.map key).nodup hn

omit [DecidableEq κ] in
theorem nodup_filterMap {α : Type} {k : α → κ} {f : α → Option ρ} (hf : ∀ a r, f a = some r → key r = k a)
    {l : List α} (hn : (l.map k).Nodup) : ((l.filterMap f).map key).Nodup := by
  have part : ((l.filterMap f).map key).Sublist (l.map k) := by
    clear hn
    induction l with
    | nil => exact .slnil
    | cons a l ih =>
      cases made : f a with
      | none =>
        rw [filterMap_cons_none made]
        exact ih.cons _
      | some r =>
        rw [filterMap_cons_some made, map_cons, map_cons, hf a r made]
        exact ih.cons_cons _
  exact part.nodup hn

section
variable (hn : (rows.map key).Nodup) (hr : r ∈ rows)
include hn hr

theorem eq_of_key {r' : ρ} (hr' : r' ∈ rows) (h : key r = key r') : r = r' := by
  have hfound := get?_of_mem hn hr
  rw [h, get?_of_mem hn hr'] at hfound
  exact (Option.some.inj hfound).symm

theorem perm_cons_filter :
    rows.Perm (r :: rows.filter fun r' => key r' ≠ key r) := by
  have distinct : rows.Nodup := (pairwise_map.mp hn).imp fun different same => different (congrArg key same)
  have others : (r :: rows.filter fun r' => key r' ≠ key r).Nodup := nodup_cons.mpr ⟨by simp, distinct.filter _⟩
  refine (perm_ext_iff_of_nodup distinct others).mpr fun r' => ?_
  rw [mem_cons, mem_filter, decide_eq_true_eq]
  constructor
  · intro hr'
    by_cases same : key r' = key r
    · exact .inl (eq_of_key hn hr' hr same)
    · exact .inr ⟨hr', same⟩
  · rintro (rfl | ⟨hr', -⟩)
    · exact hr
    · exact hr'

theorem update_const (f : ρ → ρ) :
    update key rows (key r) (fun _ => f r) = update key rows (key r) f := by
  refine map_congr_left fun r' hr' => ?_
  split
  next hkey => rw [eq_of_key hn hr' hr hkey]
  next => rfl

end

def Within (key : ρ → κ) (rows rows' : List ρ) : Prop := ∀ r ∈ rows', ∃ r₀ ∈ rows, key r₀ = key r

omit [DecidableEq κ] in
theorem within_refl : Within key rows rows := fun r hr => ⟨r, hr, rfl⟩

omit [DecidableEq κ] in
theorem within_map (hf : ∀ r, key (f r) = key r) : Within key rows (rows.map f) := by
  intro r hr
  obtain ⟨r₀, hr₀, rfl⟩ := mem_map.mp hr
  exact ⟨r₀, hr₀, (hf r₀).symm⟩

theorem within_update {κ' : Type} {key' : ρ → κ'} (hf : ∀ r, key' (f r) = key' r) :
    Within key' rows (update key rows k f) := by
  refine within_map fun r => ?_
  split
  · exact hf r
  · rfl

omit [DecidableEq κ] in
theorem within_filter {p : ρ → Bool} : Within key rows (rows.filter p) :=
  fun r hr => ⟨r, (mem_filter.mp hr).1, rfl⟩

theorem length_le_one (h : rows.Pairwise fun _ _ => False) : rows.length ≤ 1 := by
  match rows, h with
  | [], _ => exact Nat.zero_le _
  | [_], _ => exact Nat.le_refl _
  | _ :: _ :: _, h => exact (rel_of_pairwise_cons h (mem_cons_self ..)).elim

theorem eq_of_length_le_one (h : rows.length ≤ 1) {r' : ρ} (hr : r ∈ rows) (hr' : r' ∈ rows) : r = r' := by
  match rows, h with
  | [_], _ => exact (mem_singleton.mp hr).trans (mem_singleton.mp hr').symm

end Rows
