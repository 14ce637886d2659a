import Mathlib.Data.List.Sort

/-! Rows grouped by a key in the order of their arrival, and the last two rows of a group in the order of time. -/

namespace Grouping
open List

/-! ### Groups -/

section
variable {κ α : Type} [DecidableEq κ]

/-- Append a row to the group of its key, at the end of the groups where the key is new. -/
def add (k : κ) (a : α) : List (κ × List α) → List (κ × List α)
  | [] => [(k, [a])]
  | (k', rows) :: groups => if k' = k then (k', rows ++ [a]) :: groups else (k', rows) :: add k a groups

def get (k : κ) : List (κ × List α) → List α
  | [] => []
  | (k', rows) :: groups => if k' = k then rows else get k groups

theorem get_add (k k' : κ) (a : α) (groups : List (κ × List α)) :
    get k' (add k a groups) = get k' groups ++ if k = k' then [a] else [] := by
  induction groups with
  | nil => simp [add, get]
  | cons group groups ih =>
    obtain ⟨k'', rows⟩ := group
    by_cases hk : k'' = k
    · subst hk
      by_cases hk' : k'' = k' <;> simp [add, get, hk']
    · by_cases hk' : k'' = k'
      · subst hk'
        simp [add, get, hk, Ne.symm hk]
      · simp [add, get, hk, hk', ih]

/-- The groups have distinct keys, and none is empty. -/
structure Sound (groups : List (κ × List α)) : Prop where
  keys : (groups.map (·.1)).Nodup
  rows : ∀ group ∈ groups, group.2 ≠ []

variable {groups : List (κ × List α)}

theorem mem_keys_add {k k' : κ} {a : α} (h : k' ∈ (add k a groups).map (·.1)) : k' = k ∨ k' ∈ groups.map (·.1) := by
  induction groups with
  | nil => simpa [add] using h
  | cons group groups ih =>
    obtain ⟨k'', rows⟩ := group
    rw [add] at h
    split at h
    · exact Or.inr h
    · rcases mem_cons.mp h with rfl | hlater
      · exact Or.inr mem_cons_self
      · exact (ih hlater).imp id (mem_cons_of_mem _)

omit [DecidableEq κ] in
theorem Sound.nil : Sound ([] : List (κ × List α)) := ⟨.nil, by simp⟩

theorem Sound.add (h : Sound groups) (k : κ) (a : α) : Sound (add k a groups) := by
  induction groups with
  | nil => exact ⟨by simp [Grouping.add], by simp [Grouping.add]⟩
  | cons group groups ih =>
    obtain ⟨k', rows⟩ := group
    have hkeys := nodup_cons.mp h.keys
    have hrows := forall_mem_cons.mp h.rows
    have hrest := ih ⟨hkeys.2, hrows.2⟩
    rw [Grouping.add]
    split
    · exact ⟨h.keys, forall_mem_cons.mpr ⟨by simp, hrows.2⟩⟩
    · refine ⟨nodup_cons.mpr ⟨fun hmem => ?_, hrest.keys⟩, forall_mem_cons.mpr ⟨hrows.1, hrest.rows⟩⟩
      rcases mem_keys_add hmem with rfl | hold
      · contradiction
      · exact hkeys.1 hold

theorem Sound.mem_iff (h : Sound groups) {k : κ} {rows : List α} : (k, rows) ∈ groups ↔ rows = get k groups ∧ rows ≠ [] := by
  induction groups with
  | nil => simp [get]
  | cons group groups ih =>
    obtain ⟨k', rows'⟩ := group
    have hkeys := nodup_cons.mp h.keys
    have hrows := forall_mem_cons.mp h.rows
    have hrest := ih ⟨hkeys.2, hrows.2⟩
    rw [mem_cons, get, Prod.mk.injEq]
    split
    case isTrue hk =>
      subst hk
      constructor
      · rintro (⟨-, rfl⟩ | hmem)
        · exact ⟨rfl, hrows.1⟩
        · exact absurd (mem_map_of_mem hmem) hkeys.1
      · rintro ⟨rfl, -⟩
        exact Or.inl ⟨rfl, rfl⟩
    case isFalse hk =>
      rw [← hrest]
      exact or_iff_right fun hgroup => hk hgroup.1.symm

end

section
variable {α τ : Type} [LinearOrder τ] (time : α → τ)

/-- The last two rows in the order of time; rows of one time keep their order. -/
def lastTwo (rows : List α) : Option (α × α) :=
  match (rows.insertionSort fun a b => time a ≤ time b).reverse with
  | current :: prior :: _ => some (prior, current)
  | _ => none

theorem eq_of_lastTwo_eq_none {rows : List α} (h : lastTwo time rows = none) {a b : α} (ha : a ∈ rows) (hb : b ∈ rows) :
    a = b := by
  have hmem : ∀ x, x ∈ rows ↔ x ∈ (rows.insertionSort fun a b => time a ≤ time b).reverse := by simp
  rw [hmem] at ha hb
  unfold lastTwo at h
  cases hrows : (rows.insertionSort fun a b => time a ≤ time b).reverse with
  | nil => simp [hrows] at ha
  | cons current earlier =>
    cases earlier with
    | nil =>
      rw [hrows, mem_singleton] at ha hb
      rw [ha, hb]
    | cons prior rest => simp [hrows] at h

theorem lastTwo_eq_some {rows : List α} {prior current : α} (h : lastTwo time rows = some (prior, current)) :
    ∃ rest, rows.Perm (current :: prior :: rest) ∧ time prior ≤ time current ∧ ∀ a ∈ rest, time a ≤ time prior := by
  unfold lastTwo at h
  split at h
  case h_1 c p rest heq =>
    obtain ⟨rfl, rfl⟩ := Prod.mk.inj (Option.some.inj h)
    have hperm : rows.Perm (c :: p :: rest) :=
      ((perm_insertionSort _ rows).symm.trans (reverse_perm _).symm).trans (.of_eq heq)
    have hsorted : (rows.insertionSort fun a b => time a ≤ time b).Pairwise fun a b => time a ≤ time b := by
      have : IsTrans α fun a b => time a ≤ time b := ⟨fun _ _ _ => le_trans⟩
      have : Std.Total fun a b => time a ≤ time b := ⟨fun a b => le_total (time a) (time b)⟩
      exact pairwise_insertionSort _ _
    have hreverse := pairwise_reverse.mpr hsorted
    rw [heq, pairwise_cons, pairwise_cons] at hreverse
    exact ⟨rest, hperm, hreverse.1 p mem_cons_self, hreverse.2.1⟩
  case h_2 => cases h

theorem lastTwo_map {f : α → α} (hf : ∀ a, time (f a) = time a) (rows : List α) :
    lastTwo time (rows.map f) = (lastTwo time rows).map fun pair => (f pair.1, f pair.2) := by
  have hsort : (rows.map f).insertionSort (fun a b => time a ≤ time b) =
      (rows.insertionSort fun a b => time a ≤ time b).map f :=
    (map_insertionSort _ _ f rows fun a _ b _ => by rw [hf, hf]).symm
  rw [lastTwo, lastTwo, hsort, ← map_reverse]
  cases (rows.insertionSort fun a b => time a ≤ time b).reverse with
  | nil => rfl
  | cons current earlier => cases earlier <;> rfl

theorem exists_latest : ∀ {rows : List α}, rows ≠ [] → ∃ a ∈ rows, ∀ b ∈ rows, time b ≤ time a
  | [a], _ => ⟨a, by simp, by simp⟩
  | a :: b :: rows, _ => by
    obtain ⟨c, hc, hlatest⟩ := exists_latest (show b :: rows ≠ [] by simp)
    rcases le_total (time a) (time c) with hle | hle
    · exact ⟨c, mem_cons_of_mem a hc, forall_mem_cons.mpr ⟨hle, hlatest⟩⟩
    · exact ⟨a, mem_cons_self, forall_mem_cons.mpr ⟨le_rfl, fun x hx => (hlatest x hx).trans hle⟩⟩

end
end Grouping
