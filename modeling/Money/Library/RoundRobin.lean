import Mathlib.Data.List.Rotate
import Mathlib.Order.Lattice

/-! Rounds over a sorted list that go on where the last one ended. A member that is in every list and is passed over
    only when the round ends is served before any other is served twice. -/

namespace RoundRobin
open List
variable {κ : Type}

def cursorAfter (cursor : Option κ) (served : List κ) : Option κ := served.getLast?.or cursor

theorem cursorAfter_append (cursor : Option κ) (served later : List κ) :
    cursorAfter cursor (served ++ later) = cursorAfter (cursorAfter cursor served) later := by
  simp only [cursorAfter, List.getLast?_append, Option.or_assoc]

theorem cursorAfter_map {ι : Type} (f : κ → ι) (cursor : Option κ) (served : List κ) :
    cursorAfter (cursor.map f) (served.map f) = (cursorAfter cursor served).map f := by
  simp only [cursorAfter, List.getLast?_map]
  cases served.getLast? <;> rfl

/-! ### How often each is served -/

section Counts
variable {α : Type} [DecidableEq α] {order served : List α} {a b : α} {rest : List α}

/-- Those that come next have all been served equally often, and the others once more. -/
def Balanced (order served : List α) : Prop :=
  ∃ q front back, order = front ++ back ∧ (∀ a ∈ front, served.count a = q) ∧ ∀ a ∈ back, served.count a = q + 1

theorem Balanced.init (order : List α) : Balanced order [] := ⟨0, order, [], by simp⟩

theorem Balanced.count_le (h : Balanced order served) (ha : a ∈ order) (hb : b ∈ order) :
    served.count a ≤ served.count b + 1 := by
  obtain ⟨q, front, back, rfl, hfront, hback⟩ := h
  have bounds : ∀ x ∈ front ++ back, q ≤ served.count x ∧ served.count x ≤ q + 1 := by
    intro x hx
    rcases mem_append.mp hx with hx | hx
    · simp [hfront x hx]
    · simp [hback x hx]
  have := bounds a ha
  have := bounds b hb
  omega

theorem Balanced.serve (h : Balanced (a :: rest) served) (nodup : (a :: rest).Nodup) :
    Balanced (rest ++ [a]) (served ++ [a]) := by
  have others : ∀ x ∈ rest, (served ++ [a]).count x = served.count x := by
    intro x hx
    have hne : a ≠ x := fun same => (nodup_cons.mp nodup).1 (same ▸ hx)
    simp [count_append, hne]
  obtain ⟨q, front, back, split, hfront, hback⟩ := h
  cases front with
  | nil =>
    -- everybody has been served once more: a new turn begins
    simp only [nil_append] at split
    subst split
    refine ⟨q + 1, rest, [a], rfl, fun x hx => ?_, fun x hx => ?_⟩
    · rw [others x hx]
      exact hback x (mem_cons_of_mem _ hx)
    · simp [mem_singleton.mp hx, count_append, hback a mem_cons_self]
  | cons b front =>
    obtain ⟨rfl, rfl⟩ := List.cons.inj split
    refine ⟨q, front, back ++ [a], append_assoc .., fun x hx => ?_, fun x hx => ?_⟩
    · rw [others x (mem_append_left _ hx)]
      exact hfront x (mem_cons_of_mem _ hx)
    · rcases mem_append.mp hx with hx | hx
      · rw [others x (mem_append_right _ hx)]
        exact hback x hx
      · simp [mem_singleton.mp hx, count_append, hfront a mem_cons_self]

theorem Balanced.serveAll : ∀ {count : ℕ} {order served : List α}, Balanced order served → order.Nodup →
    count ≤ order.length → Balanced (order.rotate count) (served ++ order.take count)
  | 0, order, served, h, _, _ => by simpa using h
  | count + 1, [], served, _, _, hcount => by simp at hcount
  | count + 1, a :: rest, served, h, nodup, hcount => by
    have turned : (rest ++ [a]).Nodup := nodup.perm (perm_append_singleton a rest).symm
    have hcount' : count ≤ rest.length := Nat.le_of_succ_le_succ hcount
    have h' : Balanced ((rest ++ [a]).rotate count) (served ++ [a] ++ (rest ++ [a]).take count) :=
      (h.serve nodup).serveAll turned (by simp; omega)
    rw [take_append_of_le_length hcount', append_assoc, singleton_append] at h'
    rwa [rotate_cons_succ, take_succ_cons]

end Counts

variable [LinearOrder κ]

def Before (c y x : κ) : Prop := c < y ∧ y < x ∨ c < y ∧ x ≤ c ∨ y < x ∧ x ≤ c

variable {c x y z : κ}

theorem ne_of_before (hc : c ≠ x) (hy : y = c ∨ Before x y c) (hz : Before c z x) : y ≠ z := by
  unfold Before at *
  grind

theorem Before.advance (hc : c ≠ x) (hy : y = c ∨ Before x y c) (hz : Before c z x) : Before x y z := by
  unfold Before at *
  grind

variable {post pre : List κ} {cursor : Option κ}

theorem pairwise_before_of_sorted (sorted : (pre ++ x :: post).Pairwise (· < ·)) : pre.Pairwise (Before · · x) := by
  obtain ⟨hpre, -, hx⟩ := pairwise_append.mp sorted
  exact hpre.imp_of_mem fun _ hv huv => .inl ⟨huv, hx _ hv x mem_cons_self⟩

theorem pairwise_before_of_turned {front back : List κ} (sorted : (front ++ c :: back).Pairwise (· < ·))
    (split : back ++ (front ++ [c]) = pre ++ x :: post) : (c :: pre).Pairwise (Before · · x) := by
  obtain ⟨hfront, hback, hacross⟩ := pairwise_append.mp sorted
  obtain ⟨hcback, hback⟩ := pairwise_cons.mp hback
  have le_of_mem : x ∈ front ++ [c] → x ≤ c := by
    intro member
    rcases mem_append.mp member with hx | hx
    · exact (hacross x hx c mem_cons_self).le
    · exact (mem_singleton.mp hx).le
  rcases append_eq_append_iff.mp split with ⟨rest, rfl, hrest⟩ | ⟨rest, rfl, hrest⟩
  · -- `x` comes after the whole rest of the list
    have hxc : x ≤ c := le_of_mem (by simp [hrest])
    have sorted' : (front ++ [c]).Pairwise (· < ·) :=
      pairwise_append.mpr ⟨hfront, pairwise_singleton _ _, fun a ha b hb =>
        hacross a ha b (mem_singleton.mp hb ▸ mem_cons_self)⟩
    rw [hrest] at sorted'
    have hrest_x : ∀ v ∈ rest, v < x := fun v hv => (pairwise_append.mp sorted').2.2 v hv x mem_cons_self
    refine pairwise_cons.mpr ⟨fun v hv => ?_, pairwise_append.mpr ⟨?_, ?_, fun u hu v hv => ?_⟩⟩
    · rcases mem_append.mp hv with hv | hv
      · exact .inr (.inl ⟨hcback v hv, hxc⟩)
      · exact .inr (.inr ⟨hrest_x v hv, hxc⟩)
    · exact hback.imp_of_mem fun hu _ huv => .inr (.inl ⟨huv, hxc.trans (hcback _ hu).le⟩)
    · exact pairwise_before_of_sorted sorted'
    · exact .inr (.inr ⟨hrest_x v hv, hxc.trans (hcback u hu).le⟩)
  · -- `x` is in the rest of the list
    cases rest with
    | nil =>
      simp only [nil_append, append_nil] at hrest hback hcback
      have hxc : x ≤ c := le_of_mem (hrest ▸ mem_cons_self)
      refine pairwise_cons.mpr ⟨fun v hv => .inr (.inl ⟨hcback v hv, hxc⟩), ?_⟩
      exact hback.imp_of_mem fun hu _ huv => .inr (.inl ⟨huv, hxc.trans (hcback _ hu).le⟩)
    | cons b rest =>
      obtain ⟨rfl, -⟩ := List.cons.inj hrest
      obtain ⟨hpre, -, hpre_x⟩ := pairwise_append.mp hback
      refine pairwise_cons.mpr ⟨fun v hv => .inl ⟨?_, hpre_x v hv x mem_cons_self⟩, ?_⟩
      · exact hcback v (mem_append_left _ hv)
      · exact hpre.imp_of_mem fun _ hv huv => .inl ⟨huv, hpre_x _ hv x mem_cons_self⟩

/-! ### Rounds -/

/-- One round serves members before `x` in the order of the round, and then `x` unless it ends there. -/
def Round (x : κ) (cursor : Option κ) (served : List κ) : Prop :=
  ∃ front rest, served = front ++ rest ∧ x ∉ front ∧ (rest = [] ∨ rest.head? = some x) ∧
    (cursor.toList ++ front).Pairwise (Before · · x)

def Rounds (x : κ) : Option κ → List (List κ) → Prop
  | _, [] => True
  | cursor, served :: later => Round x cursor served ∧ Rounds x (cursorAfter cursor served) later

/-- What has been served lies behind the cursor and has not come round to `x`. -/
structure Behind (x : κ) (cursor : Option κ) (served : List κ) : Prop where
  nodup : served.Nodup
  waiting : x ∉ served
  behind : served ≠ [] → ∃ c, cursor = some c ∧ c ≠ x ∧ ∀ y ∈ served, y = c ∨ Before x y c

theorem Behind.serve {served : List κ} (h : Behind x cursor served) (hz : z ≠ x)
    (next : ∀ c ∈ cursor, Before c z x) : Behind x (some z) (served ++ [z]) := by
  by_cases first : served = []
  · subst first
    exact ⟨by simp, by simpa using hz.symm, fun _ => ⟨z, rfl, hz, by simp⟩⟩
  obtain ⟨c, rfl, hc, behind⟩ := h.behind first
  have hcz := next c rfl
  refine ⟨?_, ?_, fun _ => ⟨z, rfl, hz, fun y hy => ?_⟩⟩
  · refine nodup_append.mpr ⟨h.nodup, nodup_singleton z, fun y hy z' hz' => ?_⟩
    rw [mem_singleton.mp hz']
    exact ne_of_before hc (behind y hy) hcz
  · simpa [hz.symm] using h.waiting
  · rcases mem_append.mp hy with hy | hy
    · exact .inr (Before.advance hc (behind y hy) hcz)
    · exact .inl (mem_singleton.mp hy)

theorem Behind.serveAll : ∀ {front : List κ} {cursor : Option κ} {served : List κ}, Behind x cursor served → x ∉ front →
    (cursor.toList ++ front).Pairwise (Before · · x) → Behind x (cursorAfter cursor front) (served ++ front)
  | [], cursor, served, h, _, _ => by simpa [cursorAfter] using h
  | z :: front, cursor, served, h, hx, hpair => by
    simp only [mem_cons, not_or] at hx
    have next : ∀ c ∈ cursor, Before c z x := by
      rintro c rfl
      exact (pairwise_cons.mp hpair).1 z mem_cons_self
    have hfront : ((some z).toList ++ front).Pairwise (Before · · x) :=
      hpair.sublist (sublist_append_right cursor.toList (z :: front))
    have h' := (h.serve (Ne.symm hx.1) next).serveAll hx.2 hfront
    have last : cursorAfter (some z) front = cursorAfter cursor (z :: front) := by
      simp only [cursorAfter, List.getLast?_cons]
      cases front.getLast? <;> rfl
    rwa [last, append_assoc, singleton_append] at h'

theorem fair : ∀ {rounds : List (List κ)} {cursor : Option κ} {served : List κ}, Behind x cursor served →
    Rounds x cursor rounds → ∃ front rest, served ++ rounds.flatten = front ++ rest ∧ front.Nodup ∧ x ∉ front ∧
      (rest = [] ∨ rest.head? = some x)
  | [], _, served, h, _ => ⟨served, [], by simp, h.nodup, h.waiting, .inl rfl⟩
  | round :: later, cursor, served, h, ⟨⟨front, rest, hround, hx, hrest, hpair⟩, hlater⟩ => by
    have h' := h.serveAll hx hpair
    subst hround
    rcases hrest with rfl | hrest
    · rw [append_nil] at hlater
      obtain ⟨front', rest', hsplit, facts⟩ := fair h' hlater
      exact ⟨front', rest', by rw [← hsplit]; simp, facts⟩
    · refine ⟨served ++ front, rest ++ later.flatten, by simp, h'.nodup, h'.waiting, .inr ?_⟩
      cases rest with
      | nil => cases hrest
      | cons a rest => simpa using hrest

theorem served_first {rounds : List (List κ)} (h : Rounds x cursor rounds)
    (split : rounds.flatten = pre ++ y :: post) (hy : y ≠ x) (again : y ∈ pre) : x ∈ pre := by
  have none_served : Behind x cursor [] := ⟨nodup_nil, not_mem_nil, fun h => absurd rfl h⟩
  obtain ⟨front, rest, hfront, nodup, waiting, hrest⟩ := fair none_served h
  rw [nil_append, split] at hfront
  rcases append_eq_append_iff.mp hfront with ⟨middle, rfl, hmiddle⟩ | ⟨middle, rfl, hmiddle⟩
  · cases middle with
    | nil =>
      rcases hrest with rfl | hrest
      · cases hmiddle
      · rw [← nil_append rest, ← hmiddle] at hrest
        exact absurd (Option.some.inj hrest) hy
    | cons a middle =>
      -- both times `y` would stand before `x`
      obtain ⟨rfl, -⟩ := List.cons.inj hmiddle
      exact absurd rfl ((nodup_append.mp nodup).2.2 y again y mem_cons_self)
  · rcases hrest with rfl | hrest
    · simp at hmiddle
    · cases middle with
      | nil =>
        rw [hmiddle] at hrest
        exact absurd (Option.some.inj hrest) hy
      | cons a middle =>
        rw [hmiddle] at hrest
        rw [← Option.some.inj hrest]
        exact mem_append_right _ mem_cons_self

end RoundRobin
