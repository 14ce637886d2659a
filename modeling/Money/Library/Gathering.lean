import Mathlib.Data.List.Nodup
import Mathlib.Data.List.Perm.Basic

/-! Gathering results in the order of their arrival. Each is admitted under its own key, once; the first one refused
    ends the gathering. -/

namespace Gathering
open List
variable {α ε κ : Type} [DecidableEq κ] (refuse : α → Option ε) (key : α → κ) (taken : ε)

def refusal (seen : List κ) (a : α) : Option ε :=
  match refuse a with
  | some e => some e
  | none => if key a ∈ seen then some taken else none

def gather : List κ → List α → List α × Option ε
  | _, [] => ([], none)
  | seen, a :: rest =>
    match refusal refuse key taken seen a with
    | some e => ([], some e)
    | none => (a :: (gather (seen ++ [key a]) rest).1, (gather (seen ++ [key a]) rest).2)

variable {refuse key taken} {seen : List κ} {a b : α} {l l' : List α}

theorem refusal_eq_none : refusal refuse key taken seen a = none ↔ refuse a = none ∧ key a ∉ seen := by
  unfold refusal
  cases refuse a <;> simp

theorem gather_of_refused {e : ε} (h : refusal refuse key taken seen a = some e) (rest : List α) :
    gather refuse key taken seen (a :: rest) = ([], some e) := by
  rw [gather, h]

theorem gather_of_admitted (h : refusal refuse key taken seen a = none) (rest : List α) :
    gather refuse key taken seen (a :: rest) =
      (a :: (gather refuse key taken (seen ++ [key a]) rest).1, (gather refuse key taken (seen ++ [key a]) rest).2) := by
  rw [gather, h]

theorem admitted_of_mem_gather : ∀ {seen : List κ} {l : List α}, a ∈ (gather refuse key taken seen l).1 →
    refusal refuse key taken seen a = none
  | _, [], h => by cases h
  | seen, b :: rest, h => by
    cases hb : refusal refuse key taken seen b with
    | some e =>
      rw [gather_of_refused hb] at h
      cases h
    | none =>
      rw [gather_of_admitted hb] at h
      rcases mem_cons.mp h with rfl | h
      · exact hb
      · have hlater := refusal_eq_none.mp (admitted_of_mem_gather h)
        exact refusal_eq_none.mpr ⟨hlater.1, fun hmem => hlater.2 (mem_append_left _ hmem)⟩

theorem gather_all : ∀ {seen : List κ} {l : List α}, (∀ a ∈ l, refusal refuse key taken seen a = none) →
    (l.map key).Nodup → gather refuse key taken seen l = (l, none)
  | _, [], _, _ => rfl
  | seen, a :: rest, h, hn => by
    obtain ⟨hnew, hn⟩ := nodup_cons.mp hn
    have hrest : ∀ b ∈ rest, refusal refuse key taken (seen ++ [key a]) b = none := by
      intro b hb
      have hbefore := refusal_eq_none.mp (h b (mem_cons_of_mem a hb))
      refine refusal_eq_none.mpr ⟨hbefore.1, fun hmem => ?_⟩
      rcases mem_append.mp hmem with hmem | hmem
      · exact hbefore.2 hmem
      · exact hnew (mem_singleton.mp hmem ▸ mem_map_of_mem hb)
    rw [gather_of_admitted (h a mem_cons_self), gather_all hrest hn]

/-! ### Orders of arrival -/

/-- All results are admitted, or they are all the same, or they are all refused for the same reason. -/
def Uniform (refuse : α → Option ε) (key : α → κ) (taken : ε) (seen : List κ) (l : List α) : Prop :=
  ((∀ a ∈ l, refusal refuse key taken seen a = none) ∧ (l.map key).Nodup) ∨
    (∃ same, ∀ a ∈ l, a = same) ∨ ∃ e, ∀ a ∈ l, refusal refuse key taken seen a = some e

theorem Uniform.perm (h : Uniform refuse key taken seen l) (hp : l'.Perm l) :
    ((gather refuse key taken seen l').1.Perm (gather refuse key taken seen l).1 ∧
      (gather refuse key taken seen l').2 = (gather refuse key taken seen l).2) ∧
    ∀ a ∈ l, refusal refuse key taken seen a = none → a ∈ (gather refuse key taken seen l').1 := by
  rcases h with ⟨hall, hn⟩ | ⟨same, hsame⟩ | ⟨e, hrefused⟩
  · have hall' : ∀ a ∈ l', refusal refuse key taken seen a = none := fun a ha => hall a (hp.mem_iff.mp ha)
    have hn' : (l'.map key).Nodup := (hp.map key).nodup_iff.mpr hn
    rw [gather_all hall hn, gather_all hall' hn']
    exact ⟨⟨hp, rfl⟩, fun a ha _ => hp.mem_iff.mpr ha⟩
  · have heq : l' = l := by
      have hl : l = List.replicate l.length same := eq_replicate_of_mem hsame
      have hl' : l' = List.replicate l'.length same := eq_replicate_of_mem fun a ha => hsame a (hp.mem_iff.mp ha)
      rw [hl', hp.length_eq, ← hl]
    subst heq
    refine ⟨⟨.refl _, rfl⟩, fun a ha hadmitted => ?_⟩
    -- all results are the first one
    cases l' with
    | nil => cases ha
    | cons b rest =>
      obtain rfl : a = b := (hsame a ha).trans (hsame b mem_cons_self).symm
      rw [gather_of_admitted hadmitted]
      exact mem_cons_self
  · have hno : ∀ {m : List α}, (∀ a ∈ m, refusal refuse key taken seen a = some e) →
        gather refuse key taken seen m = ([], if m = [] then none else some e) := by
      intro m hm
      cases m with
      | nil => rfl
      | cons b rest => rw [gather_of_refused (hm b mem_cons_self), if_neg (cons_ne_nil b rest)]
    have hnil : l' = [] ↔ l = [] := by rw [← length_eq_zero_iff, hp.length_eq, length_eq_zero_iff]
    rw [hno hrefused, hno fun a ha => hrefused a (hp.mem_iff.mp ha)]
    refine ⟨⟨.refl _, by simp [hnil]⟩, fun a ha hadmitted => ?_⟩
    cases (hrefused a ha).symm.trans hadmitted

theorem exists_perm_cons (h : a ∈ l) : ∃ rest, (a :: rest).Perm l := by
  obtain ⟨before, after, rfl⟩ := append_of_mem h
  exact ⟨before ++ after, perm_middle.symm⟩

theorem exists_perm_cons_cons : ∀ {l : List α}, ¬ (l.map key).Nodup → ∃ a b rest, (a :: b :: rest).Perm l ∧ key a = key b
  | [], h => absurd nodup_nil h
  | x :: l, h => by
    by_cases hx : key x ∈ l.map key
    · obtain ⟨y, hy, hkey⟩ := mem_map.mp hx
      obtain ⟨rest, hrest⟩ := exists_perm_cons hy
      exact ⟨x, y, rest, hrest.cons x, hkey.symm⟩
    · have hl : ¬ (l.map key).Nodup := fun hn => h (nodup_cons.mpr ⟨hx, hn⟩)
      obtain ⟨a, b, rest, hrest, hkey⟩ := exists_perm_cons_cons hl
      have hmove : (a :: b :: x :: rest).Perm (x :: a :: b :: rest) :=
        ((List.Perm.swap x b rest).cons a).trans (List.Perm.swap x a (b :: rest))
      exact ⟨a, b, x :: rest, hmove.trans (hrest.cons x), hkey⟩

theorem exists_perm_map {β : Type} {f : α → β} :
    ∀ {m : List β} {l : List α}, m.Perm (l.map f) → ∃ l' : List α, l'.Perm l ∧ l'.map f = m
  | [], l, h => by
    have hnil : l = [] := map_eq_nil_iff.mp h.symm.eq_nil
    exact ⟨[], hnil ▸ .refl _, rfl⟩
  | b :: m, l, h => by
    obtain ⟨a, ha, rfl⟩ := mem_map.mp (h.mem_iff.mp mem_cons_self)
    obtain ⟨rest, hrest⟩ := exists_perm_cons ha
    have hm : (f a :: m).Perm (f a :: rest.map f) := h.trans (hrest.map f).symm
    obtain ⟨l', hl', hmap⟩ := exists_perm_map hm.cons_inv
    exact ⟨a :: l', (hl'.cons a).trans hrest, by rw [map_cons, hmap]⟩

theorem gather_same_key (ha : refusal refuse key taken seen a = none) (hb : refusal refuse key taken seen b = none)
    (hkey : key a = key b) (rest : List α) : gather refuse key taken seen (a :: b :: rest) = ([a], some taken) := by
  have hrefused : refusal refuse key taken (seen ++ [key a]) b = some taken := by
    rw [refusal, (refusal_eq_none.mp hb).1, if_pos (by simp [hkey])]
  rw [gather_of_admitted ha, gather_of_refused hrefused]

theorem uniform_of_orders (h : ∀ l' l'' : List α, l'.Perm l → l''.Perm l →
    (∀ a, a ∈ (gather refuse key taken seen l').1 → a ∈ (gather refuse key taken seen l'').1) ∧
    ∀ e e', (gather refuse key taken seen l').2 = some e → (gather refuse key taken seen l'').2 = some e' → e = e') :
    Uniform refuse key taken seen l := by
  by_cases hall : ∀ a ∈ l, refusal refuse key taken seen a = none
  · by_cases hn : (l.map key).Nodup
    · exact Or.inl ⟨hall, hn⟩
    · -- the first of two results with one key is all that is gathered
      obtain ⟨a, b, rest, hp, hkey⟩ := exists_perm_cons_cons hn
      have ha := hall a (hp.mem_iff.mp mem_cons_self)
      have hb := hall b (hp.mem_iff.mp (mem_cons_of_mem a mem_cons_self))
      refine Or.inr (Or.inl ⟨a, fun c hc => ?_⟩)
      obtain ⟨rest', hp'⟩ := exists_perm_cons hc
      have hgathered := (h (c :: rest') (a :: b :: rest) hp' hp).1 c
      rw [gather_of_admitted (hall c hc), gather_same_key ha hb hkey] at hgathered
      exact mem_singleton.mp (hgathered mem_cons_self)
  · obtain ⟨b, hb⟩ := not_forall.mp hall
    obtain ⟨hmem, hrefused⟩ := Classical.not_imp.mp hb
    obtain ⟨e, he⟩ := Option.ne_none_iff_exists'.mp hrefused
    obtain ⟨rest, hp⟩ := exists_perm_cons hmem
    refine Or.inr (Or.inr ⟨e, fun a ha => ?_⟩)
    obtain ⟨rest', hp'⟩ := exists_perm_cons ha
    have hagree := h (a :: rest') (b :: rest) hp' hp
    rw [gather_of_refused he] at hagree
    cases hrefusal : refusal refuse key taken seen a with
    | none =>
      rw [gather_of_admitted hrefusal] at hagree
      cases hagree.1 a mem_cons_self
    | some e' =>
      rw [gather_of_refused hrefusal] at hagree
      rw [hagree.2 e' e rfl rfl]

end Gathering
