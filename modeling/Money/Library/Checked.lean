import Mathlib.Tactic.Common

/-! Fallible computations as chains of checks over `Except`: `require` is a check that may refuse, `demand` a read that
    may find nothing. The `_eq_ok` lemmas turn a successful chain into the list of its facts. -/

namespace Checked
open List
variable {ε α β : Type}

def require (c : Prop) [Decidable c] (e : ε) : Except ε Unit := if c then .ok () else .error e

def demand (o : Option α) (e : ε) : Except ε α :=
  match o with
  | some a => .ok a
  | none => .error e

variable {e : ε} {c : Prop} {e' : ε} {o : Option α} {a : α} {b : β} {p : α → Prop} {bs : List β}

@[simp] theorem require_eq_ok [Decidable c] {u : Unit} : require c e = .ok u ↔ c := by
  unfold require
  split <;> simp_all

@[simp] theorem require_eq_error [Decidable c] : require c e = .error e' ↔ ¬c ∧ e = e' := by
  unfold require
  split <;> simp_all

@[simp] theorem demand_eq_ok : demand o e = .ok a ↔ o = some a := by
  cases o <;> simp [demand]

@[simp] theorem demand_eq_error : demand o e = .error e' ↔ o = none ∧ e = e' := by
  cases o <;> simp [demand]

variable {x : Except ε α} {f : α → Except ε β}

theorem bind_eq_ok : (x >>= f) = .ok b ↔ ∃ a, x = .ok a ∧ f a = .ok b := by
  cases x with
  | ok a =>
    constructor
    · intro h
      exact ⟨a, rfl, h⟩
    · rintro ⟨_, ha, h⟩
      cases ha
      exact h
  | error e =>
    constructor
    · intro h
      cases h
    · rintro ⟨_, ha, _⟩
      cases ha

theorem bind_eq_error : (x >>= f) = .error e ↔ x = .error e ∨ ∃ a, x = .ok a ∧ f a = .error e := by
  cases x with
  | ok a =>
    constructor
    · intro h
      exact Or.inr ⟨a, rfl, h⟩
    · rintro (ha | ⟨_, ha, h⟩)
      · cases ha
      · cases ha
        exact h
  | error e' =>
    constructor
    · intro h
      cases h
      exact Or.inl rfl
    · rintro (ha | ⟨_, ha, _⟩)
      · cases ha
        rfl
      · cases ha

theorem require_bind_eq_ok [Decidable c] {f : Unit → Except ε β} : (require c e >>= f) = .ok b ↔ c ∧ f () = .ok b := by
  rw [bind_eq_ok]
  exact ⟨fun ⟨u, hu, h⟩ => ⟨require_eq_ok.mp hu, h⟩, fun ⟨hc, h⟩ => ⟨(), require_eq_ok.mpr hc, h⟩⟩

theorem demand_bind_eq_ok : (demand o e >>= f) = .ok b ↔ ∃ a, o = some a ∧ f a = .ok b := by
  simp only [bind_eq_ok, demand_eq_ok]

theorem demand_some_bind : (demand (some a) e >>= f) = f a := rfl

theorem pure_eq_ok {b : α} : (pure a : Except ε α) = .ok b ↔ a = b :=
  ⟨fun h => by cases h; rfl, fun h => by rw [h]; rfl⟩

/-- How a chain of checks succeeds, as one set of rules for `simp only`. -/
theorem ok_iff : (∀ {ε α β : Type} {x : Except ε α} {f : α → Except ε β} {b : β},
      (x >>= f) = .ok b ↔ ∃ a, x = .ok a ∧ f a = .ok b) ∧
    (∀ {ε : Type} {e : ε} {c : Prop} [Decidable c] {u : Unit}, require c e = .ok u ↔ c) ∧
    (∀ {ε α : Type} {e : ε} {o : Option α} {a : α}, demand o e = .ok a ↔ o = some a) ∧
    (∀ {ε α : Type} {a b : α}, (pure a : Except ε α) = .ok b ↔ a = b) ∧ ∀ {p : Prop}, (∃ _ : Unit, p) ↔ p :=
  ⟨bind_eq_ok, require_eq_ok, demand_eq_ok, pure_eq_ok, exists_const Unit⟩

theorem bind_of_ok (h : x = .ok a) (f : α → Except ε β) : (x >>= f) = f a := by
  rw [h]
  rfl

theorem bind_of_error (h : x = .error e) (f : α → Except ε β) : (x >>= f) = .error e := by
  rw [h]
  rfl

theorem map_eq_ok {f : α → β} : f <$> x = .ok b ↔ ∃ a, x = .ok a ∧ f a = b := by
  cases x <;> simp [Functor.map, Except.map]

theorem exists_of_toOption (h : ∃ a ∈ x.toOption, p a) : ∃ a, x = .ok a ∧ p a := by
  obtain ⟨a, found, ha⟩ := h
  cases x with
  | error e => cases found
  | ok b =>
    cases found
    exact ⟨a, rfl, ha⟩

theorem pure_eq_error : (pure a : Except ε α) = .error e ↔ False := by
  refine ⟨fun h => ?_, False.elim⟩
  cases h

/-! ### Folding a fallible step over a list -/

theorem mapM_fixed {f : α → Except ε α} (fixed : ∀ a b, f a = .ok b → f b = .ok b) :
    ∀ {l l' : List α}, l.mapM f = .ok l' → l'.mapM f = .ok l'
  | [], l', h => by
    cases h
    rfl
  | a :: l, l', h => by
    rw [mapM_cons] at h
    simp only [bind_eq_ok, pure_eq_ok] at h
    obtain ⟨b, hb, bs, hbs, rfl⟩ := h
    rw [mapM_cons, fixed a b hb]
    simp only [bind_eq_ok, pure_eq_ok]
    exact ⟨b, rfl, bs, mapM_fixed fixed hbs, rfl⟩

theorem mapM_isOk : ∀ {l : List α}, (∀ a ∈ l, ∃ b, f a = .ok b) → ∃ bs, l.mapM f = .ok bs
  | [], _ => ⟨[], rfl⟩
  | a :: l, h => by
    obtain ⟨b, hb⟩ := h a mem_cons_self
    obtain ⟨bs, hbs⟩ := mapM_isOk fun a' ha' => h a' (mem_cons_of_mem a ha')
    refine ⟨b :: bs, ?_⟩
    rw [mapM_cons, hb, hbs]
    rfl

theorem isOk_of_mapM : ∀ {l : List α} {bs : List β}, l.mapM f = .ok bs → ∀ a ∈ l, ∃ b, f a = .ok b
  | [], _, _, a, ha => absurd ha (by simp)
  | a :: l, bs, h, a', ha' => by
    rw [mapM_cons] at h
    simp only [bind_eq_ok, pure_eq_ok] at h
    obtain ⟨b, hb, rest, hrest, -⟩ := h
    rcases mem_cons.mp ha' with rfl | later
    · exact ⟨b, hb⟩
    · exact isOk_of_mapM hrest a' later

variable {l : List α}

theorem mapM_demand_eq_ok {g : α → Option β} :
    (l.mapM fun a => demand (g a) e) = .ok bs ↔ (∀ a ∈ l, (g a).isSome) ∧ bs = l.filterMap g := by
  induction l generalizing bs with
  | nil =>
    rw [mapM_nil, pure_eq_ok]
    exact ⟨fun h => ⟨by simp, h.symm⟩, fun h => h.2.symm⟩
  | cons a l ih =>
    simp only [mapM_cons, bind_eq_ok, demand_eq_ok, pure_eq_ok, ih, forall_mem_cons]
    constructor
    · rintro ⟨b, hb, rest, ⟨hsome, rfl⟩, rfl⟩
      exact ⟨⟨by simp [hb], hsome⟩, by simp [hb]⟩
    · rintro ⟨⟨ha, hsome⟩, rfl⟩
      obtain ⟨b, hb⟩ := Option.isSome_iff_exists.mp ha
      exact ⟨b, hb, _, ⟨hsome, rfl⟩, by simp [hb]⟩

theorem forall₂_of_mapM : ∀ {l : List α} {bs : List β}, l.mapM f = .ok bs → List.Forall₂ (fun a b => f a = .ok b) l bs
  | [], bs, h => by
    cases h
    exact .nil
  | a :: l, bs, h => by
    rw [mapM_cons] at h
    simp only [bind_eq_ok, pure_eq_ok] at h
    obtain ⟨b, hb, rest, hrest, rfl⟩ := h
    exact .cons hb (forall₂_of_mapM hrest)

theorem mapM_of_forall₂ (h : List.Forall₂ (fun a b => f a = .ok b) l bs) : l.mapM f = .ok bs := by
  induction h with
  | nil => rfl
  | cons first _ ih =>
    rw [mapM_cons, first, ih]
    rfl

theorem exists_of_mem_forall₂ {R : α → β → Prop} (h : List.Forall₂ R l bs) (hb : b ∈ bs) : ∃ a ∈ l, R a b := by
  induction h with
  | nil => cases hb
  | cons first _ ih =>
    rcases mem_cons.mp hb with rfl | hb
    · exact ⟨_, mem_cons_self, first⟩
    · obtain ⟨a, ha, related⟩ := ih hb
      exact ⟨a, mem_cons_of_mem _ ha, related⟩

theorem mapM_eq_ok_iff {g : α → β} : ∀ {l : List α} {bs : List β}, (∀ a ∈ l, ∀ b, f a = .ok b ↔ p a ∧ g a = b) →
      (l.mapM f = .ok bs ↔ (∀ a ∈ l, p a) ∧ l.map g = bs)
  | [], bs, _ => by simp [pure_eq_ok]
  | a :: l, bs, spec => by
    obtain ⟨first, rest⟩ := forall_mem_cons.mp spec
    rw [mapM_cons]
    simp only [bind_eq_ok, pure_eq_ok, first, mapM_eq_ok_iff rest, forall_mem_cons, map_cons]
    constructor
    · rintro ⟨_, ⟨ha, rfl⟩, _, ⟨hl, rfl⟩, rfl⟩
      exact ⟨⟨ha, hl⟩, rfl⟩
    · rintro ⟨⟨ha, hl⟩, rfl⟩
      exact ⟨_, ⟨ha, rfl⟩, _, ⟨hl, rfl⟩, rfl⟩

theorem exists_of_mem_mapM : ∀ {l : List α} {bs : List β}, l.mapM f = .ok bs → ∀ b ∈ bs, ∃ a ∈ l, f a = .ok b
  | [], bs, h, b, hb => by
    cases h
    cases hb
  | a :: l, bs, h, b, hb => by
    rw [mapM_cons] at h
    simp only [bind_eq_ok, pure_eq_ok] at h
    obtain ⟨b', hb', rest, hrest, rfl⟩ := h
    rcases mem_cons.mp hb with rfl | hlater
    · exact ⟨a, mem_cons_self, hb'⟩
    · obtain ⟨a', ha', h'⟩ := exists_of_mem_mapM hrest b hlater
      exact ⟨a', mem_cons_of_mem a ha', h'⟩

theorem exists_error_of_mapM : ∀ {l : List α}, l.mapM f = .error e → ∃ a ∈ l, f a = .error e
  | [], h => by cases h
  | a :: l, h => by
    rw [mapM_cons] at h
    rcases bind_eq_error.mp h with h | ⟨b, -, h⟩
    · exact ⟨a, mem_cons_self, h⟩
    · rcases bind_eq_error.mp h with h | ⟨bs, -, h⟩
      · obtain ⟨a', ha', h'⟩ := exists_error_of_mapM h
        exact ⟨a', mem_cons_of_mem a ha', h'⟩
      · cases h

theorem mapM_bind_eq_ok {γ : Type} {g : β → Except ε γ} : ∀ {l : List α} {cs : List γ},
      (l.mapM fun a => f a >>= g) = .ok cs ↔ ∃ bs, l.mapM f = .ok bs ∧ bs.mapM g = .ok cs
  | [], cs => by simp [pure_eq_ok]
  | a :: l, cs => by
    simp only [mapM_cons, bind_eq_ok, pure_eq_ok, mapM_bind_eq_ok]
    constructor
    · rintro ⟨c, ⟨b, hb, hc⟩, rest, ⟨bs, hbs, hrest⟩, rfl⟩
      refine ⟨b :: bs, ⟨b, hb, bs, hbs, rfl⟩, ?_⟩
      simp only [mapM_cons, bind_eq_ok, pure_eq_ok]
      exact ⟨c, hc, rest, hrest, rfl⟩
    · rintro ⟨_, ⟨b, hb, bs, hbs, rfl⟩, h⟩
      simp only [mapM_cons, bind_eq_ok, pure_eq_ok] at h
      obtain ⟨c, hc, rest, hrest, rfl⟩ := h
      exact ⟨c, ⟨b, hb, hc⟩, rest, ⟨bs, hbs, hrest⟩, rfl⟩

theorem foldlM_inv {σ : Type} {f : σ → α → Except ε σ} {P : σ → Prop} :
    ∀ {l : List α} {s t : σ}, l.foldlM f s = .ok t → P s → (∀ s a t, a ∈ l → P s → f s a = .ok t → P t) → P t
  | [], s, t, h, hs, _ => by
    cases h
    exact hs
  | a :: l, s, t, h, hs, hf => by
    rw [foldlM_cons, bind_eq_ok] at h
    obtain ⟨u, hu, h⟩ := h
    exact foldlM_inv h (hf s a u (mem_cons_self ..) hs hu)
      fun s b t hb => hf s b t (mem_cons_of_mem _ hb)

theorem forM_eq_ok {f : α → Except ε Unit} : l.forM f = .ok () ↔ ∀ a ∈ l, f a = .ok () := by
  induction l with
  | nil => simp [pure_eq_ok]
  | cons a l ih =>
    have hcons : (a :: l).forM f = f a >>= fun _ => l.forM f := rfl
    rw [hcons, bind_eq_ok, forall_mem_cons, ← ih]
    exact ⟨fun ⟨_, ha, hl⟩ => ⟨ha, hl⟩, fun ⟨ha, hl⟩ => ⟨(), ha, hl⟩⟩

theorem forM_option_eq_ok {f : α → Except ε Unit} : o.forM f = .ok () ↔ ∀ a ∈ o, f a = .ok () := by
  cases o with
  | none => exact ⟨fun _ => nofun, fun _ => rfl⟩
  | some a =>
    constructor
    · rintro h _ ⟨⟩
      exact h
    · exact fun h => h a rfl

theorem foldlM_append_eq_ok {σ : Type} {f : σ → α → Except ε σ} {l' : List α} {s t : σ} :
    (l ++ l').foldlM f s = .ok t ↔ ∃ u, l.foldlM f s = .ok u ∧ l'.foldlM f u = .ok t := by
  rw [foldlM_append, bind_eq_ok]

/-- The invariant rule for a fold that depends on what has been folded. -/
theorem foldlM_inv_along {σ : Type} {f : σ → α → Except ε σ} {P : List α → σ → Prop} {s : σ}
    (hs : P [] s) (hstep : ∀ done a rest s t, l = done ++ a :: rest → P done s → f s a = .ok t → P (done ++ [a]) t) :
    (∀ t, l.foldlM f s = .ok t → P l t) ∧
      ∀ e, l.foldlM f s = .error e → ∃ done a rest t, l = done ++ a :: rest ∧ P done t ∧ f t a = .error e := by
  suffices h : ∀ rest done s, l = done ++ rest → P done s → (∀ t, rest.foldlM f s = .ok t → P l t) ∧
      ∀ e, rest.foldlM f s = .error e → ∃ done a rest t, l = done ++ a :: rest ∧ P done t ∧ f t a = .error e from
    h l [] s rfl hs
  intro rest
  induction rest with
  | nil =>
    intro done s hl hs
    refine ⟨fun t h => ?_, fun e h => by cases h⟩
    cases h
    rw [hl, append_nil]
    exact hs
  | cons a rest ih =>
    intro done s hl hs
    constructor
    · intro t h
      rw [foldlM_cons, bind_eq_ok] at h
      obtain ⟨u, hu, h⟩ := h
      exact (ih (done ++ [a]) u (by simpa using hl) (hstep done a rest s u hl hs hu)).1 t h
    · intro e h
      rw [foldlM_cons, bind_eq_error] at h
      rcases h with h | ⟨u, hu, h⟩
      · exact ⟨done, a, rest, s, hl, hs, h⟩
      · exact (ih (done ++ [a]) u (by simpa using hl) (hstep done a rest s u hl hs hu)).2 e h

@[simp] theorem mapError_eq_ok {ε' : Type} {f : ε → ε'} : x.mapError f = .ok a ↔ x = .ok a := by
  cases x <;> simp [Except.mapError]

@[simp] theorem mapError_eq_error {ε' : Type} {f : ε → ε'} {e : ε'} :
    x.mapError f = .error e ↔ ∃ e', x = .error e' ∧ f e' = e := by
  cases x <;> simp [Except.mapError]

end Checked
