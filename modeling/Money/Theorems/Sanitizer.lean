import Money.Sanitizer

/-! The stack of hidden elements is balanced up to the first void element on it, which nothing takes off again. -/

namespace Money
open List

variable {lower : String → String} {s t u : TextOnly} {d : Html} {b : Bool} {α : Type} {l r : List (Option α)}
  {m : List (Option String)}

/-- The visible text in order, with `none` for every void element that goes on the stack. -/
def Html.marks (lower : String → String) (inHidden : Bool) : Html → List (Option String)
  | empty => []
  | text data rest => if inHidden then rest.marks lower inHidden else some data :: rest.marks lower inHidden
  | void tag _ attrs rest =>
    if (inHidden ∨ hides lower tag attrs) ∧ tag ∉ unstacked then none :: rest.marks lower inHidden
    else rest.marks lower inHidden
  | element tag _ attrs inside rest =>
    inside.marks lower (inHidden ∨ hides lower tag attrs) ++ rest.marks lower inHidden

theorem Html.marks_hidden : ∀ m ∈ d.marks lower true, m = none := by
  induction d with
  | empty => simp [marks]
  | text data rest ih => simpa [marks] using ih
  | void tag isVoid attrs rest ih =>
    unfold marks
    split
    · exact forall_mem_cons.mpr ⟨rfl, ih⟩
    · exact ih
  | element tag isNormal attrs inside rest inner ih =>
    simp only [marks, true_or, decide_true, mem_append]
    rintro m (hm | hm)
    exacts [inner m hm, ih m hm]

/-- What stands in front of the first `none`. -/
def untilNone : List (Option α) → List α
  | some a :: rest => a :: untilNone rest
  | _ => []

theorem untilNone_append_of_mem (h : none ∈ l) : untilNone (l ++ r) = untilNone l := by
  induction l with
  | nil => cases h
  | cons m l ih =>
    cases m with
    | none => rfl
    | some a => simp [untilNone, ih (by simpa using h)]

theorem untilNone_append_of_notMem (h : none ∉ l) : untilNone (l ++ r) = untilNone l ++ untilNone r := by
  induction l with
  | nil => rfl
  | cons m l ih =>
    cases m with
    | none => simp at h
    | some a => simp [untilNone, ih (by simpa using h)]

/-- A void element is on top of the stack. -/
def TextOnly.Stuck (s : TextOnly) : Prop := ∃ tag ∈ voidElements, s.hidden.head? = some tag

def TextOnly.inHidden (s : TextOnly) : Bool := s.hidden ≠ []

theorem TextOnly.Stuck.inHidden (h : s.Stuck) : s.inHidden = true := by
  obtain ⟨tag, -, top⟩ := h
  cases hs : s.hidden with
  | nil => simp [hs] at top
  | cons => simp [TextOnly.inHidden, hs]

theorem TextOnly.Stuck.endTag (h : s.Stuck) {tag : String} (isNormal : tag ∉ voidElements) :
    s.handle lower (.endTag tag) = s := by
  obtain ⟨top, isVoid, htop⟩ := id h
  have other : s.hidden.head? ≠ some tag := by
    rintro same
    cases htop.symm.trans same
    exact isNormal isVoid
  have hidden : s.hidden ≠ [] := of_decide_eq_true h.inHidden
  simp [TextOnly.handle, other, hidden]

/-- What events with these marks do to the parser: it comes back to its stack, or has a void element on it. -/
structure Goes (m : List (Option String)) (s t : TextOnly) : Prop where
  parts : t.parts.reduceOption = s.parts.reduceOption ++ untilNone m
  back : none ∉ m → t.hidden = s.hidden
  stuck : none ∈ m → t.Stuck

theorem Goes.append {rest : Html} (h : Goes m s t) (then_ : Goes (rest.marks lower t.inHidden) t u) :
    Goes (m ++ rest.marks lower s.inHidden) s u := by
  by_cases void : none ∈ m
  · have stuck := h.stuck void
    have hidden := stuck.inHidden ▸ then_
    have lost : untilNone (rest.marks lower true) = [] := by
      cases hm : rest.marks lower true with
      | nil => rfl
      | cons m _ =>
        rw [Html.marks_hidden m (hm ▸ mem_cons_self)]
        rfl
    refine ⟨?_, fun none => absurd (mem_append_left _ void) none, fun _ => ?_⟩
    · rw [hidden.parts, h.parts, lost, append_nil, untilNone_append_of_mem void]
    · by_cases again : none ∈ rest.marks lower true
      · exact hidden.stuck again
      · unfold TextOnly.Stuck
        rwa [hidden.back again]
  · have same := h.back void
    have then_ : Goes (rest.marks lower s.inHidden) t u := by
      unfold TextOnly.inHidden at *
      rwa [same] at then_
    refine ⟨?_, fun none => ?_, fun some => ?_⟩
    · rw [then_.parts, h.parts, untilNone_append_of_notMem void, append_assoc]
    · rw [then_.back fun h => none (mem_append_right _ h), same]
    · exact then_.stuck ((mem_append.mp some).resolve_left void)

/-- Behind a void element that goes on the stack no text is visible. -/
def Html.Clear (lower : String → String) (d : Html) : Prop :=
  (d.marks lower false).Pairwise fun m n => m = none → n = none

end Money
