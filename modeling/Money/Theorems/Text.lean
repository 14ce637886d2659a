import Mathlib.Data.List.Sort
import Money.Text

/-! What the string operations guarantee: a sorted set depends on its members only, and a normalized label has no
    blanks left. -/

namespace Money
open List

theorem nodup_eraseDups {α : Type} [BEq α] [LawfulBEq α] : ∀ l : List α, l.eraseDups.Nodup
  | [] => by simp
  | a :: l => by
    rw [eraseDups_cons, nodup_cons, mem_eraseDups]
    exact ⟨by simp, nodup_eraseDups _⟩
termination_by l => l.length
decreasing_by exact Nat.lt_succ_of_le (length_filter_le ..)

namespace Text

/-! ### Sorted sets -/

variable {a b : String} {cs : List Char}

theorem before_iff : before a b = true ↔ a.toList.map Char.toNat ≤ b.toList.map Char.toNat := by
  simp [before]

theorem eq_of_codes (h : a.toList.map Char.toNat = b.toList.map Char.toNat) : a = b := by
  have injective : Function.Injective Char.toNat := fun c d hcd => Char.toNat_inj.mp hcd
  exact String.toList_injective (map_injective_iff.mpr injective h)

theorem before_total (a b : String) : before a b = true ∨ before b a = true := by
  simp only [before_iff]
  exact le_total _ _

theorem before_trans {c : String} (hab : before a b = true) (hbc : before b c = true) : before a c = true := by
  rw [before_iff] at *
  exact le_trans hab hbc

theorem before_antisymm (hab : before a b = true) (hba : before b a = true) : a = b := by
  rw [before_iff] at *
  exact eq_of_codes (le_antisymm hab hba)

instance total_before : Std.Total (fun a b : String => before a b = true) := ⟨before_total⟩

instance trans_before : IsTrans String (fun a b => before a b = true) := ⟨fun _ _ _ => before_trans⟩

instance antisymm_before : Std.Antisymm (fun a b : String => before a b = true) := ⟨fun _ _ => before_antisymm⟩

theorem insertSorted_eq (a : String) (l : List String) :
    insertSorted a l = l.orderedInsert (fun a b => before a b = true) a := by
  induction l with
  | nil => rfl
  | cons b l ih => simp only [insertSorted, orderedInsert_cons, ih]

variable (l : List String)

theorem foldr_insertSorted : l.foldr insertSorted [] = l.insertionSort (fun a b => before a b = true) := by
  induction l with
  | nil => rfl
  | cons a l ih => rw [foldr_cons, ih, insertSorted_eq, insertionSort_cons]

theorem sortedSet_eq : sortedSet l = l.eraseDups.insertionSort (fun a b => before a b = true) :=
  foldr_insertSorted _

@[simp] theorem mem_sortedSet {l : List String} : a ∈ sortedSet l ↔ a ∈ l := by
  rw [sortedSet_eq, mem_insertionSort, mem_eraseDups]

theorem sortedSet_nodup : (sortedSet l).Nodup := by
  rw [sortedSet_eq]
  exact (perm_insertionSort _ _).nodup_iff.mpr (nodup_eraseDups l)

theorem sortedSet_sorted : (sortedSet l).Pairwise (fun a b => before a b = true) := by
  rw [sortedSet_eq]
  exact pairwise_insertionSort _ _

theorem sortedSet_eq_iff {l l' : List String} : sortedSet l = sortedSet l' ↔ ∀ a, a ∈ l ↔ a ∈ l' := by
  constructor
  · intro h a
    rw [← mem_sortedSet, h, mem_sortedSet]
  · intro h
    refine List.Perm.eq_of_pairwise (fun a b _ _ => before_antisymm) (sortedSet_sorted l) (sortedSet_sorted l') ?_
    exact (perm_ext_iff_of_nodup (sortedSet_nodup l) (sortedSet_nodup l')).mpr fun a => by simpa using h a

theorem sortedSet_of_sorted {l : List String} (sorted : l.Pairwise fun a b => before a b = true) (nodup : l.Nodup) :
    sortedSet l = l := by
  refine List.Perm.eq_of_pairwise (fun a b _ _ => before_antisymm) (sortedSet_sorted l) sorted ?_
  exact (perm_ext_iff_of_nodup (sortedSet_nodup l) nodup).mpr fun _ => mem_sortedSet

@[simp] theorem sortedSet_sortedSet : sortedSet (sortedSet l) = sortedSet l :=
  sortedSet_eq_iff.mpr fun _ => mem_sortedSet

theorem stripChars_of_noSpace (h : ∀ c ∈ cs, isSpace c = false) : stripChars cs = cs := by
  have kept : ∀ {ds : List Char}, (∀ c ∈ ds, isSpace c = false) → ds.dropWhile isSpace = ds := by
    intro ds hds
    cases ds with
    | nil => rfl
    | cons d ds => rw [dropWhile_cons_of_neg (by simp [hds d mem_cons_self])]
  rw [stripChars, kept h, kept (fun c hc => h c (mem_reverse.mp hc)), reverse_reverse]

theorem collapse_noSpace : ∀ (inRun : Bool) (cs : List Char), ∀ c ∈ collapse inRun cs, isSpace c = false
  | _, [], c, hc => by cases hc
  | inRun, d :: cs, c, hc => by
    rw [collapse] at hc
    split at hc
    · split at hc
      · exact collapse_noSpace true cs c hc
      · rcases mem_cons.mp hc with rfl | hc
        · decide
        · exact collapse_noSpace true cs c hc
    next ordinary =>
      rcases mem_cons.mp hc with rfl | hc
      · simp only [Bool.or_eq_true, not_or, Bool.not_eq_true] at ordinary
        exact ordinary.1
      · exact collapse_noSpace false cs c hc

theorem collapse_eq_nil : collapse false cs = [] ↔ cs = [] := by
  cases cs with
  | nil => simp [collapse]
  | cons c cs =>
    rw [collapse]
    split <;> simp

variable {casefold : String → String}

theorem strip_activity (value : String) : strip (activity casefold value) = activity casefold value := by
  unfold strip activity
  rw [String.toList_ofList, stripChars_of_noSpace (collapse_noSpace _ _)]

theorem activity_eq_empty {value : String} : activity casefold value = "" ↔ casefold (strip value) = "" := by
  unfold activity
  rw [← String.toList_inj, String.toList_ofList]
  change collapse false _ = [] ↔ _
  rw [collapse_eq_nil, ← String.toList_inj]
  rfl

end Text
end Money
