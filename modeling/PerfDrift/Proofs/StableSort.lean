import Mathlib.Data.List.Forall2
import Mathlib.Data.List.Zip
import Mathlib.Order.Lattice

/-! Stable sorts.

A comparison that orders items by a key leaves open the order of the items of one key. A
stable sort keeps them as they were: the items of each key form the same list before and
after (`OrdersBy.filter_mergeSort`). Being in order and having those lists is all there is to
a stable sort (`OrdersBy.eq_mergeSort`), so sorting may be exchanged with leaving items out.
Two lists that correspond item by item still do when both are sorted (`forall₂_mergeSort`). -/
namespace PerfDrift

/-- Where corresponding items are compared alike, sorting takes them to the same places. -/
theorem forall₂_mergeSort {α β : Type} {R : α → β → Prop} {le : α → α → Bool} {le' : β → β → Bool}
    (hle : ∀ {a b a' b'}, R a a' → R b b' → le a b = le' a' b') {xs : List α} {ys : List β}
    (h : List.Forall₂ R xs ys) : List.Forall₂ R (xs.mergeSort le) (ys.mergeSort le') := by
  obtain ⟨hlength, hpair⟩ := List.forall₂_iff_zip.mp h
  -- the pairs, sorted by their first parts, are also sorted by their second parts
  let zs := (xs.zip ys).mergeSort fun z z' => le z.1 z'.1
  have hfst : zs.map Prod.fst = xs.mergeSort le := by
    rw [List.map_mergeSort (s := le) fun _ _ _ _ => rfl, List.map_fst_zip hlength.le]
  have hsnd : zs.map Prod.snd = ys.mergeSort le' := by
    rw [List.map_mergeSort (s := le') fun z hz z' hz' => hle (hpair hz) (hpair hz'),
      List.map_snd_zip hlength.ge]
  rw [← hfst, ← hsnd, List.forall₂_map_left_iff, List.forall₂_map_right_iff, List.forall₂_same]
  exact fun z hz => hpair (List.mem_mergeSort.mp hz)

/-- The comparison puts items in the order of their keys. -/
structure OrdersBy {α κ : Type} (key : α → κ) (le : α → α → Bool) : Prop where
  trans : ∀ a b c, le a b → le b c → le a c
  total : ∀ a b, le a b || le b a
  antisymm : ∀ a b, le a b → le b a → key a = key b
  same : ∀ a b, key a = key b → le a b

namespace OrdersBy
variable {α κ : Type} {key : α → κ} {le : α → α → Bool}

/-- A comparison of the places that keys have in a linear order. -/
theorem of_le {ω : Type} [LinearOrder ω] {place : κ → ω} (hplace : place.Injective)
    (hle : ∀ a b, le a b ↔ place (key a) ≤ place (key b)) : OrdersBy key le where
  trans a b c hab hbc := (hle a c).mpr (le_trans ((hle a b).mp hab) ((hle b c).mp hbc))
  total a b := by
    rw [Bool.or_eq_true, hle, hle]
    exact le_total _ _
  antisymm a b hab hba := hplace (le_antisymm ((hle a b).mp hab) ((hle b a).mp hba))
  same a b hsame := (hle a b).mpr (le_of_eq (congrArg place hsame))

variable [DecidableEq κ]

/-- Lists with the same items of each key have the same items. -/
theorem mem_iff_of_filter_eq {xs ys : List α}
    (hkey : ∀ k, (xs.filter fun a => key a = k) = ys.filter fun a => key a = k) (a : α) :
    a ∈ xs ↔ a ∈ ys := by
  have hfilter : a ∈ (xs.filter fun b => key b = key a) ↔
      a ∈ ys.filter fun b => key b = key a := by
    rw [hkey]
  simpa using hfilter

/-- Two lists in order are equal when their items of each key are. -/
theorem eq_of_filter_eq (h : OrdersBy key le) {xs ys : List α}
    (hx : xs.Pairwise fun a b => le a b) (hy : ys.Pairwise fun a b => le a b)
    (hkey : ∀ k, (xs.filter fun a => key a = k) = ys.filter fun a => key a = k) : xs = ys := by
  have hmem := mem_iff_of_filter_eq hkey
  induction xs generalizing ys with
  | nil =>
    cases ys with
    | nil => rfl
    | cons y others => exact absurd ((hmem y).mpr List.mem_cons_self) List.not_mem_nil
  | cons x rest ih =>
    cases ys with
    | nil => exact absurd ((hmem x).mp List.mem_cons_self) List.not_mem_nil
    | cons y others =>
      obtain ⟨hxs, hrest⟩ := List.pairwise_cons.mp hx
      obtain ⟨hys, hothers⟩ := List.pairwise_cons.mp hy
      -- each head is in the other list, so neither comes before the other
      have hle : le x y := by
        rcases List.mem_cons.mp ((hmem y).mpr List.mem_cons_self) with rfl | hin
        · exact h.same _ _ rfl
        · exact hxs y hin
      have hge : le y x := by
        rcases List.mem_cons.mp ((hmem x).mp List.mem_cons_self) with rfl | hin
        · exact h.same _ _ rfl
        · exact hys x hin
      have hsame : key y = key x := (h.antisymm x y hle hge).symm
      have hheads := hkey (key x)
      rw [List.filter_cons_of_pos (by simp), List.filter_cons_of_pos (by simpa using hsame),
        List.cons.injEq] at hheads
      obtain ⟨rfl, -⟩ := hheads
      have hrestkey : ∀ k, (rest.filter fun a => key a = k) = others.filter fun a => key a = k := by
        intro k
        have hk := hkey k
        by_cases hxk : key x = k
        · rw [List.filter_cons_of_pos (by simpa using hxk),
            List.filter_cons_of_pos (by simpa using hxk)] at hk
          exact List.tail_eq_of_cons_eq hk
        · rwa [List.filter_cons_of_neg (by simpa using hxk),
            List.filter_cons_of_neg (by simpa using hxk)] at hk
      rw [ih hrest hothers hrestkey (mem_iff_of_filter_eq hrestkey)]

/-- A stable sort keeps the order of the items of one key. -/
theorem filter_mergeSort (h : OrdersBy key le) (xs : List α) (k : κ) :
    ((xs.mergeSort le).filter fun a => key a = k) = xs.filter fun a => key a = k := by
  have hordered : (xs.filter fun a => key a = k).Pairwise fun a b => le a b := by
    refine List.pairwise_of_forall_mem_list fun a ha b hb => h.same a b ?_
    have hak : key a = k := by simpa using (List.mem_filter.mp ha).2
    have hbk : key b = k := by simpa using (List.mem_filter.mp hb).2
    rw [hak, hbk]
  have hsub := (List.sublist_mergeSort h.trans h.total hordered List.filter_sublist).filter
    fun a => key a = k
  rw [List.filter_filter] at hsub
  simp only [Bool.and_self] at hsub
  have hlength := ((xs.mergeSort_perm le).filter fun a => key a = k).length_eq
  exact (hsub.eq_of_length hlength.symm).symm

/-- A list in order with the items of each key as they were is the sorted list. -/
theorem eq_mergeSort (h : OrdersBy key le) {xs ys : List α}
    (hy : ys.Pairwise fun a b => le a b)
    (hkey : ∀ k, (ys.filter fun a => key a = k) = xs.filter fun a => key a = k) :
    ys = xs.mergeSort le := by
  refine h.eq_of_filter_eq hy (List.pairwise_mergeSort h.trans h.total xs) fun k => ?_
  rw [hkey, h.filter_mergeSort]

/-- Items may be left out before or after a list is sorted. -/
theorem mergeSort_filter (h : OrdersBy key le) (p : α → Bool) (xs : List α) :
    (xs.mergeSort le).filter p = (xs.filter p).mergeSort le := by
  refine h.eq_mergeSort ((List.pairwise_mergeSort h.trans h.total xs).filter p) fun k => ?_
  have hcomm : ∀ zs : List α, ((zs.filter p).filter fun a => key a = k) =
      (zs.filter fun a => key a = k).filter p := by
    intro zs
    simp only [List.filter_filter, Bool.and_comm]
  rw [hcomm, h.filter_mergeSort, hcomm]

end OrdersBy
end PerfDrift
