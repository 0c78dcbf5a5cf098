import Mathlib.Data.List.Basic
import Mathlib.Data.Prod.Lex
import Mathlib.Order.MinMax
import PerfDrift.Detection.Growth

/-! The best of the models of a location.

A model stands by its fit and, among those that fit alike, by how slowly it grows. Where the
total order of the numbers places every number in a linear order, so does this one for the
models, and the best model has the greatest standing of all (`best?_standing`). No order of
the list enters into it; and where no two numbers share a place, the standing tells all that
a comparison sees of a model (`best?_seen`). -/
namespace PerfDrift.Detection.Growth
open Arithmetic

/-- What a comparison sees of a model. -/
def seen {α : Type} (m : FittedModel α) : ModelKind × α := (m.kind, m.fit)

/-- The standing of a model of which the kind and the fit are seen: the place of its fit, then
its slowness. -/
def standing {α ω : Type} (place : α → ω) (x : ModelKind × α) : ω ×ₗ Natᵒᵈ :=
  toLex (place x.2, OrderDual.toDual x.1.order)

theorem order_injective : Function.Injective ModelKind.order := by
  intro k k' h
  cases k <;> cases k' <;> first | rfl | cases h

theorem standing_injective {α ω : Type} {place : α → ω} (hinj : Function.Injective place) :
    Function.Injective (standing place) := by
  rintro ⟨k, x⟩ ⟨k', x'⟩ h
  obtain ⟨hx, hk⟩ := Prod.mk.inj (toLex.injective h)
  exact Prod.ext (order_injective (OrderDual.toDual.injective hk)) (hinj hx)

theorem max?_eq_of_perm {ω : Type} [LinearOrder ω] {l l' : List ω} (h : l.Perm l') :
    l.max? = l'.max? := by
  refine Option.ext fun x => ?_
  simp only [List.max?_eq_some_iff, h.mem_iff]

variable {α : Type} [Arithmetic α]

/-! ### The best model -/

/-- The best model is one of the models. -/
theorem mem_of_best? {ms : List (FittedModel α)} {m : FittedModel α} (h : best? ms = some m) :
    m ∈ ms := by
  cases ms with
  | nil => cases h
  | cons first rest =>
    obtain rfl := Option.some.inj h
    exact List.foldlRecOn rest better List.mem_cons_self fun best hbest m' hm' => by
      unfold better
      split
      · exact hbest
      · exact List.mem_cons_of_mem _ hm'

section Best
variable {ω : Type} [LinearOrder ω] {place : α → ω}
  (hplace : ∀ x y : α, totalOrder x y = Ord.compare (place x) (place y))
include hplace

theorem rank_eq_gt_iff (a b : FittedModel α) :
    rank a b = .gt ↔ standing place (seen b) < standing place (seen a) := by
  rw [rank, hplace, Ordering.then_eq_gt, compare_gt_iff_gt, compare_gt_iff_gt, compare_eq_iff_eq,
    Prod.Lex.lt_iff, eq_comm (a := place a.fit)]
  rfl

/-- The better model has the greater standing of the two. -/
theorem standing_better (a b : FittedModel α) :
    max (standing place (seen a)) (standing place (seen b)) =
      standing place (seen (better a b)) := by
  rw [better]
  split
  · next h => exact max_eq_left ((rank_eq_gt_iff hplace a b).mp h).le
  · next h => exact max_eq_right (not_lt.mp (mt (rank_eq_gt_iff hplace a b).mpr h))

/-- The best model has the greatest standing. -/
theorem best?_standing (ms : List (FittedModel α)) :
    (best? ms).map (standing place ∘ seen) = (ms.map (standing place ∘ seen)).max? := by
  cases ms with
  | nil => rfl
  | cons m ms =>
    rw [best?, List.map_cons, List.max?_cons', List.foldl_map, Option.map_some]
    exact congrArg some (List.foldl_hom _ fun a b => standing_better hplace a b).symm

/-- What is seen of the best model depends on what is seen of the models, not on how they are
listed. -/
theorem best?_seen (hinj : Function.Injective place) {ms ms' : List (FittedModel α)}
    (h : (ms.map seen).Perm (ms'.map seen)) : (best? ms).map seen = (best? ms').map seen := by
  have hperm : (ms.map (standing place ∘ seen)).Perm (ms'.map (standing place ∘ seen)) := by
    simpa only [List.map_map] using h.map (standing place)
  have hmax : (best? ms).map (standing place ∘ seen) = (best? ms').map (standing place ∘ seen) := by
    rw [best?_standing hplace, best?_standing hplace, max?_eq_of_perm hperm]
  rw [← Option.map_map, ← Option.map_map] at hmax
  exact Option.map_injective (standing_injective hinj) hmax

end Best

/-! ### What is found with the best models -/

/-- Without a growth on both sides there is no change. -/
theorem known_of_classify {before after : Option ModelKind}
    (h : classify before after ≠ .noChange) :
    ∃ k k', before = some k ∧ after = some k' := by
  cases before with
  | none => exact absurd rfl h
  | some k =>
    cases after with
    | none => exact absurd rfl h
    | some k' => exact ⟨k, k', rfl, rfl⟩

section Finding
variable {least : α}

theorem fitOf_eq (best : Option (FittedModel α)) :
    fitOf best = ((best.map seen).map (·.2)).getD zero := by
  cases best <;> rfl

theorem known_eq (best : Option (FittedModel α)) :
    known least best = ((best.map seen).filter fun x => le least x.2).map (·.1) := by
  cases best with
  | none => rfl
  | some m => cases hm : le least m.fit <;> simp [known, seen, Option.filter, hm]

/-- A finding depends on what is seen of the best models only. -/
theorem finding_congr {location : String} {bs bs' ts ts' : List (FittedModel α)}
    (hb : (best? bs).map seen = (best? bs').map seen)
    (ht : (best? ts).map seen = (best? ts').map seen) :
    finding least location bs ts = finding least location bs' ts' := by
  simp only [finding, known_eq, fitOf_eq, hb, ht]

end Finding

end PerfDrift.Detection.Growth
