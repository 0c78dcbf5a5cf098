import PerfDrift.Proofs.Detection.Bounds
import PerfDrift.Proofs.Detection.Growth
import PerfDrift.Proofs.Detection.Locality
import PerfDrift.Proofs.Number.Value

/-! Detection by growth, read from the models.

The best model of a side is what a fold over its models leaves. Said of the models themselves,
none of them has a fit of greater value, and of those that fit as well none grows more slowly
(`IsBest`); that leaves one growth and one fit. The two zeros are of one value, but a model that
fits with `-0.0` gives way to one that fits with `0.0`, however slowly it grows
(`zeros_told_apart`); but for that the value alone decides (`isBest_iff_leads`).

A finding says how the growths of the two sides compare where both fit well enough, and nothing
else (`Decides`). Exchanging the sides exchanges what it says of them (`compare_decides`). -/
namespace PerfDrift

/-- The verdict with degradation and optimization exchanged. -/
def Verdict.exchange : Verdict → Verdict
  | .degradation => .optimization
  | .optimization => .degradation
  | verdict => verdict

namespace Detection.Growth
open Arithmetic

/-! ### Two growths -/

section Growths
variable {before after : Option ModelKind}

theorem classify_eq_degradation_iff :
    classify before after = .degradation ↔
      ∃ k k', before = some k ∧ after = some k' ∧ k.order < k'.order := by
  cases before with
  | none => simp [classify]
  | some k =>
    cases after with
    | none => simp [classify]
    | some k' =>
      by_cases hup : k.order < k'.order
      · simp [classify, hup]
      · by_cases hdown : k'.order < k.order
        · simp [classify, hup, hdown]
        · simp [classify, hup, hdown]

/-- Exchanging the growths exchanges the verdicts. -/
theorem classify_swap (before after : Option ModelKind) :
    classify after before = (classify before after).exchange := by
  cases before with
  | none => cases after <;> rfl
  | some k =>
    cases after with
    | none => rfl
    | some k' =>
      rcases lt_trichotomy k.order k'.order with h | h | h
      · simp [classify, h, h.not_gt, Verdict.exchange]
      · simp [classify, h, Verdict.exchange]
      · simp [classify, h, h.not_gt, Verdict.exchange]

theorem exchange_eq_optimization_iff {verdict : Verdict} :
    verdict.exchange = .optimization ↔ verdict = .degradation := by
  cases verdict <;> decide

theorem classify_eq_optimization_iff :
    classify before after = .optimization ↔ classify after before = .degradation := by
  rw [classify_swap after before, exchange_eq_optimization_iff]

/-- Growths get no other verdicts. -/
theorem classify_eq_noChange_iff :
    classify before after = .noChange ↔
      classify before after ≠ .degradation ∧ classify before after ≠ .optimization := by
  unfold classify
  split
  · split_ifs <;> decide
  · decide

end Growths

/-- The locations are those of both profiles, whichever of them is the baseline. -/
theorem locations_swap {α : Type} (baseline target : Profile α) :
    locations target baseline = locations baseline target := by
  refine KeyMap.namesOf_congr fun location => ?_
  simp only [KeyMap.meet_keys, List.mem_append, List.mem_filter, decide_eq_true_eq]
  exact or_congr and_comm and_comm

/-! ### The best of the models -/

section Models
variable {ms : List (FittedModel Float)} {m m' : FittedModel Float}

/-- None of the models has a fit of greater value, nor the positive zero where this one has the
negative; and of those with the same fit none grows more slowly. -/
structure IsBest (ms : List (FittedModel Float)) (m : FittedModel Float) : Prop where
  mem : m ∈ ms
  fit : ∀ m' ∈ ms, value m'.fit ≤ value m.fit
  zero : m.fit = -0.0 → ∀ m' ∈ ms, m'.fit ≠ 0.0
  order : ∀ m' ∈ ms, m'.fit = m.fit → m.kind.order ≤ m'.kind.order

/-- The value of the fit decides, and where it is the same the growth. -/
structure Leads (ms : List (FittedModel Float)) (m : FittedModel Float) : Prop where
  mem : m ∈ ms
  fit : ∀ m' ∈ ms, value m'.fit ≤ value m.fit
  order : ∀ m' ∈ ms, value m'.fit = value m.fit → m.kind.order ≤ m'.kind.order

/-- Without both zeros among the fits their values tell them apart. -/
theorem isBest_iff_leads (hfinite : ∀ m ∈ ms, m.fit.isFinite)
    (hzeros : (∀ m ∈ ms, m.fit ≠ -0.0) ∨ ∀ m ∈ ms, m.fit ≠ 0.0) : IsBest ms m ↔ Leads ms m := by
  constructor
  · intro h
    refine ⟨h.mem, h.fit, fun m' hm' he => h.order m' hm' ?_⟩
    rcases eq_or_zeros_of_value_eq (hfinite m' hm') (hfinite m h.mem) he with hsame | hzero | hzero
    · exact hsame
    · exact hzeros.elim (fun hn => absurd hzero.1 (hn m' hm')) fun hn => absurd hzero.2 (hn m h.mem)
    · exact hzeros.elim (fun hn => absurd hzero.2 (hn m h.mem)) fun hn => absurd hzero.1 (hn m' hm')
  · intro h
    refine ⟨h.mem, h.fit, fun hminus m' hm' hplus => ?_,
      fun m' hm' he => h.order m' hm' (congrArg value he)⟩
    exact hzeros.elim (fun hn => hn m h.mem hminus) fun hn => hn m' hm' hplus

/-- Best models are of one kind and one fit. -/
theorem IsBest.seen_eq (hfinite : ∀ m ∈ ms, m.fit.isFinite) (h : IsBest ms m)
    (h' : IsBest ms m') : seen m = seen m' := by
  have hvalue : value m.fit = value m'.fit := le_antisymm (h'.fit m h.mem) (h.fit m' h'.mem)
  have hfit : m.fit = m'.fit := by
    rcases eq_or_zeros_of_value_eq (hfinite m h.mem) (hfinite m' h'.mem) hvalue with
      hsame | hzero | hzero
    · exact hsame
    · exact absurd hzero.2 (h.zero hzero.1 m' h'.mem)
    · exact absurd hzero.1 (h'.zero hzero.2 m h.mem)
  have horder : m.kind.order = m'.kind.order :=
    le_antisymm (h.order m' h'.mem hfit.symm) (h'.order m h.mem hfit)
  exact Prod.ext (order_injective horder) hfit

/-- The best model has the greatest standing, and so none of the others is before it in value. -/
theorem isBest_of_best? (hfinite : ∀ m ∈ ms, m.fit.isFinite) (h : best? ms = some m) :
    IsBest ms m := by
  have hmem := mem_of_best? h
  have hmax : (best? ms).map (standing totalRank ∘ seen) =
      (ms.map (standing totalRank ∘ seen)).max? := best?_standing (fun _ _ => rfl) ms
  rw [h, Option.map_some] at hmax
  have hstanding : ∀ m' ∈ ms, totalRank m'.fit < totalRank m.fit ∨
      totalRank m'.fit = totalRank m.fit ∧ m.kind.order ≤ m'.kind.order := fun m' hm' =>
    Prod.Lex.le_iff.mp ((List.max?_eq_some_iff.mp hmax.symm).2 _ (List.mem_map_of_mem hm'))
  have hrank : ∀ m' ∈ ms, totalRank m'.fit ≤ totalRank m.fit := fun m' hm' =>
    (hstanding m' hm').elim le_of_lt fun he => he.1.le
  refine ⟨hmem, fun m' hm' => ?_, fun hminus m' hm' hplus => ?_, fun m' hm' he => ?_⟩
  · by_contra hlt
    exact (hrank m' hm').not_gt
      (totalRank_lt_of_value_lt (hfinite m hmem) (hfinite m' hm') (not_le.mp hlt))
  · have := hrank m' hm'
    rw [hminus, hplus, totalRank_zero, totalRank_neg_zero] at this
    omega
  · rcases hstanding m' hm' with hlt | ⟨-, horder⟩
    · exact absurd hlt (he ▸ lt_irrefl _)
    · exact horder

theorem best?_eq_none_iff : best? ms = none ↔ ms = [] := by
  cases ms with
  | nil => simp [best?]
  | cons m ms => simp [best?]

end Models

/-! ### What the models of a side say -/

section Side
variable {least : Float} {ms : List (FittedModel Float)}

/-- A best model fits well enough, and grows like this. -/
def Known (least : Float) (ms : List (FittedModel Float)) (kind : ModelKind) : Prop :=
  ∃ m, IsBest ms m ∧ value least ≤ value m.fit ∧ m.kind = kind

/-- How well the best models fit; without models, not at all. -/
def BestFit (ms : List (FittedModel Float)) (x : ℚ) : Prop :=
  ms = [] ∧ x = 0 ∨ ∃ m, IsBest ms m ∧ value m.fit = x

theorem known_some_iff (hleast : least.isFinite) {m : FittedModel Float} {kind : ModelKind}
    (hm : m.fit.isFinite) :
    known least (some m) = some kind ↔ value least ≤ value m.fit ∧ m.kind = kind := by
  rw [value_le_iff hleast hm]
  simp only [known, Option.map_eq_some_iff, Option.filter_eq_some_iff, Option.some_inj]
  constructor
  · rintro ⟨_, ⟨rfl, hfit⟩, hkind⟩
    exact ⟨hfit, hkind⟩
  · rintro ⟨hfit, hkind⟩
    exact ⟨m, ⟨rfl, hfit⟩, hkind⟩

/-- The growth that is worked with is the known one. -/
theorem known_eq_some_iff (hleast : least.isFinite) (hfinite : ∀ m ∈ ms, m.fit.isFinite)
    {kind : ModelKind} : known least (best? ms) = some kind ↔ Known least ms kind := by
  cases hbest : best? ms with
  | none =>
    obtain rfl := best?_eq_none_iff.mp hbest
    have hnone : ∀ m, ¬IsBest [] m := fun m h => List.not_mem_nil h.mem
    simp [known, Known, hnone]
  | some m =>
    have hm := isBest_of_best? hfinite hbest
    rw [known_some_iff hleast (hfinite m hm.mem)]
    constructor
    · rintro ⟨hfit, hkind⟩
      exact ⟨m, hm, hfit, hkind⟩
    · rintro ⟨m', hm', hfit, rfl⟩
      obtain ⟨hkind, hsame⟩ := Prod.mk.inj (hm.seen_eq hfinite hm')
      exact ⟨hsame ▸ hfit, hkind⟩

theorem bestFit_fitOf (hfinite : ∀ m ∈ ms, m.fit.isFinite) :
    BestFit ms (value (fitOf (best? ms))) := by
  cases hbest : best? ms with
  | none => exact .inl ⟨best?_eq_none_iff.mp hbest, value_zero⟩
  | some m => exact .inr ⟨m, isBest_of_best? hfinite hbest, rfl⟩

/-- A growth is known from a fit that is good enough. -/
theorem le_fitOf_of_known (hleast : least.isFinite) (hfinite : ∀ m ∈ ms, m.fit.isFinite)
    {kind : ModelKind} (h : known least (best? ms) = some kind) :
    value least ≤ value (fitOf (best? ms)) := by
  cases hbest : best? ms with
  | none =>
    rw [hbest] at h
    cases h
  | some m =>
    rw [hbest] at h
    exact ((known_some_iff hleast (hfinite m (mem_of_best? hbest))).mp h).1

theorem name_known_eq_some_iff (hleast : least.isFinite) (hfinite : ∀ m ∈ ms, m.fit.isFinite)
    {name : String} :
    (known least (best? ms)).map (·.name) = some name ↔
      ∃ kind, Known least ms kind ∧ kind.name = name := by
  simp only [Option.map_eq_some_iff, known_eq_some_iff hleast hfinite]

end Side

/-! ### What is found -/

/-- The growths of both sides are known, and that of the second is the faster one. -/
def Outgrown (least : Float) (before after : List (FittedModel Float)) : Prop :=
  ∃ k k', Known least before k ∧ Known least after k' ∧ k.order < k'.order

/-- What a finding says about the models of both sides. -/
structure Decides (least : Float) (before after : List (FittedModel Float)) (f : Finding Float) :
    Prop where
  degradation : f.verdict = .degradation ↔ Outgrown least before after
  optimization : f.verdict = .optimization ↔ Outgrown least after before
  noChange : f.verdict = .noChange ↔ ¬Outgrown least before after ∧ ¬Outgrown least after before
  fromModel : ∀ name, f.fromModel = some name ↔ ∃ kind, Known least before kind ∧ kind.name = name
  toModel : ∀ name, f.toModel = some name ↔ ∃ kind, Known least after kind ∧ kind.name = name
  confidence : ∃ x y c, BestFit before x ∧ BestFit after y ∧ f.confidence = some c ∧
    c.isFinite ∧ value c = max 0 (min (min x y) 1)
  trusted : f.verdict ≠ .noChange → ∃ c, f.confidence = some c ∧ value least ≤ value c

/-- The second finding says of exchanged sides what the first one says of them. Confidences are
the same in value. -/
structure Mirrored (f f' : Finding Float) : Prop where
  strategy : f'.strategy = f.strategy
  location : f'.location = f.location
  verdict : f'.verdict = f.verdict.exchange
  rate : f'.rate = f.rate
  fromModel : f'.fromModel = f.toModel
  toModel : f'.toModel = f.fromModel
  confidenceKind : f'.confidenceKind = f.confidenceKind
  confidence : f'.confidence.map value = f.confidence.map value

section Finding
variable {least : Float} {location : String} {before after : List (FittedModel Float)}
  (hbefore : ∀ m ∈ before, m.fit.isFinite) (hafter : ∀ m ∈ after, m.fit.isFinite)
include hbefore hafter

/-- The confidence is the smaller of the fits, brought into `[0, 1]`. -/
theorem value_confidence :
    value (clampUnit (lesser (fitOf (best? before)) (fitOf (best? after)))) =
      max 0 (min (min (value (fitOf (best? before))) (value (fitOf (best? after)))) 1) := by
  have hb := fitOf_isFinite hbefore
  have ha := fitOf_isFinite hafter
  rw [value_clampUnit (lesser_isFinite hb ha), value_lesser hb ha]

theorem classify_known_eq_degradation_iff (hleast : least.isFinite) :
    classify (known least (best? before)) (known least (best? after)) = .degradation ↔
      Outgrown least before after := by
  simp only [classify_eq_degradation_iff, known_eq_some_iff hleast hbefore,
    known_eq_some_iff hleast hafter, Outgrown]

theorem finding_decides (hzero : 0 ≤ least) (hone : least ≤ 1) :
    Decides least before after (finding least location before after) := by
  have hleast := isFinite_of_mem_unit hzero hone
  have hdegradation := classify_known_eq_degradation_iff hbefore hafter hleast
  have hoptimization := classify_eq_optimization_iff.trans
    (classify_known_eq_degradation_iff hafter hbefore hleast)
  refine ⟨hdegradation, hoptimization, ?_, fun _ => name_known_eq_some_iff hleast hbefore,
    fun _ => name_known_eq_some_iff hleast hafter, ?_, fun hne => ?_⟩
  · exact classify_eq_noChange_iff.trans
      (and_congr (not_congr hdegradation) (not_congr hoptimization))
  · have hfit := lesser_isFinite (fitOf_isFinite hbefore) (fitOf_isFinite hafter)
    obtain ⟨hlow, hhigh⟩ := clampUnit_mem (isNaN_of_isFinite hfit)
    exact ⟨_, _, _, bestFit_fitOf hbefore, bestFit_fitOf hafter, rfl,
      isFinite_of_mem_unit hlow hhigh, value_confidence hbefore hafter⟩
  · obtain ⟨k, k', hk, hk'⟩ := known_of_classify hne
    have hfit := le_min (le_fitOf_of_known hleast hbefore hk) (le_fitOf_of_known hleast hafter hk')
    have hunit : value least ≤ 1 := value_one ▸ (value_le_iff hleast rfl).mpr hone
    refine ⟨_, rfl, ?_⟩
    rw [value_confidence hbefore hafter]
    exact le_max_of_le_right (le_min hfit hunit)

/-- Exchanging the sides exchanges what is found of them. -/
theorem finding_mirrored :
    Mirrored (finding least location before after) (finding least location after before) where
  strategy := rfl
  location := rfl
  verdict := classify_swap _ _
  rate := rfl
  fromModel := rfl
  toModel := rfl
  confidenceKind := rfl
  confidence := congrArg some (by
    rw [value_confidence hafter hbefore, value_confidence hbefore hafter, min_comm (value _)])

end Finding

/-! ### Comparisons -/

theorem modelsAt_isFinite {p : Profile Float} (h : ∀ m ∈ p.models, m.fit.isFinite)
    (location : String) : ∀ m ∈ p.modelsAt location, m.fit.isFinite :=
  fun m hm => h m (List.mem_of_mem_filter hm)

theorem compare_eq {least : Float} (baseline target : Profile Float) :
    compare least baseline target = (locations baseline target).map fun location =>
      finding least location (baseline.modelsAt location) (target.modelsAt location) := by
  simp only [compare, Profile.modelsByLocation, KeyMap.getD_get?_group, Profile.modelsAt]

/-- **The best models decide, and either side may be the baseline.** With a demand on the fit in
`[0, 1]` and finite fits, a comparison by growth says at each of its locations what there is to
say about the models that the two profiles have there: it sees a change where the best of them
fit well enough on both sides and grow differently, and is as confident of it as the less
fitting of the two allows. With the profiles exchanged it says the same of the same locations,
with the sides exchanged. -/
theorem compare_decides {least : Float} (hzero : 0 ≤ least) (hone : least ≤ 1)
    {baseline target : Profile Float} (hb : ∀ m ∈ baseline.models, m.fit.isFinite)
    (ht : ∀ m ∈ target.models, m.fit.isFinite) :
    (∀ f ∈ compare least baseline target,
      Decides least (baseline.modelsAt f.location) (target.modelsAt f.location) f) ∧
    List.Forall₂ Mirrored (compare least baseline target) (compare least target baseline) := by
  rw [compare_eq, compare_eq, locations_swap]
  constructor
  · intro f hf
    obtain ⟨location, -, rfl⟩ := List.mem_map.mp hf
    exact finding_decides (modelsAt_isFinite hb location) (modelsAt_isFinite ht location) hzero hone
  · rw [List.forall₂_map_left_iff, List.forall₂_map_right_iff]
    exact List.forall₂_same.mpr fun location _ =>
      finding_mirrored (modelsAt_isFinite hb location) (modelsAt_isFinite ht location)

/-- Two models that fit alike, of which the slower one counts; one that fits better than
everything; and a location where the best model does not fit well enough. -/
theorem compare_decides_trial :
    let least : Float := 0.875
    let b : Profile Float :=
      {origin := "a", collector := "time", command := "ls",
        models := [{location := "main", kind := .linear, fit := 0.9375},
          {location := "main", kind := .power, fit := 0.9375},
          {location := "loop", kind := .constant, fit := 0.75}]}
    let t : Profile Float :=
      {origin := "b", collector := "time", command := "ls",
        models := [{location := "loop", kind := .power, fit := 1},
          {location := "main", kind := .linear, fit := 0.5},
          {location := "main", kind := .quadratic, fit := 1.5}]}
    (0 ≤ least ∧ least ≤ 1 ∧ (∀ m ∈ b.models, m.fit.isFinite) ∧
      ∀ m ∈ t.models, m.fit.isFinite) ∧
      (∀ f ∈ compare least b t, Decides least (b.modelsAt f.location) (t.modelsAt f.location) f) ∧
      List.Forall₂ Mirrored (compare least b t) (compare least t b) ∧
      (compare least b t).map (fun f => (f.verdict, f.fromModel, f.toModel)) =
        [(.noChange, none, some "power"), (.degradation, some "linear", some "quadratic")] := by
  intro least b t
  have hzero : 0 ≤ least := by decide +kernel
  have hone : least ≤ 1 := by decide +kernel
  have hb : ∀ m ∈ b.models, m.fit.isFinite := by decide +kernel
  have ht : ∀ m ∈ t.models, m.fit.isFinite := by decide +kernel
  obtain ⟨hdecides, hmirrored⟩ := compare_decides hzero hone hb ht
  exact ⟨⟨hzero, hone, hb, ht⟩, hdecides, hmirrored, by decide +kernel⟩

/-- The linear model leads at `main`, being of the same value and slower than the other one, and
so does a linear model in the target; still the baseline is taken to be quadratic. -/
theorem zeros_told_apart :
    let m : FittedModel Float := {location := "main", kind := .linear, fit := -0.0}
    let m' : FittedModel Float := {location := "main", kind := .linear, fit := 0.5}
    let b : Profile Float :=
      {origin := "a", collector := "time", command := "ls",
        models := [m, {location := "main", kind := .quadratic, fit := 0.0}]}
    let t : Profile Float := {origin := "b", collector := "time", command := "ls", models := [m']}
    ((∀ m ∈ b.models, m.fit.isFinite) ∧ ∀ m ∈ t.models, m.fit.isFinite) ∧
      Leads (b.modelsAt "main") m ∧ value 0 ≤ value m.fit ∧
      Leads (t.modelsAt "main") m' ∧ value 0 ≤ value m'.fit ∧
      (compare 0 b t).map (fun f => (f.location, f.verdict, f.fromModel, f.toModel)) =
        [("main", .optimization, some "quadratic", some "linear")] := by
  intro m m' b t
  have hleads : Leads (b.modelsAt "main") m :=
    ⟨by decide +kernel, by decide +kernel, by decide +kernel⟩
  have hleads' : Leads (t.modelsAt "main") m' :=
    ⟨by decide +kernel, by decide +kernel, by decide +kernel⟩
  exact ⟨by decide +kernel, hleads, by decide +kernel, hleads', by decide +kernel,
    by decide +kernel⟩

end Detection.Growth

end PerfDrift
