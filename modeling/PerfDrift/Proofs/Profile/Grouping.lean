import PerfDrift.Proofs.Detection.Coverage

/-! Profiles by location.

Every method reads a profile location by location: the amounts of a location, their weighted
total, and its models. Nothing is lost on the way there (`grouped_by_location`). Each location
that occurs has one group, in byte order, and every measurement and every model is in the group of
its location, in the order of the profile. A total is that of a group, and the totals can be kept
while the measurements are walked once. -/
namespace PerfDrift
open Arithmetic

/-! ### Items by name -/

namespace KeyMap
variable {β γ δ : Type}

/-- A map holds items by name: under every name that occurs what is kept of the items of that
name, in their order, and every item in one place. -/
structure Sorts (m : KeyMap (List γ)) (name : β → String) (kept : β → γ) (items : List β) :
    Prop where
  names : Detection.Lists m.keys fun k => ∃ x ∈ items, name x = k
  group : ∀ k ∈ m.keys, m.get? k = some ((items.filter fun x => name x = k).map kept)
  nonempty : ∀ xs ∈ m.values, xs ≠ []
  lossless : m.values.flatten.Perm (items.map kept)
  sizes : (m.values.map List.length).sum = items.length

theorem group_names (name : β → String) (items : List β) :
    Detection.Lists (group name items).keys fun k => ∃ x ∈ items, name x = k :=
  .of_sorted (keys_sorted _) fun _ => mem_keys_group

theorem group_sorts (name : β → String) (items : List β) :
    (group name items).Sorts name id items where
  names := group_names name items
  group k hk := by rw [get?_group_of_mem hk, List.map_id]
  nonempty _ h := ne_nil_of_mem_values_group h
  lossless := by
    rw [List.map_id]
    exact flatten_values_group name items
  sizes := by rw [← List.length_flatten, (flatten_values_group name items).length_eq]

/-- Less may be kept of every item. -/
theorem Sorts.map {m : KeyMap (List γ)} {name : β → String} {kept : β → γ} {items : List β}
    (h : m.Sorts name kept items) (f : γ → δ) :
    (m.map (List.map f)).Sorts name (fun x => f (kept x)) items where
  names := by
    rw [keys_map]
    exact h.names
  group k hk := by
    rw [keys_map] at hk
    rw [get?_map, h.group k hk, Option.map_some, List.map_map]
    rfl
  nonempty ys hys := by
    rw [values_map, List.mem_map] at hys
    obtain ⟨xs, hxs, rfl⟩ := hys
    simpa using h.nonempty xs hxs
  lossless := by
    have hall := h.lossless.map f
    rw [List.map_map] at hall
    rw [values_map, ← List.map_flatten]
    exact hall
  sizes := by
    rw [values_map, List.map_map, ← h.sizes]
    simp [Function.comp_def]

/-- A map holds items added up by name, from zero on and in their order; and so it does when every
item is added to it as it comes. -/
structure AddsUp [Arithmetic γ] (m : KeyMap γ) (name : β → String) (weight : β → γ)
    (items : List β) : Prop where
  names : Detection.Lists m.keys fun k => ∃ x ∈ items, name x = k
  total : ∀ k ∈ m.keys,
    m.get? k = some (Samples.sum ((items.filter fun x => name x = k).map weight))
  running : m = items.foldl (fun m x => m.alter (name x) fun t => t.getD zero + weight x) empty

theorem group_addsUp [Arithmetic γ] (name : β → String) (weight : β → γ) (items : List β) :
    ((group name items).map (List.foldl (fun t x => t + weight x) zero)).AddsUp name weight
      items where
  names := by
    rw [keys_map]
    exact group_names name items
  total k hk := by
    rw [keys_map] at hk
    rw [get?_map, get?_group_of_mem hk, Option.map_some, Samples.sum, List.foldl_map]
  running := map_foldl_group _ _ name items

end KeyMap

/-! ### Profiles -/

namespace Profile
variable {α : Type}

/-- **Nothing is lost by location.** The samples, the models and the totals of a profile list the
locations that occur, each once and in byte order. The samples of a location are the amounts
measured there and its models those fitted there, in the order of the profile; no group is empty,
and all of them together are all measurements and all models. The total of a location is the sum
of its amounts, each times its calls, from zero on and in the order of the profile. -/
theorem grouped_by_location [Arithmetic α] (p : Profile α) :
    p.samples.Sorts Resource.location Resource.amount p.resources ∧
      p.modelsByLocation.Sorts FittedModel.location id p.models ∧
      p.totals.AddsUp Resource.location (fun r => r.amount * ofNat r.calls.toNat) p.resources :=
  ⟨(KeyMap.group_sorts Resource.location p.resources).map Resource.amount,
    KeyMap.group_sorts FittedModel.location p.models, KeyMap.group_addsUp _ _ p.resources⟩

/-- Locations in turn, one of them with an amount that comes to nothing. -/
example :
    let p : Profile ℚ :=
      {origin := "a", collector := "trace", command := "ls",
        resources := [{location := "main", amount := 2, calls := 10},
          {location := "loop", amount := 0}, {location := "main", amount := 1}]}
    p.samples.entries = [("loop", [0]), ("main", [2, 1])] ∧
      p.totals.entries = [("loop", 0), ("main", 21)] := by
  decide +kernel

end Profile
end PerfDrift
