import PerfDrift.Proofs.Check.Expected

/-! The rules of a check.

Rules have a say in whether profiles are collected, in which of them are candidates and in
the methods that these are compared by. Each time they are asked for the methods of the rules
that apply to a profile and for nothing else. Lists of rules that select alike may be
exchanged: in any world, and whatever fails in it, a check does and gives the same
(`checks_select_alike`). The order of the rules, a rule that stands there twice and a rule
that another one makes superfluous do not matter then (`selectAlike_of_covers`). -/
namespace PerfDrift

namespace Rule

/-- A rule with the same method that asks for all that another one asks for. -/
structure Stricter (r' r : Rule) : Prop where
  method : r'.method = r.method
  collector : ∀ c, r.collector = some c → r'.collector = some c
  postprocessor : ∀ c, r.postprocessor = some c → r'.postprocessor = some c
  command : ∀ c, r.command = some c → r'.command = some c

theorem Stricter.refl (r : Rule) : r.Stricter r :=
  ⟨rfl, fun _ => id, fun _ => id, fun _ => id⟩

theorem Admits.mono {wanted wanted' : Option String} {test : String → Prop}
    (h : ∀ c, wanted = some c → wanted' = some c) (ha : Admits wanted' test) :
    Admits wanted test := fun c hc => ha c (h c hc)

/-- What a stricter rule applies to, the other one does. -/
theorem Stricter.applies {α : Type} {r r' : Rule} (h : r'.Stricter r) {p : Profile α}
    (ha : r'.Applies p) : r.Applies p :=
  ⟨ha.1.mono h.collector, ha.2.1.mono h.postprocessor, ha.2.2.mono h.command⟩

end Rule

namespace Check
variable {ρ : Type} {rules rules' : List Rule}

/-- The rules that apply to a profile have the same methods in both lists. -/
def SelectAlike (rules rules' : List Rule) : Prop :=
  ∀ (p : Profile Float) (m : Method),
    (∃ r ∈ rules, r.Applies p ∧ r.method = m) ↔ ∃ r ∈ rules', r.Applies p ∧ r.method = m

/-- More rules select no more when each is at least as strict as one that is there already. -/
theorem selectAlike_of_covers (hsub : ∀ r ∈ rules, r ∈ rules')
    (hcover : ∀ r' ∈ rules', ∃ r ∈ rules, r'.Stricter r) : SelectAlike rules rules' := by
  intro p m
  constructor
  · rintro ⟨r, hr, ha, hm⟩
    exact ⟨r, hsub r hr, ha, hm⟩
  · rintro ⟨r', hr', ha, hm⟩
    obtain ⟨r, hr, hs⟩ := hcover r' hr'
    exact ⟨r, hr, hs.applies ha, hs.method ▸ hm⟩

/-! ### What rules are asked for -/

namespace SelectAlike

theorem matched_iff (h : SelectAlike rules rules') (p : StoredProfile Float) :
    Matched rules p ↔ Matched rules' p := by
  have hmethod : ∀ l : List Rule,
      Ruled l p ↔ ∃ m, ∃ r ∈ l, r.Applies p.profile ∧ r.method = m := by
    intro l
    constructor
    · rintro ⟨r, hr, ha⟩
      exact ⟨r.method, r, hr, ha, rfl⟩
    · rintro ⟨-, r, hr, ha, -⟩
      exact ⟨r, hr, ha⟩
  rw [Check.matched_iff, Check.matched_iff, hmethod, hmethod]
  exact exists_congr (h p.profile)

theorem methodsFor_eq (h : SelectAlike rules rules') (p : StoredProfile Float) :
    Rule.methodsFor rules p.profile = Rule.methodsFor rules' p.profile := by
  rw [Check.methodsFor_eq, Check.methodsFor_eq]
  exact List.filter_congr fun m _ => decide_eq_decide.mpr (h p.profile m)

theorem candidates_eq (h : SelectAlike rules rules') (ps : List (StoredProfile Float)) :
    candidates rules ps = candidates rules' ps := by
  simp only [candidates, h.matched_iff, h.methodsFor_eq]

end SelectAlike

/-! ### Checks -/

/-- The setting with other rules. -/
def Setting.withRules (s : Setting ρ) (rules : List Rule) : Setting ρ :=
  {s with config := {s.config with rules := rules}}

section Setting
variable (s : Setting ρ)

/-- An ancestor is judged by the candidates, which are there already. -/
theorem baselinesAmong_withRules (target : String) (cs : List Candidate) (vs : List Version) :
    baselinesAmong (s.withRules rules) target cs vs = baselinesAmong s target cs vs := by
  induction vs with
  | nil => rfl
  | cons v rest ih =>
    simp only [baselinesAmong, ih]
    rfl

theorem baselines_withRules (target : String) (cs : List Candidate) :
    baselines (s.withRules rules) target cs = baselines s target cs := by
  simp only [baselines, baselinesAmong_withRules]
  rfl

/-- Profiles are collected when no rule applies to any. -/
theorem targetProfiles_congr (h : SelectAlike rules rules') (v : Version) :
    targetProfiles (s.withRules rules) v = targetProfiles (s.withRules rules') v := by
  have hrules : ∀ l, (s.withRules l).config.rules = l := fun _ => rfl
  simp only [targetProfiles, hrules, h.matched_iff]
  rfl

theorem inMinor_congr (h : SelectAlike rules rules') (checksum : String) :
    inMinor (s.withRules rules) checksum = inMinor (s.withRules rules') checksum := by
  have hrules : ∀ l, (s.withRules l).config.rules = l := fun _ => rfl
  simp only [inMinor, hrules, targetProfiles_congr s h, h.candidates_eq, baselines_withRules]
  rfl

theorem inEach_congr (h : SelectAlike rules rules') (vs : List Version) :
    inEach (s.withRules rules) vs = inEach (s.withRules rules') vs := by
  induction vs with
  | nil => rfl
  | cons v rest ih => simp only [inEach, inMinor_congr s h, ih]

theorem inHistory_congr (h : SelectAlike rules rules') (start : String) :
    inHistory (s.withRules rules) start = inHistory (s.withRules rules') start := by
  simp only [inHistory, inEach_congr s h]
  rfl

end Setting

/-- **Rules matter by the methods that they select.** Where, for every profile, the rules
that apply to it have the same methods in one list as in another, a check of a version and a
check of a history give the same with either, or fail in the same way, and leave one world:
the same requests made, the same store, the same cache and the same runner. -/
theorem checks_select_alike (h : SelectAlike rules rules') (s : Setting ρ) (checksum : String)
    (w : World ρ) :
    (inMinor (s.withRules rules) checksum).perform w =
        (inMinor (s.withRules rules') checksum).perform w ∧
      (inHistory (s.withRules rules) checksum).perform w =
        (inHistory (s.withRules rules') checksum).perform w := by
  rw [inMinor_congr s h, inHistory_congr s h]
  exact ⟨rfl, rfl⟩

/-- Two rules, and the same in another order, one of them twice, and with a third that the
other one of its method makes superfluous. -/
theorem checks_select_alike_trial :
    let rules : List Rule := [{method := .fastCheck}, {method := .averageAmount}]
    let rules' : List Rule := [{method := .averageAmount},
      {method := .fastCheck, collector := some "time"}, {method := .fastCheck},
      {method := .averageAmount}]
    let w := Trial.world (.abort .cancelled)
    SelectAlike rules rules' ∧
      (inMinor (Trial.setting.withRules rules) "c").perform w =
        (inMinor (Trial.setting.withRules rules') "c").perform w ∧
      (inHistory (Trial.setting.withRules rules) "c").perform w =
        (inHistory (Trial.setting.withRules rules') "c").perform w := by
  intro rules rules' w
  have h : SelectAlike rules rules' := by
    refine selectAlike_of_covers (by decide) ?_
    intro r' hr'
    simp only [rules', List.mem_cons, List.not_mem_nil, or_false] at hr'
    rcases hr' with rfl | rfl | rfl | rfl
    · exact ⟨_, by decide, .refl _⟩
    · exact ⟨{method := .fastCheck}, by decide, rfl, nofun, nofun, nofun⟩
    · exact ⟨_, by decide, .refl _⟩
    · exact ⟨_, by decide, .refl _⟩
  obtain ⟨hminor, hhistory⟩ := checks_select_alike h Trial.setting "c" w
  exact ⟨h, hminor, hhistory⟩

end Check
end PerfDrift
