import PerfDrift.Proofs.Check.Simulation

/-! What is noted is what the runner was asked.

A check notes a collection and asks the runner for it, and the two might come apart. So let a
runner do as another one and record every version that it is asked for. Whatever is asked of the
library then, and whatever is refused, the runner has recorded the collections that are noted
(`runs_traced`). -/
namespace PerfDrift

/-- The runner that does as another one and records the versions it is asked for. -/
def Runner.recording {ρ : Type} (r : Runner ρ) : Runner (ρ × List String) where
  collect v store state :=
    let (result, store, own) := r.collect v store state.1
    (result, store, (own, state.2 ++ [v.checksum]))

namespace Check
open Check.Action World
variable {ρ : Type}

/-- The setting with a runner that records. -/
def Setting.traced (s : Setting ρ) : Setting (ρ × List String) := s.withRunner s.runner.recording

/-- The world where the runner has recorded the collections that are noted. -/
def World.traced (w : World ρ) : World (ρ × List String) :=
  {store := w.store, cache := w.cache, runner := (w.runner, w.collections), requests := w.requests}

/-- A world, and the same one where the runner has recorded the collections that are noted. -/
def Traced (w : World ρ) (w' : World (ρ × List String)) : Prop := w' = w.traced

variable {s : Setting ρ}

@[simp] theorem traced_config : s.traced.config = s.config := rfl

@[simp] theorem traced_cache (w : World ρ) : w.traced.cache = w.cache := rfl

/-! ### Requests -/

theorem note_traced {r : Request} (h : r.collected? = none) :
    Simulates (ρ := ρ) Traced (note r) (note r) := by
  rintro w - rfl
  refine ⟨rfl, ?_⟩
  have hcollections := (alike_asked w h).collections
  simp only [Traced, note_perform, World.traced, hcollections]
  rfl

/-- A collection is noted when the runner is asked for it. -/
theorem collect_traced (v : Version) :
    Simulates Traced (collect s v) (collect s.traced v) := by
  rintro w - rfl
  refine ⟨rfl, ?_⟩
  simp only [Traced, collect_perform, World.traced, collected_collections]
  rfl

theorem version_traced (c : String) :
    Simulates (ρ := ρ) Traced (version s c) (version s.traced c) :=
  (Simulates.refuse _ _).bind fun _ => .answer _

theorem loadProfiles_traced (c : String) :
    Simulates Traced (loadProfiles s c) (loadProfiles s.traced c) := by
  refine (note_traced rfl).bind fun _ => (Simulates.refuse _ _).bind fun _ => .get_bind ?_
  rintro w - rfl
  exact .pure _

theorem storeRecords_traced (c : String) (rs : List (Record Float)) :
    Simulates Traced (storeRecords s c rs) (storeRecords s.traced c rs) := by
  refine (note_traced rfl).bind fun _ => (Simulates.refuse _ _).bind fun _ => ?_
  rintro w - rfl
  exact ⟨rfl, rfl⟩

theorem remember_traced (c : String) (ps : List (StoredProfile Float)) :
    Simulates (ρ := ρ) Traced (remember c ps) (remember c ps) := by
  rintro w - rfl
  exact ⟨rfl, rfl⟩

theorem forget_traced : Simulates (ρ := ρ) Traced forget forget := by
  rintro w - rfl
  exact ⟨rfl, rfl⟩

/-! ### Checks -/

theorem recallOrLoad_traced (c : String) :
    Simulates Traced (recallOrLoad s c) (recallOrLoad s.traced c) := by
  refine .get_bind ?_
  rintro w - rfl
  rw [traced_cache]
  cases w.cache.get? c with
  | some ps => exact .pure ps
  | none => exact loadProfiles_traced c

theorem ancestorProfiles_traced (c : String) :
    Simulates Traced (ancestorProfiles s c) (ancestorProfiles s.traced c) := by
  refine .get_bind ?_
  rintro w - rfl
  rw [traced_cache]
  cases w.cache.get? c with
  | some ps => exact .pure ps
  | none =>
    exact (loadProfiles_traced c).bind fun ps => (remember_traced c ps).bind fun _ => .pure ps

theorem targetProfiles_traced (v : Version) :
    Simulates Traced (targetProfiles s v) (targetProfiles s.traced v) := by
  refine (recallOrLoad_traced v.checksum).bind fun ps => ?_
  have hkept : ∀ ps, Simulates (ρ := ρ) Traced
      (do remember v.checksum ps; pure (some ps)) (do remember v.checksum ps; pure (some ps)) :=
    fun ps => (remember_traced v.checksum ps).bind fun _ => .pure _
  rw [traced_config]
  split
  · refine (collect_traced v).bind fun result => ?_
    cases result with
    | error e => exact .pure none
    | ok _ => exact (loadProfiles_traced v.checksum).bind hkept
  · exact hkept ps

theorem baselinesAmong_traced (target : String) (cs : List Candidate) (vs : List Version) :
    Simulates Traced (baselinesAmong s target cs vs) (baselinesAmong s.traced target cs vs) := by
  induction vs with
  | nil => exact .pure []
  | cons v rest ih =>
    refine (note_traced rfl).bind fun _ => ?_
    split
    · exact ih
    · refine (ancestorProfiles_traced v.checksum).bind fun ps => ?_
      split
      · rw [traced_config]
        cases s.config.policy with
        | first => exact .pure _
        | all => exact ih.bind fun _ => .pure _
      · exact ih

theorem baselines_traced (target : String) (cs : List Candidate) :
    Simulates Traced (baselines s target cs) (baselines s.traced target cs) := by
  unfold baselines
  split
  · exact .pure []
  · have hwalk := walk_simulates (R := Traced) (s := s) (t := s.traced) rfl rfl target
    exact hwalk.bind fun vs => baselinesAmong_traced target cs vs

theorem inMinor_traced (c : String) : Simulates Traced (inMinor s c) (inMinor s.traced c) := by
  refine (version_traced c).bind fun v => (targetProfiles_traced v).bind fun found => ?_
  cases found with
  | none => exact .pure []
  | some ps =>
    refine (baselines_traced v.checksum _).bind fun bs => ?_
    rw [traced_config]
    cases attemptAll s.config.thresholds bs (candidates s.config.rules ps) with
    | error e => exact fun _ _ h => ⟨rfl, h⟩
    | ok records => exact (storeRecords_traced v.checksum records).bind fun _ => .pure records

theorem checkProfiles_traced (baseline target : StoredProfile Float) (version : String)
    (selection : Selection) :
    Simulates Traced (checkProfiles s baseline target version selection)
      (checkProfiles s.traced baseline target version selection) := by
  unfold checkProfiles
  rw [traced_config]
  cases compareProfiles s.config.thresholds baseline.profile target.profile selection with
  | error e => exact fun _ _ h => ⟨rfl, h⟩
  | ok fs => exact (storeRecords_traced version _).bind fun _ => .pure _

/-! ### Operations -/

theorem action_traced (op : Operation) : Simulates Traced (op.action s) (op.action s.traced) := by
  rw [op.action_eq, op.action_eq]
  cases op with
  | minor checksum => exact (inMinor_traced checksum).bind fun _ => .pure _
  | history start =>
    have hwalk := walk_simulates (R := Traced) (s := s) (t := s.traced) rfl rfl start
    refine hwalk.bind fun vs => ?_
    exact (inEachBy_simulates (fun _ => note_traced rfl)
      fun v _ => inMinor_traced v.checksum).bind fun _ => .pure _
  | head =>
    have hhead := head_simulates (R := Traced) (s := s) (t := s.traced) rfl rfl
    exact hhead.bind fun c => (inMinor_traced c).bind fun _ => .pure _
  | profiles baseline target version selection =>
    exact (checkProfiles_traced baseline target version selection).bind fun _ => .pure _
  | forget => exact forget_traced.bind fun _ => .pure _

/-- **A runner is asked for what is noted, and for nothing else.** Whatever operations are made in
whatever setting, a runner that records the versions it is asked for, and else does as the one
there is, has recorded the collections that are noted, in their order; the replies are the same,
and so is all the rest of the world. -/
theorem runs_traced (s : Setting ρ) (ops : List Operation) (w : World ρ) :
    runs (fun op => op.action s.traced) ops w.traced =
      ((runs (fun op => op.action s) ops w).1, (runs (fun op => op.action s) ops w).2.traced) := by
  obtain ⟨hreplies, hworlds⟩ := runs_simulates action_traced ops (rfl : Traced w w.traced)
  exact Prod.ext hreplies.symm hworlds

end Check
end PerfDrift
