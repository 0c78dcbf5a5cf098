import PerfDrift.Proofs.Check.Mirror
import PerfDrift.Proofs.Check.Simulation

/-! The cache does not show.

Whatever is asked for, one operation after the other, the replies, the store, the runner and
the collections are the same as when the cache is emptied before every single check
(`cache_transparent`). The two runs are related by `Level`: their worlds cannot be told
apart, and the cache that is kept is a mirror of the store. -/
namespace PerfDrift.Check
open Check.Action World
variable {ρ : Type} {s : Setting ρ}

/-- The second world cannot be told from the first, whose cache is a mirror. -/
structure Level (w w' : World ρ) : Prop where
  alike : Alike w w'
  mirrored : w.Mirrored

theorem Level.asked {w w' : World ρ} (h : Level w w') {r : Request}
    (hr : r.collected? = none) : Level (w.asked r) (w'.asked r) :=
  ⟨(alike_asked w hr).symm.trans (h.alike.trans (alike_asked w' hr)), h.mirrored⟩

theorem Level.recorded {w w' : World ρ} (h : Level w w') (v : String)
    (rs : List (Record Float)) : Level (w.recorded v rs) (w'.recorded v rs) :=
  ⟨h.alike.recorded v rs, h.mirrored.recorded v rs⟩

/-- Nothing is lost with a mirror. -/
theorem alike_forget {w : World ρ} (hm : w.Mirrored) : Alike w {w with cache := .empty} :=
  ⟨rfl, rfl, rfl, fun u => (mirrored_iff.mp hm u).symm⟩

theorem Level.forget {w w' : World ρ} (h : Level w w') : Level w {w' with cache := .empty} :=
  ⟨h.alike.trans (alike_forget (h.alike.mirrored h.mirrored)), h.mirrored⟩

/-- A check need not find the cache it left. -/
theorem inMinor_simulates_cold (hs : s.Reliable) (hb : s.history.Built) (hr : s.runner.Local)
    (c : String) : Simulates Level (inMinor s c) (inMinorCold s c) := by
  intro w w' h
  obtain ⟨hresult, halike⟩ := inMinor_alike hs hb hr h.forget.alike c
  rw [inMinorCold_perform]
  exact ⟨hresult.symm, halike, inMinor_mirrored hs hb hr h.mirrored c⟩

theorem checkProfiles_simulates (hs : s.Reliable) (baseline target : StoredProfile Float)
    (version : String) (selection : Selection) :
    Simulates Level (checkProfiles s baseline target version selection)
      (checkProfiles s baseline target version selection) := by
  intro w w' h
  cases hf : compareProfiles s.config.thresholds baseline.profile target.profile selection with
  | error e =>
    rw [checkProfiles_refused hf, checkProfiles_refused hf]
    exact ⟨rfl, h⟩
  | ok fs =>
    rw [checkProfiles_completed hs hf, checkProfiles_completed hs hf]
    exact ⟨rfl, (h.asked rfl).recorded _ _⟩

theorem visit_simulates (v : String) :
    Simulates (ρ := ρ) Level (note (.visit v)) (note (.visit v)) :=
  fun _ _ h => ⟨rfl, h.asked rfl⟩

/-- With checks that simulate each other, so do the operations that are made of them. -/
theorem actionBy_simulates (hs : s.Reliable)
    {check check' : String → Action ρ (List (Record Float))}
    (hcheck : ∀ c, Simulates Level (check c) (check' c)) (op : Operation) :
    Simulates Level (op.actionBy check s) (op.actionBy check' s) := by
  cases op with
  | minor c => exact (hcheck c).bind fun _ => .pure _
  | history start =>
    exact (walk_simulates rfl rfl start).bind fun _ =>
      (inEachBy_simulates visit_simulates fun v _ => hcheck v.checksum).bind fun _ => .pure _
  | head => exact (head_simulates rfl rfl).bind fun c => (hcheck c).bind fun _ => .pure _
  | profiles b t v m => exact (checkProfiles_simulates hs b t v m).bind fun _ => .pure _
  | forget =>
    intro w w' h
    exact ⟨rfl, (alike_forget h.mirrored).symm.trans h.forget.alike, mirrored_of_empty rfl⟩

theorem inEach_mirrored (hs : s.Reliable) (hb : s.history.Built) (hr : s.runner.Local)
    {w : World ρ} (hm : w.Mirrored) (vs : List Version) :
    ((inEach s vs).perform w).2.Mirrored := by
  rw [inEach_eq]
  have hcold := inEachBy_simulates visit_simulates fun v (_ : v ∈ vs) =>
    inMinor_simulates_cold hs hb hr v.checksum
  exact (hcold w w ⟨.refl w, hm⟩).2.mirrored

/-- **The cache is transparent.** With a runner that collects nothing but profiles of the
version it is asked for, any sequence of operations that starts with an empty cache gives
the same replies, and leaves the same store, the same runner and the same collections, as
when every check of a version starts with an empty cache. Every entry of the cache is what
the store holds, after the sequence and between the versions of a walk. -/
theorem cache_transparent (hs : s.Reliable) (hb : s.history.Built) (hr : s.runner.Local)
    (ops : List Operation) {w : World ρ} (hw : w.cache = .empty) :
    let warm := runs (Operation.action s) ops w
    let cold := runs (Operation.actionBy (inMinorCold s) s) ops w
    warm.1 = cold.1 ∧ warm.2.store = cold.2.store ∧ warm.2.runner = cold.2.runner ∧
      warm.2.collections = cold.2.collections ∧ warm.2.Mirrored ∧
      ∀ start vs n, s.history.walk start = .ok vs →
        ((inEach s (vs.take n)).perform warm.2).2.Mirrored := by
  intro warm cold
  have hop : ∀ op : Operation,
      Simulates Level (op.action s) (op.actionBy (inMinorCold s) s) := by
    intro op
    rw [op.action_eq]
    exact actionBy_simulates hs (inMinor_simulates_cold hs hb hr) op
  obtain ⟨hreplies, hlevel⟩ := runs_simulates hop ops ⟨.refl w, mirrored_of_empty hw⟩
  exact ⟨hreplies, hlevel.alike.store.symm, hlevel.alike.runner.symm,
    hlevel.alike.collections.symm, hlevel.mirrored,
    fun _ vs n _ => inEach_mirrored hs hb hr hlevel.mirrored (vs.take n)⟩

/-- A walk that collects in between, a check of what was collected, and of the head without
a cache. -/
theorem cache_transparent_trial :
    let w := Trial.world (.produce [Trial.timed "b" 90])
    let ops : List Operation := [.history "c", .minor "b", .forget, .head, .minor "d"]
    (Trial.setting.Reliable ∧ Trial.setting.history.Built ∧ Trial.setting.runner.Local ∧
        w.cache = .empty) ∧
      (runs (Operation.action Trial.setting) ops w).1 =
        (runs (Operation.actionBy (inMinorCold Trial.setting) Trial.setting) ops w).1 ∧
      (runs (Operation.action Trial.setting) ops w).2.Mirrored := by
  intro w ops
  have hr : Trial.setting.runner.Local := Runner.scripted_adds.isLocal
  have hw : w.cache = .empty := rfl
  have h := cache_transparent Trial.reliable Trial.built hr ops hw
  exact ⟨⟨Trial.reliable, Trial.built, hr, hw⟩, h.1, h.2.2.2.2.1⟩

end PerfDrift.Check
