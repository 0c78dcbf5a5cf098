import PerfDrift.Proofs.Check.Minor
import PerfDrift.Proofs.Check.Operation

/-! Checks fail on unknown versions only.

With a history and a store that answer, nothing that is in the store or the cache, and
nothing that a runner does, makes a check fail: a collection that is given up leads to a
version that is skipped, profiles that are paired can be compared (`attemptAll_eq`), and the
versions of a walk are known. What is left is a version that was never committed, and that
is found out before anything is asked for (`checks_fail_on_unknown`). -/
namespace PerfDrift.Check
open Check.Action World
variable {ρ α : Type} {s : Setting ρ} {w : World ρ}

/-! ### Failing on one condition -/

/-- The action fails if and only if the condition holds. The failure is this one then, and
the world is as it was: the store, the cache, the runner and what was asked for. -/
def FailsOn (condition : Prop) (failure : Failure) (a : Action ρ α) (w : World ρ) : Prop :=
  ((∃ e, (a.perform w).1 = .error e) ↔ condition) ∧
    ∀ e, (a.perform w).1 = .error e → e = failure ∧ (a.perform w).2 = w

theorem FailsOn.failed {condition : Prop} {failure : Failure} {a : Action ρ α}
    (hc : condition) (ha : a.perform w = (.error failure, w)) : FailsOn condition failure a w := by
  refine ⟨⟨fun _ => hc, fun _ => ⟨failure, by rw [ha]⟩⟩, fun e he => ?_⟩
  rw [ha] at he ⊢
  exact ⟨(Except.error.inj he).symm, rfl⟩

theorem FailsOn.completed {condition : Prop} {failure : Failure} {a : Action ρ α} {x : α}
    (hc : ¬condition) (ha : (a.perform w).1 = .ok x) : FailsOn condition failure a w := by
  have hnot : ∀ e, (a.perform w).1 ≠ .error e := by
    intro e he
    rw [ha] at he
    cases he
  exact ⟨⟨fun ⟨e, he⟩ => absurd he (hnot e), fun h => absurd h hc⟩,
    fun e he => absurd he (hnot e)⟩

/-! ### Walks -/

/-- Checks of versions that are known come to an end, whatever the runner does. -/
theorem inEach_known (hs : s.Reliable) {vs : List Version}
    (hknown : ∀ v ∈ vs, s.history.version v.checksum = .ok v) (w : World ρ) :
    ∃ es, ((inEach s vs).perform w).1 = .ok es := by
  induction vs generalizing w with
  | nil => exact ⟨[], rfl⟩
  | cons v rest ih =>
    obtain ⟨hv, hrest⟩ := List.forall_mem_cons.mp hknown
    obtain ⟨rs, w', hw'⟩ := inMinor_known hs hv (w.asked (.visit v.checksum))
    obtain ⟨es, hes⟩ := ih hrest w'
    refine ⟨rs.map (fun r => ⟨v.checksum, r⟩) ++ es, ?_⟩
    rw [inEach_cons_perform hw', hes]
    rfl

/-! ### Checks -/

theorem inMinor_failsOn (hs : s.Reliable) (hb : s.history.Built) (c : String) (w : World ρ) :
    FailsOn (¬s.history.Knows c) (.history (.unknownVersion c)) (inMinor s c) w := by
  cases hv : s.history.version c with
  | error e =>
    obtain rfl := History.eq_unknownVersion hv
    exact .failed (History.not_knows_of_error hv) (inMinor_unknown hs hv w)
  | ok v =>
    obtain rfl := hb.checksum_eq hv
    obtain ⟨rs, w', hw'⟩ := inMinor_known hs hv w
    exact .completed (fun h => h ⟨v, hv⟩) (congrArg Prod.fst hw')

theorem inHistory_failsOn (hs : s.Reliable) (hb : s.history.Built) {c : String}
    (hends : s.history.Ends c) (w : World ρ) :
    FailsOn (¬s.history.Knows c) (.history (.unknownVersion c)) (inHistory s c) w := by
  cases hv : s.history.version c with
  | error e =>
    obtain rfl := History.eq_unknownVersion hv
    exact .failed (History.not_knows_of_error hv) (inHistory_unknown hs hv w)
  | ok v =>
    obtain ⟨vs, hchain⟩ := hends v hv
    obtain ⟨es, hes⟩ := inEach_known hs (hchain.version_eq hb (hb.version_self hv)) w
    rw [← inHistory_known hs hb hv hchain] at hes
    exact .completed (fun h => h ⟨v, hv⟩) hes

/-- **A check fails if and only if its version was never committed.** So does the check of
every version from one on back. Either fails by saying that the version is unknown, with
nothing changed and nobody asked, whatever the store and the cache hold, and whatever the
runner registers or returns. -/
theorem checks_fail_on_unknown (hs : s.Reliable) {commits : List Version}
    (hh : s.history = .ofCommits commits) (hends : ∀ start, s.history.Ends start) (c : String)
    (w : World ρ) :
    FailsOn (c ∉ commits.map (·.checksum)) (.history (.unknownVersion c)) (inMinor s c) w ∧
      FailsOn (c ∉ commits.map (·.checksum)) (.history (.unknownVersion c)) (inHistory s c) w := by
  have hb : s.history.Built := hh ▸ History.built_ofCommits commits
  have hknows : (¬s.history.Knows c) = (c ∉ commits.map (·.checksum)) := by
    rw [hh, History.knows_ofCommits]
  rw [← hknows]
  exact ⟨inMinor_failsOn hs hb c w, inHistory_failsOn hs hb (hends c) w⟩

/-- The walk goes through a collection that is given up; a version that was never committed
is refused. -/
theorem checks_fail_on_unknown_trial :
    let commits := [Trial.oldest, Trial.middle, Trial.newest]
    let w := Trial.world (.abort .cancelled)
    (Trial.setting.Reliable ∧ Trial.setting.history = .ofCommits commits ∧
        (∀ start, Trial.setting.history.Ends start) ∧ Skips Trial.setting Trial.middle w) ∧
      ("c" ∈ commits.map (·.checksum) ∧
        ∀ e, ((inHistory Trial.setting "c").perform w).1 ≠ .error e) ∧
      ("d" ∉ commits.map (·.checksum) ∧
        ∃ e, ((inHistory Trial.setting "d").perform w).1 = .error e) := by
  intro commits w
  have hh : Trial.setting.history = .ofCommits commits := rfl
  have hk : Skips Trial.setting Trial.middle w := by decide +kernel
  have hc : "c" ∈ commits.map (·.checksum) := by decide +kernel
  have hd : "d" ∉ commits.map (·.checksum) := by decide +kernel
  obtain ⟨-, hwalk, -⟩ := checks_fail_on_unknown Trial.reliable hh Trial.ends "c" w
  obtain ⟨-, hrefused, -⟩ := checks_fail_on_unknown Trial.reliable hh Trial.ends "d" w
  exact ⟨⟨Trial.reliable, hh, Trial.ends, hk⟩,
    ⟨hc, fun e he => hwalk.mp ⟨e, he⟩ hc⟩, hd, hrefused.mpr hd⟩

end PerfDrift.Check
