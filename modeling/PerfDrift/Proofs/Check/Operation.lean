import PerfDrift.Proofs.Check.Perform
import PerfDrift.Proofs.History.Walk

/-! Operations in sequence.

Whoever uses checks asks for one operation after the other, and an operation that fails does
not keep the next one from being made. `Operation.action` is what the library does;
`Operation.actionBy` does the same with a check of single versions of one's own, so that
another way of checking, such as `inMinorCold`, can be put in its place. -/
namespace PerfDrift.Check
open Check.Action
variable {ρ : Type}

/-- What can be asked for. -/
inductive Operation where
  /-- A version to be checked. -/
  | minor (checksum : String)
  /-- Every version from one on back to be checked. -/
  | history (start : String)
  /-- The head to be checked. -/
  | head
  /-- Two profiles to be compared, for the records of a version. -/
  | profiles (baseline target : StoredProfile Float) (version : String) (selection : Selection)
  /-- The cache to be emptied. -/
  | forget

/-- What an operation gives. -/
inductive Reply where
  | records (rs : List (Record Float))
  | entries (es : List (Entry Float))
  | done

namespace Operation

def action (s : Setting ρ) : Operation → Action ρ Reply
  | minor checksum => do
    let rs ← inMinor s checksum
    pure (.records rs)
  | history start => do
    let es ← inHistory s start
    pure (.entries es)
  | head => do
    let rs ← inHead s
    pure (.records rs)
  | profiles baseline target version selection => do
    let rs ← checkProfiles s baseline target version selection
    pure (.records rs)
  | forget => do
    Check.forget
    pure .done

end Operation

/-! ### Checks of single versions as a part -/

section By
variable (check : String → Action ρ (List (Record Float)))

/-- Checks the versions of a walk one after the other. -/
def inEachBy : List Version → Action ρ (List (Entry Float))
  | [] => pure []
  | v :: rest => do
    note (.visit v.checksum)
    let records ← check v.checksum
    let entries ← inEachBy rest
    pure (records.map (fun r => ⟨v.checksum, r⟩) ++ entries)

def Operation.actionBy (s : Setting ρ) : Operation → Action ρ Reply
  | .minor checksum => do
    let rs ← check checksum
    pure (.records rs)
  | .history start => do
    let versions ← walk s start
    let es ← inEachBy check versions
    pure (.entries es)
  | .head => do
    let checksum ← Check.head s
    let rs ← check checksum
    pure (.records rs)
  | .profiles baseline target version selection => do
    let rs ← checkProfiles s baseline target version selection
    pure (.records rs)
  | .forget => do
    Check.forget
    pure .done

end By

theorem inEach_eq (s : Setting ρ) (vs : List Version) : inEach s vs = inEachBy (inMinor s) vs := by
  induction vs with
  | nil => rfl
  | cons v rest ih => rw [inEach, inEachBy, ih]

theorem Operation.action_eq (s : Setting ρ) (op : Operation) :
    op.action s = op.actionBy (inMinor s) s := by
  cases op with
  | history start => simp only [action, actionBy, inHistory, bind_assoc, inEach_eq]
  | head => simp only [action, actionBy, inHead, bind_assoc]
  | _ => rfl

/-! ### Walks step by step -/

/-- The entries of a walk begin with the records of its first check. -/
theorem inEach_cons_perform {s : Setting ρ} {v : Version} {w w' : World ρ}
    {rs : List (Record Float)}
    (h : (inMinor s v.checksum).perform (w.asked (.visit v.checksum)) = (.ok rs, w'))
    (vs : List Version) :
    (inEach s (v :: vs)).perform w =
      (((inEach s vs).perform w').1.map (rs.map (fun r => ⟨v.checksum, r⟩) ++ ·),
        ((inEach s vs).perform w').2) := by
  rw [inEach, perform_bind_ok (note_perform ..), perform_bind_ok h]
  rcases he : (inEach s vs).perform w' with ⟨_ | es, w''⟩
  · rw [perform_bind_error he]
    rfl
  · rw [perform_bind_ok he, perform_pure]
    rfl

section History
variable {s : Setting ρ} {start : String}

theorem inHistory_unknown (hs : s.Reliable) {e : HistoryError}
    (hv : s.history.version start = .error e) (w : World ρ) :
    (inHistory s start).perform w = (.error (.history e), w) := by
  rw [inHistory, perform_bind_error (walk_perform_error hs (History.walk_eq_error hv) w)]

theorem inHistory_known (hs : s.Reliable) (hb : s.history.Built) {v : Version}
    (hv : s.history.version start = .ok v) {vs : List Version} (hc : s.history.Chain v vs)
    (w : World ρ) : (inHistory s start).perform w = (inEach s vs).perform w := by
  rw [inHistory, perform_bind_ok (walk_perform hs (hc.walk_eq hb hv) w)]

end History

/-- Checks a version with an empty cache. -/
def inMinorCold (s : Setting ρ) (checksum : String) : Action ρ (List (Record Float)) := do
  forget
  inMinor s checksum

theorem inMinorCold_perform (s : Setting ρ) (checksum : String) (w : World ρ) :
    (inMinorCold s checksum).perform w = (inMinor s checksum).perform {w with cache := .empty} := by
  rw [inMinorCold, perform_bind_ok (forget_perform w)]

/-! ### Sequences -/

/-- The replies to a sequence of requests, and the world after it. -/
def runs {κ : Type} (act : κ → Action ρ Reply) :
    List κ → World ρ → List (Except Failure Reply) × World ρ
  | [], w => ([], w)
  | k :: rest, w =>
    let first := (act k).perform w
    let others := runs act rest first.2
    (first.1 :: others.1, others.2)

/-! ### A history to try things on -/

namespace Trial

def newest : Version := {checksum := "c", parents := ["b"]}

def middle : Version := {checksum := "b", parents := ["a"]}

def oldest : Version := {checksum := "a"}

/-- A profile with one measurement. -/
def timed (version : String) (amount : Float) : StoredProfile Float :=
  ⟨version ++ "/time.json",
    {origin := version, collector := "time", command := "ls",
      resources := [{location := "main", amount}]}⟩

/-- Three versions, compared with all ancestors; missing profiles are collected. -/
def setting : Setting (KeyMap Outcome) where
  history := .linear ["a", "b", "c"]
  faults := .none
  runner := .scripted
  config := {policy := .all, collects := true, rules := [{method := .averageAmount}]}

/-- The newest and the oldest version have profiles; the one between waits for `outcome`. -/
def world (outcome : Outcome) : World (KeyMap Outcome) where
  store := (Store.empty.addProfile "a" (timed "a" 100)).addProfile "c" (timed "c" 80)
  cache := .empty
  runner := KeyMap.empty.insert "b" outcome
  requests := []

theorem reliable : setting.Reliable := rfl

theorem built : setting.history.Built := History.built_linear _

theorem chain_middle : setting.history.Chain middle [middle, oldest] :=
  .step (p := oldest) (by decide +kernel) (.last (by decide +kernel))

theorem chain_newest : setting.history.Chain newest [newest, middle, oldest] :=
  .step (p := middle) (by decide +kernel) chain_middle

theorem ends (start : String) : setting.history.Ends start := by
  intro v hv
  have hentries : setting.history.versions.entries =
      [("a", oldest), ("b", middle), ("c", newest)] := by decide +kernel
  obtain ⟨e, he, rfl⟩ := Option.map_eq_some_iff.mp (History.version_eq_ok_iff.mp hv)
  have hmem := List.mem_of_find?_eq_some he
  rw [hentries] at hmem
  simp only [List.mem_cons, List.not_mem_nil, or_false] at hmem
  rcases hmem with rfl | rfl | rfl
  · exact ⟨_, .last (by decide +kernel)⟩
  · exact ⟨_, chain_middle⟩
  · exact ⟨_, chain_newest⟩

end Trial

end PerfDrift.Check
