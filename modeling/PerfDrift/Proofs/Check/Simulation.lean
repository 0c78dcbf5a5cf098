import PerfDrift.Proofs.Check.Operation

/-! Two runs side by side.

Two actions simulate each other under a relation of worlds when from related worlds they
come to the same result and to related worlds. That is kept by the ways in which actions are
put together, so for two whole sequences of operations it is enough to look at single checks
(`runs_simulates`). -/
namespace PerfDrift.Check
open Check.Action
variable {ρ σ α β : Type}

/-- The setting with another runner. -/
def Setting.withRunner (s : Setting ρ) (r : Runner σ) : Setting σ :=
  {history := s.history, faults := s.faults, runner := r, config := s.config}

/-- From related worlds the actions give the same result, and related worlds after it. -/
def Simulates (R : World ρ → World σ → Prop) (a : Action ρ α) (b : Action σ α) : Prop :=
  ∀ w w', R w w' → (a.perform w).1 = (b.perform w').1 ∧ R (a.perform w).2 (b.perform w').2

variable {R : World ρ → World σ → Prop}

theorem Simulates.pure (x : α) : Simulates R (Pure.pure x) (Pure.pure x) :=
  fun _ _ h => ⟨rfl, h⟩

theorem Simulates.bind {a : Action ρ α} {b : Action σ α} {f : α → Action ρ β}
    {g : α → Action σ β} (h : Simulates R a b) (hf : ∀ x, Simulates R (f x) (g x)) :
    Simulates R (a >>= f) (b >>= g) := by
  intro w w' hw
  obtain ⟨hresult, hworld⟩ := h w w' hw
  rcases ha : a.perform w with ⟨_ | x, w₁⟩ <;> rcases hb : b.perform w' with ⟨_ | y, w₁'⟩ <;>
    simp only [ha, hb, Except.ok.injEq, Except.error.injEq, reduceCtorEq] at hresult hworld
  · rw [perform_bind_error ha, perform_bind_error hb, hresult]
    exact ⟨rfl, hworld⟩
  · rw [perform_bind_ok ha, perform_bind_ok hb, hresult]
    exact hf y w₁ w₁' hworld

/-- What is refused for one reason is refused on both sides. -/
theorem Simulates.refuse {ε : Type} (wrap : ε → Failure) (e : Option ε) :
    Simulates R (Check.refuse wrap e) (Check.refuse wrap e) := by
  cases e <;> exact fun _ _ h => ⟨rfl, h⟩

/-- What is done with related worlds may look at them. -/
theorem Simulates.get_bind {f : World ρ → Action ρ α} {g : World σ → Action σ α}
    (h : ∀ w w', R w w' → Simulates R (f w) (g w')) :
    Simulates R (get >>= f) (get >>= g) := by
  intro w w' hw
  rw [perform_bind_ok (perform_get w), perform_bind_ok (perform_get w')]
  exact h w w' hw w w' hw

theorem Simulates.answer (x : Except HistoryError α) :
    Simulates R (Check.answer x) (Check.answer x) := by
  cases x <;> exact fun _ _ h => ⟨rfl, h⟩

/-! ### Operations -/

section Operations
variable {s : Setting ρ} {t : Setting σ} {check : String → Action ρ (List (Record Float))}
  {check' : String → Action σ (List (Record Float))}

theorem walk_simulates (hh : t.history = s.history) (hf : t.faults = s.faults) (start : String) :
    Simulates R (walk s start) (walk t start) := by
  rw [walk, walk, walkWithin, walkWithin, hh, hf]
  exact (Simulates.refuse _ _).bind fun _ => .answer _

theorem head_simulates (hh : t.history = s.history) (hf : t.faults = s.faults) :
    Simulates R (head s) (head t) := by
  rw [head, head, hh, hf]
  exact (Simulates.refuse _ _).bind fun _ => .answer _

theorem inEachBy_simulates
    (hnote : ∀ v, Simulates R (note (.visit v)) (note (.visit v))) {vs : List Version}
    (hcheck : ∀ v ∈ vs, Simulates R (check v.checksum) (check' v.checksum)) :
    Simulates R (inEachBy check vs) (inEachBy check' vs) := by
  induction vs with
  | nil => exact .pure _
  | cons v rest ih =>
    rw [inEachBy, inEachBy]
    obtain ⟨hfirst, hrest⟩ := List.forall_mem_cons.mp hcheck
    exact (hnote v.checksum).bind fun _ => hfirst.bind fun _ => (ih hrest).bind fun _ => .pure _

end Operations

/-- Two sequences of simulating requests. -/
theorem runs_simulates {κ : Type} {f : κ → Action ρ Reply} {g : κ → Action σ Reply}
    (h : ∀ k, Simulates R (f k) (g k)) (ks : List κ) {w : World ρ} {w' : World σ} (hw : R w w') :
    (runs f ks w).1 = (runs g ks w').1 ∧ R (runs f ks w).2 (runs g ks w').2 := by
  induction ks generalizing w w' with
  | nil => exact ⟨rfl, hw⟩
  | cons k rest ih =>
    obtain ⟨hresult, hworld⟩ := h k w w' hw
    obtain ⟨hresults, hworlds⟩ := ih hworld
    exact ⟨by rw [runs, runs, hresult, hresults], hworlds⟩

end PerfDrift.Check
