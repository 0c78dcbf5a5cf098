import PerfDrift.CommandLine.Session
import PerfDrift.Proofs.Detection.Bounds
import PerfDrift.Proofs.Finding.Document

/-! What a comparison prints is what it found.

The numbers of findings are finite, so the findings are decoded from the document that is
printed for them, and from its text as far as the texts of their numbers are read back
(`Detection.compare?_survives`). -/
namespace PerfDrift
open Document

/-- A value is decoded from its document, and from every text of that if the texts of its numbers
are read back. -/
def Survives {α : Type} (decode : Decoder α) (encode : α → Document) (numbers : α → List Float)
    (x : α) : Prop :=
  decode (encode x) = .ok x ∧
    ((∀ y ∈ numbers x, Json.Carries (.real y)) → ∀ spaces : String,
      (∀ c ∈ spaces.toList, Json.isSpace c) →
        Json.decode decode (Json.indented (encode x) ++ spaces) = .ok x)

theorem survives_of_writable {α : Type} {decode : Decoder α} {encode : α → Document}
    {numbers : α → List Float} {x : α} (hdecode : decode (encode x) = .ok x)
    (hwritable : (∀ y ∈ numbers x, Json.Carries (.real y)) → Json.Writable (encode x)) :
    Survives decode encode numbers x :=
  ⟨hdecode, fun hcarries _ hspaces =>
    Json.decode_indented (hwritable hcarries) hspaces hdecode⟩

theorem Finding.survives {f : Finding Float} (h : f.IsFinite) :
    Survives decode encode numbers f :=
  survives_of_writable (decode_encode h) (writable_encode h)

theorem Record.survives {r : Record Float} (h : r.finding.IsFinite) :
    Survives decode encode (·.finding.numbers) r :=
  survives_of_writable (decode_encode h) (writable_encode h)

theorem Entry.survives {e : Entry Float} (h : e.record.finding.IsFinite) :
    Survives decode encode (·.record.finding.numbers) e :=
  survives_of_writable (decode_encode h) (writable_encode h)

/-- The document of several findings. -/
def Finding.encodeAll (fs : List (Finding Float)) : Document := .ofList (fs.map Finding.encode)

theorem Finding.survives_all {fs : List (Finding Float)} (h : ∀ f ∈ fs, f.IsFinite) :
    Survives (asList decode) encodeAll (·.flatMap numbers) fs := by
  refine survives_of_writable (asList_map fun f hf => decode_encode (h f hf)) fun hcarries => ?_
  refine .list fun d hd => ?_
  obtain ⟨f, hf, rfl⟩ := List.mem_map.mp hd
  exact writable_encode (h f hf) fun x hx => hcarries x (List.mem_flatMap.mpr ⟨f, hf, hx⟩)

theorem Finding.InRange.isFinite {f : Finding Float} (h : f.InRange) : f.IsFinite := by
  intro x hx
  rcases List.mem_append.mp hx with hx | hx
  · exact h.rate x (Option.mem_toList.mp hx)
  · obtain ⟨hzero, hone⟩ := h.confidence x (Option.mem_toList.mp hx)
    exact isFinite_of_mem_unit hzero hone

namespace Detection

/-- What is found survives, with every number that it has, and so does whatever is finite. -/
theorem compare?_survives :
    (∀ (t : Thresholds Float) (baseline target : Profile Float) (selection : Selection),
      baseline.IsFinite → target.IsFinite → baseline.Compatible target →
        ∃ fs, compare? t baseline target selection = some fs ∧
          (∀ f ∈ fs, f.InRange ∧ f.KeepsNumbers) ∧
          Survives (asList Finding.decode) Finding.encodeAll (·.flatMap Finding.numbers) fs ∧
          ((∀ f ∈ fs, ∀ x ∈ f.numbers, Json.Carries (.real x)) →
            Json.decode (asList Finding.decode) (CommandLine.Format.json.print fs) = .ok fs)) ∧
      (∀ f : Finding Float, f.IsFinite →
        f.KeepsNumbers ∧ Survives Finding.decode Finding.encode Finding.numbers f) ∧
      (∀ r : Record Float, r.finding.IsFinite →
        Survives Record.decode Record.encode (·.finding.numbers) r) ∧
      ∀ e : Entry Float, e.record.finding.IsFinite →
        Survives Entry.decode Entry.encode (·.record.finding.numbers) e := by
  refine ⟨?_, fun f hf => ⟨Finding.keepsNumbers hf, Finding.survives hf⟩,
    fun r hr => Record.survives hr, fun e he => Entry.survives he⟩
  intro t baseline target selection hbaseline htarget hcompatible
  have hrange : ∀ f ∈ runAll t baseline target selection.methods, f.InRange :=
    fun f hf => inRange_of_mem_runAll hbaseline htarget hf
  have hsurvives := Finding.survives_all fun f hf => (hrange f hf).isFinite
  refine ⟨_, if_pos hcompatible, fun f hf => ⟨hrange f hf, ?_⟩, hsurvives, fun hcarries => ?_⟩
  · exact Finding.keepsNumbers (hrange f hf).isFinite
  · refine hsurvives.2 (fun x hx => ?_) "\n" Json.isSpace_newline
    obtain ⟨f, hf, hx⟩ := List.mem_flatMap.mp hx
    exact hcarries f hf x hx

/-- Twice the amount is a rate of one, which is printed and read. -/
theorem compare?_survives_doubled :
    let baseline : Profile Float := ⟨"a", "time", [], "ls", [⟨"f", 1, 1⟩], []⟩
    let target : Profile Float := ⟨"b", "time", [], "ls", [⟨"f", 2, 1⟩], []⟩
    ∃ fs : List (Finding Float),
      compare? .standard baseline target (.only .averageAmount) = some fs ∧
        fs.map Finding.rate = [some 1] ∧
        Json.decode (asList Finding.decode) (CommandLine.Format.json.print fs) = .ok fs := by
  intro baseline target
  have hbaseline : baseline.IsFinite :=
    Profile.isFinite_of_resources rfl fun r hr => by rw [List.mem_singleton.mp hr]; rfl
  have htarget : target.IsFinite :=
    Profile.isFinite_of_resources rfl fun r hr => by rw [List.mem_singleton.mp hr]; rfl
  obtain ⟨fs, hfs, -, -, hprinted⟩ := compare?_survives.1 .standard baseline target
    (.only .averageAmount) hbaseline htarget (by decide)
  have hfound : compare? .standard baseline target (.only .averageAmount) =
      some [⟨"aat", "f", .degradation, some 1, .none, none, none, none⟩] := by decide +kernel
  obtain rfl := Option.some.inj (hfs.symm.trans hfound)
  refine ⟨_, hfound, rfl, hprinted ?_⟩
  simp [Finding.numbers, Json.carries_one]

end Detection
end PerfDrift
