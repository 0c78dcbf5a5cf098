import Mathlib.Data.List.Forall2
import Mathlib.Data.List.Nodup
import PerfDrift.Document.Decode
import PerfDrift.Proofs.Outcome

/-! Lists and records decoded.

A list is decoded item by item. A record is decoded exactly if it can be read through
(`Legible`: its members have names, no field occurs twice and what nobody asks for is complete)
and every field is read, from its member or by its default (`decodesBy_asRecord`). -/
namespace PerfDrift.Document

/-! ### Lists -/

/-- An item may be exchanged for one of which the same holds. -/
theorem forall₂_exchange {α β : Type} {R : α → β → Prop} {a a' : α} {before after : List α}
    {bs : List β} (ha : ∀ b, R a b → R a' b) (h : List.Forall₂ R (before ++ a :: after) bs) :
    List.Forall₂ R (before ++ a' :: after) bs := by
  induction before generalizing bs with
  | nil =>
    rw [List.nil_append, List.forall₂_cons_left_iff] at h ⊢
    obtain ⟨b, bs', hb, hrest, rfl⟩ := h
    exact ⟨b, bs', ha b hb, hrest, rfl⟩
  | cons c before ih =>
    rw [List.cons_append, List.forall₂_cons_left_iff] at h ⊢
    obtain ⟨b, bs', hb, hrest, rfl⟩ := h
    exact ⟨b, bs', hb, ih hrest, rfl⟩

section Lists
variable {α : Type} {decode : Decoder α} {ds before after : List Document} {item item' : Document}
  {ending : Ending} {xs : List α}

theorem decodeItems_eq_ok_iff :
    decodeItems decode ds = .ok xs ↔ List.Forall₂ (fun d x => decode d = .ok x) ds xs := by
  induction ds generalizing xs with
  | nil =>
    rw [decodeItems, List.forall₂_nil_left_iff]
    exact ⟨fun h => (Except.ok.inj h).symm, fun h => h ▸ rfl⟩
  | cons d ds ih =>
    rw [decodeItems, List.forall₂_cons_left_iff]
    simp only [bind_eq_ok, ih]
    constructor
    · rintro ⟨x, hx, xs', hxs, ⟨⟩⟩
      exact ⟨x, xs', hx, hxs, rfl⟩
    · rintro ⟨x, xs', hx, hxs, rfl⟩
      exact ⟨x, hx, xs', hxs, rfl⟩

theorem asList_eq_ok_iff :
    asList decode (.list ds ending) = .ok xs ↔
      ending = .closed ∧ List.Forall₂ (fun d x => decode d = .ok x) ds xs := by
  unfold asList
  simp only [bind_eq_ok, decodeItems_eq_ok_iff]
  constructor
  · rintro ⟨xs', hxs, _, hfinish, ⟨⟩⟩
    cases ending with
    | closed => exact ⟨rfl, hxs⟩
    | cut => cases hfinish
  · rintro ⟨rfl, hxs⟩
    exact ⟨xs, hxs, (), rfl, rfl⟩

/-- Values that are decoded from their documents are decoded from the list of these. -/
theorem asList_map {encode : α → Document} (h : ∀ x ∈ xs, decode (encode x) = .ok x) :
    asList decode (.ofList (xs.map encode)) = .ok xs :=
  asList_eq_ok_iff.mpr ⟨rfl, List.forall₂_map_left_iff.mpr (List.forall₂_same.mpr h)⟩

/-- An item may be exchanged for one that is decoded alike. -/
theorem asList_exchange (he : ∀ x, decode item = .ok x → decode item' = .ok x)
    (h : asList decode (.ofList (before ++ item :: after)) = .ok xs) :
    asList decode (.ofList (before ++ item' :: after)) = .ok xs := by
  rw [Document.ofList, asList_eq_ok_iff] at h ⊢
  exact ⟨rfl, forall₂_exchange he h.2⟩

/-- A list with an item that is not decoded is not decoded. -/
theorem asList_ne_ok (hitem : item ∈ ds) (he : ∀ x, decode item ≠ .ok x) :
    asList decode (.list ds ending) ≠ .ok xs := by
  intro h
  obtain ⟨i, hi, rfl⟩ := List.mem_iff_getElem.mp hitem
  obtain ⟨hlength, hget⟩ := List.forall₂_iff_get.mp (asList_eq_ok_iff.mp h).2
  exact he _ (hget i hi (hlength ▸ hi))

end Lists
/-! ### Members -/

/-- The names among the known ones that members have, in their order. -/
def knownNames (known : List String) (ms : List (Name × Document)) : List Name :=
  (ms.map (·.1)).filter (· ∈ known.map Name.text)

/-- The members can be read through, whatever the values of the known ones are. -/
structure Legible (known : List String) (ms : List (Name × Document)) : Prop where
  texts : ∀ m ∈ ms, m.1 ≠ .unpaired
  complete : ∀ name d, (Name.text name, d) ∈ ms → name ∉ known → d.isComplete
  once : (knownNames known ms).Nodup

section Members
variable {known : List String} {name : String} {d : Document} {ms : List (Name × Document)}

theorem mem_knownNames {n : Name} :
    n ∈ knownNames known ms ↔ n ∈ ms.map (·.1) ∧ ∃ name ∈ known, Name.text name = n := by
  simp [knownNames]

theorem knownNames_cons_of_mem (h : name ∈ known) :
    knownNames known ((.text name, d) :: ms) = .text name :: knownNames known ms := by
  rw [knownNames, List.map_cons, List.filter_cons_of_pos (by simpa using h), knownNames]

theorem knownNames_cons_of_not_mem (h : name ∉ known) :
    knownNames known ((.text name, d) :: ms) = knownNames known ms := by
  rw [knownNames, List.map_cons, List.filter_cons_of_neg (by simpa using h), knownNames]

/-- Where a field is met at most once, its value is that of any member of its name. -/
theorem memberNamed_eq_some_iff (h : (knownNames known ms).Nodup) (hname : name ∈ known) :
    memberNamed ms name = some d ↔ (Name.text name, d) ∈ ms := by
  have hknown : Name.text name ∈ known.map Name.text := List.mem_map_of_mem hname
  induction ms with
  | nil => simp [memberNamed]
  | cons m ms ih =>
    obtain ⟨n, d'⟩ := m
    by_cases hn : n = .text name
    · subst hn
      rw [knownNames_cons_of_mem hname, List.nodup_cons] at h
      have hnot : ∀ d'', (Name.text name, d'') ∉ ms := fun d'' hm =>
        h.1 (mem_knownNames.mpr ⟨List.mem_map.mpr ⟨_, hm, rfl⟩, name, hname, rfl⟩)
      simp [memberNamed, hnot, eq_comm]
    · have hrest : (knownNames known ms).Nodup :=
        h.sublist (((List.sublist_cons_self (n, d') ms).map Prod.fst).filter _)
      have hbeq : (Name.text name == n) = false := beq_eq_false_iff_ne.mpr (Ne.symm hn)
      have hne : (Name.text name, d) ≠ (n, d') := fun he => hn (congrArg Prod.fst he).symm
      rw [List.mem_cons, or_iff_right hne, memberNamed, List.lookup_cons, hbeq]
      exact ih hrest

theorem memberNamed_eq_none_iff :
    memberNamed ms name = none ↔ ∀ d, (Name.text name, d) ∉ ms := by
  rw [memberNamed, List.lookup_eq_none_iff]
  simp only [Prod.forall, bne_iff_ne]
  exact ⟨fun h d hm => h _ d hm rfl, fun h n d hm he => h d (he ▸ hm)⟩

theorem ofMembers_eq (ms : List (String × Document)) :
    ofMembers ms = .record (ms.map (Prod.map .text id)) .closed := rfl

/-- Members without repetition, complete where no field asks for them. -/
theorem legible_of_nodup {ms : List (String × Document)}
    (hcomplete : ∀ m ∈ ms, m.1 ∉ known → m.2.isComplete) (honce : (ms.map (·.1)).Nodup) :
    Legible known (ms.map (Prod.map .text id)) := by
  refine ⟨fun m hm => ?_, fun name d hm hname => ?_, ?_⟩
  · obtain ⟨m', -, rfl⟩ := List.mem_map.mp hm
    exact Name.noConfusion
  · obtain ⟨m', hm', he⟩ := List.mem_map.mp hm
    obtain ⟨hname', rfl⟩ := Prod.mk.inj he
    exact hcomplete m' hm' (Name.text.inj hname' ▸ hname)
  · have hmap : (ms.map (Prod.map Name.text id)).map (·.1) = (ms.map (·.1)).map Name.text := by
      simp
    rw [knownNames, hmap]
    exact (honce.map fun a b he => Name.text.inj he).filter _

/-- Members that fields ask for, in the order of the fields. -/
theorem legible_ofMembers {ms : List (String × Document)}
    (hnames : (ms.map (·.1)).Sublist known) (honce : known.Nodup) :
    Legible known (ms.map (Prod.map .text id)) := by
  refine legible_of_nodup (fun m hm hname => ?_) (honce.sublist hnames)
  exact absurd (hnames.subset (List.mem_map_of_mem hm)) hname

theorem memberNamed_ofMembers (ms : List (String × Document)) (name : String) :
    memberNamed (ms.map (Prod.map .text id)) name = ms.lookup name := by
  induction ms with
  | nil => rfl
  | cons m ms ih =>
    obtain ⟨s, d⟩ := m
    have hbeq : (Name.text name == Name.text s) = (name == s) := by
      rw [Bool.eq_iff_iff, beq_iff_eq, beq_iff_eq, Name.text.injEq]
    rw [memberNamed] at ih ⊢
    rw [List.map_cons, Prod.map_apply, List.lookup_cons, List.lookup_cons, hbeq, ih]
    rfl

end Members

/-! ### The walk -/

/-- A member that a walk passes: a value that its field can take, or a complete one that no
field asks for. -/
def Passes (fields : List Field) : Name × Document → Prop
  | (.unpaired, _) => False
  | (.text name, d) =>
    match fields.find? (·.name = name) with
    | some field => field.check d = .ok ()
    | none => d.isComplete

section Walk
variable {fields : List Field} {seen : List String} {name : String} {d : Document}
  {ms : List (Name × Document)}

theorem walkMembers_field {field : Field} (h : fields.find? (·.name = name) = some field) :
    walkMembers fields seen ((.text name, d) :: ms) = .ok () ↔
      field.check d = .ok () ∧ name ∉ seen ∧ walkMembers fields (name :: seen) ms = .ok () := by
  rw [walkMembers, h]
  by_cases hseen : name ∈ seen
  · simp [hseen]
  · cases hcheck : field.check d with
    | error e => simp [hseen, hcheck]
    | ok u => simp [hseen, hcheck]

theorem walkMembers_other (h : fields.find? (·.name = name) = none) :
    walkMembers fields seen ((.text name, d) :: ms) = .ok () ↔
      d.isComplete ∧ walkMembers fields seen ms = .ok () := by
  rw [walkMembers, h]
  cases hd : d.isComplete <;> simp

/-- A walk comes to its end if it passes every member and meets no field that it has met. -/
theorem walkMembers_eq_ok_iff :
    walkMembers fields seen ms = .ok () ↔
      (∀ m ∈ ms, Passes fields m) ∧ (knownNames (fields.map (·.name)) ms).Nodup ∧
        ∀ name ∈ seen, Name.text name ∉ knownNames (fields.map (·.name)) ms := by
  induction ms generalizing seen with
  | nil => simp [walkMembers, knownNames]
  | cons m ms ih =>
    obtain ⟨name | _, d⟩ := m
    · rw [List.forall_mem_cons, Passes]
      cases hfind : fields.find? (·.name = name) with
      | none =>
        have hname : name ∉ fields.map (·.name) := by
          simpa [List.find?_eq_none] using hfind
        rw [walkMembers_other hfind, knownNames_cons_of_not_mem hname, ih, and_assoc]
      | some field =>
        have hname : name ∈ fields.map (·.name) := by
          have heq : field.name = name := by simpa using List.find?_some hfind
          exact heq ▸ List.mem_map_of_mem (List.mem_of_find?_eq_some hfind)
        rw [walkMembers_field hfind, knownNames_cons_of_mem hname, ih, and_assoc]
        simp only [List.nodup_cons, List.mem_cons, not_or, Name.text.injEq]
        refine and_congr_right fun _ => ?_
        constructor
        · rintro ⟨hseen, hp, hn, hnot⟩
          exact ⟨hp, ⟨hnot name (.inl rfl), hn⟩,
            fun n hm => ⟨fun he => hseen (he ▸ hm), hnot n (.inr hm)⟩⟩
        · rintro ⟨hp, ⟨hnot, hn⟩, hrest⟩
          refine ⟨fun hm => (hrest name hm).1 rfl, hp, hn, fun n hm => ?_⟩
          rcases hm with rfl | hm
          · exact hnot
          · exact (hrest n hm).2
    · simp [walkMembers, Passes]

end Walk

/-! ### Reading the fields -/

/-- A field of a type: how its value is read, from its document where it is there and else by
its default, and which part of the whole it is. -/
structure Slot (α : Type) where
  name : String
  Value : Type
  decode : Decoder Value
  default : Option Value
  part : α → Value

namespace Slot
variable {α : Type}

/-- The slot of a field that has to be there. -/
def mandatory {β : Type} (name : String) (decode : Decoder β) (part : α → β) : Slot α :=
  ⟨name, β, decode, none, part⟩

/-- The slot of a field that has a default. -/
def defaulted {β : Type} (name : String) (decode : Decoder β) (default : β) (part : α → β) :
    Slot α :=
  ⟨name, β, decode, some default, part⟩

def read (s : Slot α) : Option Document → Except DecodeError s.Value
  | some d => s.decode d
  | none =>
    match s.default with
    | some v => .ok v
    | none => .error (.missingField s.name)

def check (s : Slot α) (d : Document) : Except DecodeError Unit := (fun _ => ()) <$> s.decode d

theorem check_eq_ok_iff {s : Slot α} {d : Document} :
    s.check d = .ok () ↔ ∃ v, s.decode d = .ok v := by
  unfold check
  cases s.decode d <;> simp

/-- What is found under the slots of a type makes up a value. -/
def Fill (slots : List (Slot α)) (l : Lookup) (x : α) : Prop :=
  ∀ s ∈ slots, s.read (l s.name) = .ok (s.part x)

end Slot

section Fill
variable {α β : Type} {l : Lookup} {x : α} {name : String} {d : Document} {decode : Decoder β}
  {default : β} {part : α → β} {slots : List (Slot α)}

theorem Lookup.get_of_some (h : l name = some d) : l.get name decode = decode d := by
  rw [Lookup.get, h]

theorem Lookup.getD_of_some (h : l name = some d) : l.getD name decode default = decode d := by
  rw [Lookup.getD, h]

theorem Slot.fill_nil : Slot.Fill [] l x ↔ True := by simp [Slot.Fill]

theorem Slot.fill_mandatory :
    Slot.Fill (.mandatory name decode part :: slots) l x ↔
      l.get name decode = .ok (part x) ∧ Slot.Fill slots l x := by
  have hread : (Slot.mandatory name decode part).read (l name) = l.get name decode := by
    unfold Lookup.get Slot.read
    cases l name <;> rfl
  rw [Slot.Fill, List.forall_mem_cons, ← hread]
  rfl

theorem Slot.fill_defaulted :
    Slot.Fill (.defaulted name decode default part :: slots) l x ↔
      l.getD name decode default = .ok (part x) ∧ Slot.Fill slots l x := by
  have hread : (Slot.defaulted name decode default part).read (l name) =
      l.getD name decode default := by
    unfold Lookup.getD Slot.read
    cases l name <;> rfl
  rw [Slot.Fill, List.forall_mem_cons, ← hread]
  rfl

end Fill

/-- The decoder takes the records that can be read through and fill the slots. -/
def DecodesBy {α : Type} (decode : Decoder α) (slots : List (Slot α)) : Prop :=
  ∀ ms ending x, decode (.record ms ending) = .ok x ↔
    ending = .closed ∧ Legible (slots.map (·.name)) ms ∧ Slot.Fill slots (memberNamed ms) x

/-- A decoder of records goes by some slots if its fields check what they decode and what it
builds is what fills them. -/
theorem decodesBy_asRecord {α : Type} {title : String} {fields : List Field}
    {slots : List (Slot α)} {build : Lookup → Except DecodeError α}
    (hchecks : fields.map (fun f => (f.name, f.check)) = slots.map fun s => (s.name, s.check))
    (hbuild : ∀ l x, build l = .ok x ↔ Slot.Fill slots l x) :
    DecodesBy (asRecord title fields build) slots := by
  intro ms ending x
  have hnames : fields.map (·.name) = slots.map (·.name) := by
    simpa [List.map_map, Function.comp_def] using congrArg (List.map Prod.fst) hchecks
  have hwalk : asRecord title fields build (.record ms ending) = .ok x ↔
      walkMembers fields [] ms = .ok () ∧ ending = .closed ∧ build (memberNamed ms) = .ok x := by
    unfold asRecord
    simp only [bind_eq_ok]
    constructor
    · rintro ⟨_, hwalk, _, hfinish, hbuild⟩
      cases ending with
      | closed => exact ⟨hwalk, rfl, hbuild⟩
      | cut => cases hfinish
    · rintro ⟨hwalk, rfl, hbuild⟩
      exact ⟨(), hwalk, (), rfl, hbuild⟩
  rw [hwalk, walkMembers_eq_ok_iff, hnames, hbuild]
  constructor
  · rintro ⟨⟨hpasses, honce, -⟩, hclosed, hfill⟩
    refine ⟨hclosed, ⟨fun m hm he => ?_, fun name d hm hname => ?_, honce⟩, hfill⟩
    · obtain ⟨n, d⟩ := m
      obtain rfl : n = .unpaired := he
      exact hpasses _ hm
    · have hfind : fields.find? (·.name = name) = none := by
        rw [← hnames] at hname
        simpa [List.find?_eq_none] using hname
      simpa only [Passes, hfind] using hpasses _ hm
  · rintro ⟨hclosed, hlegible, hfill⟩
    refine ⟨⟨fun m hm => ?_, hlegible.once, by simp⟩, hclosed, hfill⟩
    obtain ⟨name | _, d⟩ := m
    · rw [Passes]
      cases hfind : fields.find? (·.name = name) with
      | none =>
        have hname : name ∉ slots.map (·.name) := by
          rw [← hnames]
          simpa [List.find?_eq_none] using hfind
        exact hlegible.complete name d hm hname
      | some f =>
        -- the slots check what the fields check, and the one of this name has been filled
        have hname : f.name = name := by simpa using List.find?_some hfind
        have hmem : (f.name, f.check) ∈ slots.map fun s => (s.name, s.check) :=
          hchecks ▸ List.mem_map_of_mem (List.mem_of_find?_eq_some hfind)
        obtain ⟨s, hs, he⟩ := List.mem_map.mp hmem
        obtain ⟨hsname, hcheck⟩ := Prod.mk.inj he
        obtain rfl : s.name = name := hsname.trans hname
        have hread := hfill s hs
        rw [(memberNamed_eq_some_iff hlegible.once (List.mem_map_of_mem hs)).mpr hm] at hread
        exact (congrFun hcheck.symm d).trans (Slot.check_eq_ok_iff.mpr ⟨_, hread⟩)
    · exact absurd rfl (hlegible.texts _ hm)

end PerfDrift.Document
