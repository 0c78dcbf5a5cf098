import Mathlib.Logic.Relation
import PerfDrift.Proofs.Document.Record

/-! Documents that say the same.

A document may be rearranged in ways that do not matter to its reader: the members of a record
change places, members are added that nobody asks for, fields are left out that have their
default value, at any depth (`Edit`). What was decoded from the document is decoded from the
edited one (`Shape.Describes.decode_edit`). A flaw does matter, at any depth as well
(`Flawed`): a document in which a field is missing, comes twice, or is null instead of left out
is not decoded (`Shape.Describes.not_flawed`). -/
namespace PerfDrift.Document

/-- The shape of a type of records, as its writers know it. -/
structure Shape where
  /-- The fields that have to be there. -/
  required : List String
  /-- The fields that may be left out, each with the value that it then has. -/
  defaults : List (String × Document)
  /-- The fields that list records, each with the shape of those. -/
  lists : List (String × Shape)

def Shape.names (shape : Shape) : List String := shape.required ++ shape.defaults.map (·.1)

/-- A change of a document that does not change what it says. -/
inductive Edit : Shape → Document → Document → Prop
  | permute {shape : Shape} {ms ms' : List (Name × Document)} (h : ms.Perm ms') :
    Edit shape (.record ms .closed) (.record ms' .closed)
  | add {shape : Shape} {name : String} {d : Document} (front back : List (Name × Document))
    (hname : name ∉ shape.names) (hd : d.isComplete) :
    Edit shape (.record (front ++ back) .closed)
      (.record (front ++ (.text name, d) :: back) .closed)
  | drop {shape : Shape} {name : String} {d : Document} (front back : List (Name × Document))
    (h : (name, d) ∈ shape.defaults) :
    Edit shape (.record (front ++ (.text name, d) :: back) .closed)
      (.record (front ++ back) .closed)
  | inside {shape inner : Shape} {name : String} {item item' : Document}
    (front back : List (Name × Document)) (before after : List Document)
    (h : (name, inner) ∈ shape.lists) (hitem : Edit inner item item') :
    Edit shape
      (.record (front ++ (.text name, .ofList (before ++ item :: after)) :: back) .closed)
      (.record (front ++ (.text name, .ofList (before ++ item' :: after)) :: back) .closed)

/-- A record that cannot be meant, or one that lists such a record. -/
inductive Flawed : Shape → Document → Prop
  | missing {shape : Shape} {ms : List (Name × Document)} {ending : Ending} {name : String}
    (hname : name ∈ shape.required) (h : Name.text name ∉ ms.map (·.1)) :
    Flawed shape (.record ms ending)
  | repeated {shape : Shape} {ending : Ending} {name : String} {d d' : Document}
    (front middle back : List (Name × Document)) (hname : name ∈ shape.names) :
    Flawed shape
      (.record (front ++ (.text name, d) :: (middle ++ (.text name, d') :: back)) ending)
  | null {shape : Shape} {ms : List (Name × Document)} {ending : Ending} {name : String}
    (hname : name ∈ shape.defaults.map (·.1)) (h : (Name.text name, .null) ∈ ms) :
    Flawed shape (.record ms ending)
  | inside {shape inner : Shape} {ms : List (Name × Document)} {items : List Document}
    {ending ending' : Ending} {name : String} {item : Document}
    (h : (name, inner) ∈ shape.lists) (hm : (Name.text name, .list items ending') ∈ ms)
    (hitem : item ∈ items) (hflaw : Flawed inner item) :
    Flawed shape (.record ms ending)

/-! ### Legible members -/

section Legible
variable {known : List String} {name : String} {d d' : Document}
  {ms ms' front back : List (Name × Document)}

theorem Legible.perm (h : Legible known ms) (hp : ms.Perm ms') : Legible known ms' where
  texts m hm := h.texts m (hp.mem_iff.mpr hm)
  complete name d hm := h.complete name d (hp.mem_iff.mpr hm)
  once := ((hp.map _).filter _).nodup_iff.mp h.once

theorem Legible.sublist (h : Legible known ms) (hs : ms'.Sublist ms) : Legible known ms' where
  texts m hm := h.texts m (hs.subset hm)
  complete name d hm := h.complete name d (hs.subset hm)
  once := h.once.sublist ((hs.map _).filter _)

theorem Legible.add (h : Legible known (front ++ back)) (hname : name ∉ known)
    (hd : d.isComplete) : Legible known (front ++ (.text name, d) :: back) := by
  suffices h : Legible known ((.text name, d) :: (front ++ back)) from h.perm List.perm_middle.symm
  constructor
  · intro m hm
    rcases List.mem_cons.mp hm with rfl | hm
    · simp
    · exact h.texts m hm
  · intro name' d' hm hname'
    rcases List.mem_cons.mp hm with he | hm
    · cases he
      exact hd
    · exact h.complete name' d' hm hname'
  · rw [knownNames_cons_of_not_mem hname]
    exact h.once

/-- A field that is met once is not met anywhere else. -/
theorem Legible.not_mem (h : Legible known (front ++ (.text name, d) :: back))
    (hname : name ∈ known) : (Name.text name, d') ∉ front ++ back := by
  have hperm : Legible known ((.text name, d) :: (front ++ back)) := h.perm List.perm_middle
  have honce := hperm.once
  rw [knownNames_cons_of_mem hname, List.nodup_cons] at honce
  exact fun hm => honce.1 (mem_knownNames.mpr ⟨List.mem_map.mpr ⟨_, hm, rfl⟩, name, hname, rfl⟩)

/-- The value of a field may be exchanged. -/
theorem Legible.exchange (h : Legible known (front ++ (.text name, d) :: back))
    (hname : name ∈ known) : Legible known (front ++ (.text name, d') :: back) := by
  suffices h : Legible known ((.text name, d') :: (front ++ back)) from
    h.perm List.perm_middle.symm
  have hperm : Legible known ((.text name, d) :: (front ++ back)) := h.perm List.perm_middle
  have hrest := h.sublist ((List.sublist_cons_self (Name.text name, d) back).append_left front)
  refine ⟨fun m hm => ?_, fun name' d' hm hname' => ?_, ?_⟩
  · rcases List.mem_cons.mp hm with rfl | hm
    · simp
    · exact hrest.texts m hm
  · rcases List.mem_cons.mp hm with he | hm
    · cases he
      exact absurd hname hname'
    · exact hrest.complete name' d' hm hname'
  · rw [knownNames_cons_of_mem hname, ← knownNames_cons_of_mem (d := d) hname]
    exact hperm.once

theorem memberNamed_of_ne {name' : String} (h : name' ≠ name) :
    memberNamed (front ++ (.text name, d) :: back) name' = memberNamed (front ++ back) name' := by
  have hbeq : (Name.text name' == Name.text name) = false := by simpa using h
  simp only [memberNamed, List.lookup_append, List.lookup_cons, hbeq]

theorem Legible.memberNamed_self (h : Legible known (front ++ (.text name, d) :: back))
    (hname : name ∈ known) : memberNamed (front ++ (.text name, d) :: back) name = some d :=
  (memberNamed_eq_some_iff h.once hname).mpr (by simp)

theorem Legible.memberNamed_perm (h : Legible known ms) (hp : ms.Perm ms') (hname : name ∈ known) :
    memberNamed ms' name = memberNamed ms name := by
  refine Option.ext fun d => ?_
  rw [memberNamed_eq_some_iff (h.perm hp).once hname, memberNamed_eq_some_iff h.once hname,
    hp.mem_iff]

end Legible

/-! ### Decoding edited documents -/

/-- The slot lists records of a shape: an edit of an item does not change what is decoded, and
nothing is decoded from a list with a flawed item. -/
structure Slot.Lists {α : Type} (s : Slot α) (inner : Shape) : Prop where
  edits : ∀ before after item item', Edit inner item item' → ∀ v,
    s.decode (.ofList (before ++ item :: after)) = .ok v →
      s.decode (.ofList (before ++ item' :: after)) = .ok v
  flaws : ∀ items ending, ∀ item ∈ items, Flawed inner item → ∀ v,
    s.decode (.list items ending) ≠ .ok v

/-- The shape is that of the slots: what may be left out has for its default what its document
in the shape is decoded to, and cannot be null. -/
structure Shape.Describes {α : Type} (shape : Shape) (slots : List (Slot α)) : Prop where
  names : ∀ name, name ∈ slots.map (·.name) ↔ name ∈ shape.names
  required : ∀ s ∈ slots, s.name ∈ shape.required → s.default = none
  defaults : ∀ s ∈ slots, ∀ d, (s.name, d) ∈ shape.defaults → ∀ v, s.decode d = .ok v →
    s.default = some v
  null : ∀ s ∈ slots, s.name ∈ shape.defaults.map (·.1) → ∀ v, s.decode .null ≠ .ok v
  listed : ∀ name inner, (name, inner) ∈ shape.lists → name ∈ shape.names
  lists : ∀ s ∈ slots, ∀ inner, (s.name, inner) ∈ shape.lists → s.Lists inner

namespace Shape.Describes
variable {α : Type} {shape : Shape} {slots : List (Slot α)} {decode : Decoder α}

/-- An edit does not change what is decoded. -/
theorem decode_edit (hs : shape.Describes slots) (hdecode : DecodesBy decode slots)
    {d d' : Document} (he : Edit shape d d') {x : α} (h : decode d = .ok x) :
    decode d' = .ok x := by
  have hknown : ∀ s ∈ slots, s.name ∈ slots.map (·.name) := fun s hs => List.mem_map_of_mem hs
  cases he with
  | permute hp =>
    obtain ⟨-, hlegible, hfill⟩ := (hdecode ..).mp h
    refine (hdecode ..).mpr ⟨rfl, hlegible.perm hp, fun s hs => ?_⟩
    rw [hlegible.memberNamed_perm hp (hknown s hs)]
    exact hfill s hs
  | @add _ name d front back hname hd =>
    obtain ⟨-, hlegible, hfill⟩ := (hdecode ..).mp h
    have hunknown : name ∉ slots.map (·.name) := mt (hs.names name).mp hname
    refine (hdecode ..).mpr ⟨rfl, hlegible.add hunknown hd, fun s hs => ?_⟩
    rw [memberNamed_of_ne (ne_of_mem_of_not_mem (hknown s hs) hunknown)]
    exact hfill s hs
  | @drop _ name d front back hdefault =>
    obtain ⟨-, hlegible, hfill⟩ := (hdecode ..).mp h
    have hrest := hlegible.sublist
      ((List.sublist_cons_self (Name.text name, d) back).append_left front)
    refine (hdecode ..).mpr ⟨rfl, hrest, fun s hmem => ?_⟩
    have hread := hfill s hmem
    by_cases hname : s.name = name
    · subst hname
      rw [hlegible.memberNamed_self (hknown s hmem)] at hread
      rw [memberNamed_eq_none_iff.mpr fun d' => hlegible.not_mem (hknown s hmem), Slot.read,
        hs.defaults s hmem d hdefault _ hread]
    · rw [memberNamed_of_ne hname] at hread
      exact hread
  | @inside _ inner name item item' front back before after hlist hitem =>
    obtain ⟨-, hlegible, hfill⟩ := (hdecode ..).mp h
    have hname := (hs.names name).mpr (hs.listed name inner hlist)
    have hexchange : Legible (slots.map (·.name))
        (front ++ (.text name, .ofList (before ++ item' :: after)) :: back) :=
      hlegible.exchange hname
    refine (hdecode ..).mpr ⟨rfl, hexchange, fun s hmem => ?_⟩
    have hread := hfill s hmem
    by_cases hsame : s.name = name
    · subst hsame
      rw [hlegible.memberNamed_self hname] at hread
      rw [hexchange.memberNamed_self hname]
      exact (hs.lists s hmem inner hlist).edits before after item item' hitem _ hread
    · rw [memberNamed_of_ne hsame] at hread ⊢
      exact hread

/-- Neither do several edits. -/
theorem decode_edits (hs : shape.Describes slots) (hdecode : DecodesBy decode slots)
    {d d' : Document} (he : Relation.ReflTransGen (Edit shape) d d') {x : α}
    (h : decode d = .ok x) : decode d' = .ok x := by
  induction he with
  | refl => exact h
  | tail _ hlast ih => exact hs.decode_edit hdecode hlast ih

/-- A document with a flaw is not decoded. -/
theorem not_flawed (hs : shape.Describes slots) (hdecode : DecodesBy decode slots)
    {d : Document} {x : α} (h : decode d = .ok x) : ¬Flawed shape d := by
  have hslot : ∀ name ∈ shape.names, ∃ s ∈ slots, s.name = name := fun name hname =>
    List.mem_map.mp ((hs.names name).mpr hname)
  intro hflaw
  cases hflaw with
  | @missing _ ms ending name hname hnot =>
    obtain ⟨-, -, hfill⟩ := (hdecode ..).mp h
    obtain ⟨s, hmem, rfl⟩ := hslot name (List.mem_append_left _ hname)
    have hnone : memberNamed ms s.name = none :=
      memberNamed_eq_none_iff.mpr fun d hm => hnot (List.mem_map.mpr ⟨_, hm, rfl⟩)
    have hread := hfill s hmem
    rw [hnone, Slot.read, hs.required s hmem hname] at hread
    cases hread
  | @repeated _ ending name d d' front middle back hname =>
    obtain ⟨-, hlegible, -⟩ := (hdecode ..).mp h
    have hagain : (Name.text name, d') ∈ front ++ (middle ++ (.text name, d') :: back) := by simp
    exact hlegible.not_mem ((hs.names name).mpr hname) hagain
  | @null _ ms ending name hname hm =>
    obtain ⟨-, hlegible, hfill⟩ := (hdecode ..).mp h
    obtain ⟨s, hmem, rfl⟩ := hslot name (List.mem_append_right _ hname)
    have hread := hfill s hmem
    rw [(memberNamed_eq_some_iff hlegible.once (List.mem_map_of_mem hmem)).mpr hm] at hread
    exact hs.null s hmem hname _ hread
  | @inside _ inner ms items ending ending' name item hlist hm hitem hflaw =>
    obtain ⟨-, hlegible, hfill⟩ := (hdecode ..).mp h
    obtain ⟨s, hmem, rfl⟩ := hslot name (hs.listed name inner hlist)
    have hread := hfill s hmem
    rw [(memberNamed_eq_some_iff hlegible.once (List.mem_map_of_mem hmem)).mpr hm] at hread
    exact (hs.lists s hmem inner hlist).flaws items ending' item hitem hflaw _ hread

theorem decode_flawed (hs : shape.Describes slots) (hdecode : DecodesBy decode slots)
    {d : Document} (hflaw : Flawed shape d) : ∃ e, decode d = .error e := by
  cases h : decode d with
  | error e => exact ⟨e, rfl⟩
  | ok x => exact absurd hflaw (hs.not_flawed hdecode h)

end Shape.Describes

/-- A field that lists records lists those of their shape. -/
theorem Slot.lists_defaulted {α β : Type} {name : String} {decode : Decoder β} {default : List β}
    {part : α → List β} {inner : Shape} {slots : List (Slot β)} (hs : inner.Describes slots)
    (hdecode : DecodesBy decode slots) :
    (Slot.defaulted name (asList decode) default part).Lists inner where
  edits _ _ _ _ he _ h := asList_exchange (fun _ => hs.decode_edit hdecode he) h
  flaws _ _ _ hitem hflaw _ h :=
    asList_ne_ok hitem (fun _ hx => hs.not_flawed hdecode hx hflaw) h

end PerfDrift.Document
