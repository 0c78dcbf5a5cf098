import PerfDrift.Finding.Basic
import PerfDrift.KeyMap
import PerfDrift.Profile.Basic

/-! What is kept of each version: its profiles and the records of its last check. -/
namespace PerfDrift

structure Store where
  profiles : KeyMap (List (StoredProfile Float))
  records : KeyMap (List (Record Float))

namespace Store

def empty : Store := ⟨.empty, .empty⟩

/-- The profiles of a version in the order they were added in. -/
def profilesOf (s : Store) (version : String) : List (StoredProfile Float) :=
  (s.profiles.get? version).getD []

/-- The records of a version. -/
def recordsOf (s : Store) (version : String) : List (Record Float) :=
  (s.records.get? version).getD []

def addProfile (s : Store) (version : String) (p : StoredProfile Float) : Store :=
  {s with profiles := s.profiles.alter version fun ps => ps.getD [] ++ [p]}

def addProfiles (s : Store) (version : String) (ps : List (StoredProfile Float)) : Store :=
  ps.foldl (·.addProfile version) s

/-- The store with the records of a version replaced. -/
def putRecords (s : Store) (version : String) (rs : List (Record Float)) : Store :=
  {s with records := s.records.insert version rs}

/-- The versions that have been checked. -/
def checkedVersions (s : Store) : List String := s.records.keys

/-! ### What changes and what does not -/

@[simp] theorem recordsOf_putRecords_self (s : Store) (v : String) (rs : List (Record Float)) :
    (s.putRecords v rs).recordsOf v = rs := by
  simp [recordsOf, putRecords]

theorem recordsOf_putRecords_of_ne (s : Store) {u v : String} (h : u ≠ v)
    (rs : List (Record Float)) : (s.putRecords v rs).recordsOf u = s.recordsOf u := by
  simp [recordsOf, putRecords, KeyMap.get?_insert_of_ne _ h]

theorem profilesOf_addProfiles_self (s : Store) (v : String)
    (ps : List (StoredProfile Float)) :
    (s.addProfiles v ps).profilesOf v = s.profilesOf v ++ ps := by
  induction ps generalizing s with
  | nil => simp [addProfiles]
  | cons p rest ih =>
    have hp : (s.addProfile v p).profilesOf v = s.profilesOf v ++ [p] := by
      simp [profilesOf, addProfile, KeyMap.alter]
    rw [addProfiles, List.foldl_cons, ← addProfiles, ih, hp, List.append_assoc]
    rfl

theorem profilesOf_addProfiles_of_ne (s : Store) {u v : String} (h : u ≠ v)
    (ps : List (StoredProfile Float)) :
    (s.addProfiles v ps).profilesOf u = s.profilesOf u := by
  induction ps generalizing s with
  | nil => rfl
  | cons p rest ih =>
    have hp : (s.addProfile v p).profilesOf u = s.profilesOf u := by
      simp [profilesOf, addProfile, KeyMap.alter, KeyMap.get?_insert_of_ne _ h]
    rw [addProfiles, List.foldl_cons, ← addProfiles, ih, hp]

@[simp] theorem records_addProfiles (s : Store) (v : String) (ps : List (StoredProfile Float)) :
    (s.addProfiles v ps).records = s.records := by
  induction ps generalizing s with
  | nil => rfl
  | cons p rest ih => rw [addProfiles, List.foldl_cons, ← addProfiles, ih, addProfile]

end Store

/-- The profiles of the versions that were looked at. -/
abbrev ProfileCache := KeyMap (List (StoredProfile Float))

end PerfDrift
