import PerfDrift.Failure
import PerfDrift.KeyMap

/-! The history of versions.

Versions name their parents by checksum, and a walk goes from a version to its first
parent as long as that is known. The versions form no chain by construction: a
parent may be missing, or lead back, so a walk is taken for a number of steps. As
many steps as there are versions go through all of a walk that does not repeat. -/
namespace PerfDrift

structure Version where
  checksum : String
  parents : List String := []
  author : String := ""
  date : String := ""
  description : String := ""
deriving DecidableEq, Repr

structure History where
  versions : KeyMap Version
  /-- The version committed last. -/
  head : Option String

namespace History

def empty : History := ⟨.empty, none⟩

/-- The history with a version added, which becomes its head. A version with the
same checksum is replaced. -/
def commit (h : History) (v : Version) : History :=
  ⟨h.versions.insert v.checksum v, some v.checksum⟩

/-- Commits versions one on top of the other. -/
def commitOnto (h : History) (parents : List String) : List String → History
  | [] => h
  | c :: rest => commitOnto (h.commit {checksum := c, parents}) [c] rest

/-- A history of versions in which each has the one before as its parent. -/
def linear (checksums : List String) : History := empty.commitOnto [] checksums

/-- The version with a checksum. -/
def version (h : History) (checksum : String) : Except HistoryError Version :=
  match h.versions.get? checksum with
  | some v => .ok v
  | none => .error (.unknownVersion checksum)

/-- The checksum of the head. -/
def headVersion (h : History) : Except HistoryError String :=
  match h.head with
  | some c => .ok c
  | none => .error (.backend "history is empty")

/-- The first parent of a version, where it is known. -/
def parent? (h : History) (v : Version) : Option Version := v.parents.head?.bind h.versions.get?

/-- The first `n` versions from `v` on. -/
def walkFrom (h : History) : (n : Nat) → (v : Version) → List Version
  | 0, _ => []
  | n + 1, v =>
    v :: match h.parent? v with
      | none => []
      | some p => walkFrom h n p

/-- The first `n` versions of the walk from a version, itself included. -/
def walkWithin (h : History) (n : Nat) (start : String) : Except HistoryError (List Version) :=
  (walkFrom h n) <$> h.version start

/-- The walk from a version to the end of the history, the newest version first. -/
def walk (h : History) (start : String) : Except HistoryError (List Version) :=
  h.walkWithin h.versions.size start

end History
end PerfDrift
