import PerfDrift.Toml.Value

/-! Tables under construction.

The lines of a document add to tables in three ways that may not be mixed: a header
opens a table and, on the way, implies the tables it runs through; a dotted key
makes the tables it runs through; a double header appends to a list of tables. The
kind of a table remembers how it came about, and every addition checks it. -/
namespace PerfDrift.Toml

/-- How a table came about. -/
inductive Kind where
  /-- A header or the document itself opened it. -/
  | opened
  /-- The header of a table inside it implied it. -/
  | implied
  /-- A dotted key made it. -/
  | dotted
deriving DecidableEq, Repr

inductive Node where
  | leaf (v : Value)
  | table (kind : Kind) (entries : List (String × Node))
  /-- Tables that double headers appended, the last one first. -/
  | tables (newestFirst : List (List (String × Node)))

/-- The bindings of a table under construction. -/
abbrev Branch := List (String × Node)

mutual

/-- The value of a node. -/
def Node.toValue : Node → Value
  | .leaf v => v
  | .table _ entries => .table (branchEntries entries)
  | .tables newestFirst => .array (tableValues newestFirst).reverse

def branchEntries : List (String × Node) → List (String × Value)
  | [] => []
  | (key, n) :: rest => (key, n.toValue) :: branchEntries rest

def tableValues : List (List (String × Node)) → List Value
  | [] => []
  | entries :: rest => .table (branchEntries entries) :: tableValues rest

end

/-- The branch with `key` bound to `n`, in its place or at the end. -/
def Branch.set (b : Branch) (key : String) (n : Node) : Branch :=
  match b with
  | [] => [(key, n)]
  | (key', n') :: rest =>
    if key = key' then (key, n) :: rest else (key', n') :: Branch.set rest key n

/-- The branch without `key`. -/
def Branch.remove (b : Branch) (key : String) : Branch := b.filter fun e => e.1 ≠ key

/-- Changes the table at the end of a path, making the tables on the way that are not
there. With `byKey` the path is that of a dotted key, which makes dotted tables and
may not enter one that was opened; else it is that of a header. -/
def descend (byKey : Bool) (f : Kind → Branch → Option Branch) :
    List String → Kind → Branch → Option Branch
  | [], kind, b => f kind b
  | key :: path, _, b =>
    match b.lookup key with
    | none => do
      let made := if byKey then Kind.dotted else .implied
      let inner ← descend byKey f path made []
      pure (b.set key (.table made inner))
    | some (.leaf _) => none
    | some (.tables []) => none
    | some (.tables (newest :: older)) => do
      let inner ← descend byKey f path .opened newest
      pure (b.set key (.tables (inner :: older)))
    | some (.table kind inner) =>
      if byKey ∧ kind = .opened then none
      else do
        let inner ← descend byKey f path kind inner
        pure (b.set key (.table kind inner))

/-- Binds a dotted key: the last part must be new, and the table it is bound in must
have come about by this key's other parts, or be the current one if there are none. -/
def Branch.bind (b : Branch) (path : List String) (key : String) (v : Value) : Option Branch :=
  descend true (fun kind inner =>
    if (kind = .dotted) = path.isEmpty then none
    else if (inner.lookup key).isSome then none
    else some (inner.set key (.leaf v))) path .opened b

/-- The last part of a key and the parts before it. -/
def splitLast : List String → Option (List String × String)
  | [] => none
  | [key] => some ([], key)
  | key :: rest => (splitLast rest).map fun (path, last) => (key :: path, last)

/-- A document that is read up to a header: the finished part, and the open table with
the place it belongs in. -/
structure Draft where
  root : Branch
  current : Branch
  place : List String
  listed : Bool

/-- A document before its first line. -/
def Draft.start : Draft := ⟨[], [], [], false⟩

/-- Puts the open table into its place. -/
def Draft.close (d : Draft) : Option Branch :=
  match splitLast d.place with
  | none => some d.current
  | some (path, key) =>
    descend false (fun _ inner =>
      match inner.lookup key, d.listed with
      | none, false => some (inner.set key (.table .opened d.current))
      | none, true => some (inner.set key (.tables [d.current]))
      | some (.tables older), true => some (inner.set key (.tables (d.current :: older)))
      | _, _ => none) path .opened d.root

/-- Takes the table at a key out of its branch, where a header is to open it: it must
be absent or implied. -/
def reopen (key : String) (inner : Branch) : Option (Branch × Branch) :=
  match inner.lookup key with
  | none => some ([], inner)
  | some (.table .implied entries) => some (entries, inner.remove key)
  | some _ => none

/-- The branch at the end of a header's path. -/
def branchAt : List String → Branch → Option Branch
  | [], b => some b
  | key :: path, b =>
    match b.lookup key with
    | none => some []
    | some (.leaf _) => none
    | some (.tables []) => none
    | some (.tables (newest :: _)) => branchAt path newest
    | some (.table _ inner) => branchAt path inner

/-- Opens the table of a header. -/
def Draft.openTable (d : Draft) (place : List String) : Option Draft := do
  let root ← d.close
  let (path, key) ← splitLast place
  let (entries, _) ← reopen key (← branchAt path root)
  let root ← descend false (fun _ inner => (reopen key inner).map (·.2)) path .opened root
  pure ⟨root, entries, place, false⟩

/-- Opens a new table in the list of a double header. -/
def Draft.openListed (d : Draft) (place : List String) : Option Draft := do
  let root ← d.close
  let (path, key) ← splitLast place
  let root ← descend false (fun _ inner =>
    match inner.lookup key with
    | none | some (.tables _) => some inner
    | _ => none) path .opened root
  pure ⟨root, [], place, true⟩

/-- Binds a key in the open table. -/
def Draft.bind (d : Draft) (key : List String) (v : Value) : Option Draft := do
  let (path, key) ← splitLast key
  let current ← d.current.bind path key v
  pure { d with current }

end PerfDrift.Toml
