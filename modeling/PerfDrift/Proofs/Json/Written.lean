import Mathlib.Data.List.TakeWhile
import PerfDrift.Json.Decode
import PerfDrift.Proofs.Json.Numeral

/-! Documents in JSON, written over several lines and read.

The text of a document is read as the document, with every number as its own text is read
(`read_indented`). That is the document itself if the numbers in it are carried and nothing in it
is beyond writing (`asRead_of_writable`). -/
namespace PerfDrift.Json

/-! ### What is read -/

/-- The name that is written for a name. -/
def nameRead : Name → String
  | .text s => s
  | .unpaired => ""

mutual

/-- What the text of a document is read as. What cannot be written is written as nothing, and lists
and records are closed whether they were or not. -/
def asRead : Document → Document
  | .flag b => .flag b
  | .number n => numberRead n
  | .text s => .text s
  | .list items _ => .list (itemsAsRead items) .closed
  | .record members _ => .record (membersAsRead members) .closed
  | .null | .beyond | .unpaired | .broken => .null

def itemsAsRead : List Document → List Document
  | [] => []
  | d :: rest => asRead d :: itemsAsRead rest

def membersAsRead : List (Name × Document) → List (Name × Document)
  | [] => []
  | (name, d) :: rest => (.text (nameRead name), asRead d) :: membersAsRead rest

end

theorem itemsAsRead_eq (ds : List Document) : itemsAsRead ds = ds.map asRead := by
  induction ds with
  | nil => rfl
  | cons d rest ih => rw [itemsAsRead, ih, List.map_cons]

theorem asRead_ofList (ds : List Document) : asRead (.ofList ds) = .ofList (ds.map asRead) := by
  rw [Document.ofList, asRead, itemsAsRead_eq]
  rfl

theorem nameText_eq (name : Name) : nameText name = quoted (nameRead name) := by
  cases name <;> rfl

/-- The text of a number is read to its end, for the number. -/
def Carries (n : Number) : Prop := scalar (numberText n).toList = (.number n, some [])

theorem numberRead_of_carries {n : Number} (h : Carries n) : numberRead n = .number n :=
  congrArg Prod.fst h

theorem isFinite_of_carries {x : Float} (h : Carries (.real x)) : x.isFinite := by
  by_contra hx
  have htext : numberText (.real x) = "null" := if_neg hx
  rw [Carries, htext] at h
  cases h

theorem carries_one : Carries (.real 1) := by
  have htext : (numberText (.real 1)).toList = ['1', '.', '0'] := by decide +kernel
  have hscaled : scaledQuickly 10 (-1) = some 1 := by decide +kernel
  have hquick : Numeral.quick ⟨false, [1], some [0], none⟩ = .real 1 := by
    simp [Numeral.quick, appendFitting, hscaled, signed]
  rw [Carries, htext, scalar_digit (by decide)]
  show (numberOf ⟨false, [1], some [0], none⟩, some []) = _
  rw [numberOf, hquick]

/-- A complete document of which nothing is lost in writing. -/
inductive Writable : Document → Prop
  | null : Writable .null
  | flag (b : Bool) : Writable (.flag b)
  | number {n : Number} (h : Carries n) : Writable (.number n)
  | text (s : String) : Writable (.text s)
  | list {items : List Document} (h : ∀ d ∈ items, Writable d) : Writable (.list items .closed)
  | record {members : List (Name × Document)} (hnames : ∀ m ∈ members, ∃ s, m.1 = .text s)
    (h : ∀ m ∈ members, Writable m.2) : Writable (.record members .closed)

theorem writable_ofMembers {ms : List (String × Document)} (h : ∀ m ∈ ms, Writable m.2) :
    Writable (.ofMembers ms) := by
  refine .record (fun m hm => ?_) fun m hm => ?_
  · obtain ⟨⟨s, d⟩, -, rfl⟩ := List.mem_map.mp hm
    exact ⟨s, rfl⟩
  · obtain ⟨⟨s, d⟩, hmem, rfl⟩ := List.mem_map.mp hm
    exact h _ hmem

theorem asRead_of_writable {d : Document} (h : Writable d) : asRead d = d := by
  induction h with
  | null => rfl
  | flag b => rfl
  | number h => rw [asRead, numberRead_of_carries h]
  | text s => rfl
  | @list items h ih =>
    have hitems : itemsAsRead items = items := by
      clear h
      induction items with
      | nil => rfl
      | cons d rest ihrest =>
        rw [List.forall_mem_cons] at ih
        rw [itemsAsRead, ih.1, ihrest ih.2]
    rw [asRead, hitems]
  | @record members hnames h ih =>
    have hmembers : membersAsRead members = members := by
      clear h
      induction members with
      | nil => rfl
      | cons m rest ihrest =>
        obtain ⟨name, d⟩ := m
        rw [List.forall_mem_cons] at ih hnames
        obtain ⟨s, rfl⟩ : ∃ s, name = .text s := hnames.1
        rw [membersAsRead, ih.1, ihrest hnames.2 ih.2, nameRead]
    rw [asRead, hmembers]

/-! ### White space -/

/-- The end of a line and the indentation of the next one. -/
def gap (depth : Nat) : List Char := '\n' :: List.replicate (2 * depth) ' '

section Space
variable {cs : List Char} {c : Char}

theorem skipSpace_gap (depth : Nat) : skipSpace (gap depth ++ cs) = skipSpace cs := by
  refine List.dropWhile_append_of_pos fun c hc => ?_
  rcases List.mem_cons.mp hc with rfl | hc
  · rfl
  · rw [(List.mem_replicate.mp hc).2]
    rfl

theorem skipSpace_cons (h : isSpace c = false) : skipSpace (c :: cs) = c :: cs := by
  simp [skipSpace, h]

theorem value_space (fuel : Nat) : value fuel (' ' :: cs) = value fuel cs := by
  cases fuel with
  | zero => rfl
  | succ fuel => rfl

end Space

/-! ### Blocks -/

/-- The lines of a block after its first one. -/
def blockTail (right : String) (depth : Nat) : List String → List Char
  | [] => gap depth ++ right.toList
  | l :: ls => ',' :: (gap (depth + 1) ++ l.toList ++ blockTail right depth ls)

theorem toList_lines (right : String) (depth : Nat) (l : String) (ls : List String) :
    (String.intercalate ",\n" ((l :: ls).map
        (String.ofList (List.replicate (2 * (depth + 1)) ' ') ++ ·))).toList ++
        (gap depth ++ right.toList) =
      List.replicate (2 * (depth + 1)) ' ' ++ l.toList ++ blockTail right depth ls := by
  induction ls generalizing l with
  | nil => simp [blockTail]
  | cons l' ls ih =>
    have hrest := ih l'
    simp only [String.toList_intercalate, List.map_cons] at hrest ⊢
    rw [List.intercalate_cons_cons, List.append_assoc, List.append_assoc, hrest, blockTail]
    simp [gap]

theorem toList_block (left right : String) (depth : Nat) (l : String) (ls : List String) :
    (block left right depth (l :: ls)).toList =
      left.toList ++ gap (depth + 1) ++ l.toList ++ blockTail right depth ls := by
  simpa [block, gap] using toList_lines right depth l ls

/-! ### Scalars -/

/-- The text is no list and no record, and no space is in front of it. -/
def Flat (cs : List Char) : Prop :=
  ∃ c cs', cs = c :: cs' ∧ isSpace c = false ∧ c ≠ '[' ∧ c ≠ ']' ∧ c ≠ '\x7b' ∧ c ≠ '\x7d'

/-- The text of a value: no space and no closing bracket is in front of it. -/
def Starts (cs : List Char) : Prop :=
  ∃ c cs', cs = c :: cs' ∧ isSpace c = false ∧ c ≠ ']' ∧ c ≠ '\x7d'

theorem Starts.append {cs : List Char} (h : Starts cs) (cs' : List Char) : Starts (cs ++ cs') := by
  obtain ⟨c, cs, rfl, hc⟩ := h
  exact ⟨c, cs ++ cs', rfl, hc⟩

theorem value_of_flat {fuel : Nat} {cs : List Char} (h : Flat cs) :
    value (fuel + 1) cs = scalar cs := by
  obtain ⟨c, cs, rfl, hspace, hlist, -, hrecord, -⟩ := h
  rw [value, skipSpace_cons hspace]
  split
  · next he => exact absurd (List.cons.inj he).1 hlist
  · next he => exact absurd (List.cons.inj he).1 hrecord
  · rfl

theorem quoted_toList (s : String) :
    (quoted s).toList = '"' :: (s.toList.flatMap escapeChar ++ ['"']) := by
  simp [quoted]

/-- Numbers begin with a digit, a minus sign or a letter. -/
theorem flat_numberText (n : Number) : Flat (numberText n).toList := by
  obtain hnull | ⟨cs, hcs, htext | htext⟩ := numberText_form n
  · rw [hnull]
    exact ⟨'n', _, rfl, by decide⟩
  · obtain ⟨c, cs', rfl, hdigit⟩ := head_of_isNumeral hcs
    have hne : ∀ d : Char, d.isDigit = false → c ≠ d := by
      rintro d hd rfl
      rw [hdigit] at hd
      cases hd
    refine ⟨c, cs', htext, ?_, hne _ rfl, hne _ rfl, hne _ rfl, hne _ rfl⟩
    simp [isSpace, hne ' ' rfl, hne '\t' rfl, hne '\n' rfl, hne '\r' rfl]
  · rw [htext]
    exact ⟨'-', cs, rfl, by decide⟩

/-! ### Reading back -/

/-- The text of a document is read wherever it stands, as long as there is fuel for every
character. -/
structure ReadBack (d : Document) : Prop where
  starts : ∀ depth, Starts (indentedAt depth d).toList
  value : ∀ depth fuel rest, Delimited rest → 2 * (indentedAt depth d).toList.length ≤ fuel →
    value fuel ((indentedAt depth d).toList ++ rest) = (asRead d, some rest)

theorem readBack_of_scalar {d : Document} (htext : ∀ depth, indentedAt depth d = scalarText d)
    (hflat : Flat (scalarText d).toList)
    (h : ∀ rest, Delimited rest → scalar ((scalarText d).toList ++ rest) = (asRead d, some rest)) :
    ReadBack d := by
  obtain ⟨c, cs, hcs, hspace, hlist, hlist', hrecord, hrecord'⟩ := hflat
  constructor
  · intro depth
    rw [htext]
    exact ⟨c, cs, hcs, hspace, hlist', hrecord'⟩
  · intro depth fuel rest hrest hfuel
    rw [htext, hcs] at hfuel ⊢
    rw [hcs] at h
    cases fuel with
    | zero => simp at hfuel
    | succ fuel =>
      rw [List.cons_append, value_of_flat ⟨c, _, rfl, hspace, hlist, hlist', hrecord, hrecord'⟩]
      exact h rest hrest

theorem readBack_nothing {d : Document} (htext : ∀ depth, indentedAt depth d = "null")
    (hscalar : scalarText d = "null") (hread : asRead d = .null) : ReadBack d := by
  refine readBack_of_scalar (fun depth => (htext depth).trans hscalar.symm) ?_ fun rest _ => ?_
  · rw [hscalar]
    exact ⟨'n', _, rfl, by decide⟩
  · rw [hscalar, hread]
    rfl

theorem readBack_flag (b : Bool) : ReadBack (.flag b) := by
  cases b with
  | true => exact readBack_of_scalar (fun _ => rfl) ⟨'t', _, rfl, by decide⟩ fun _ _ => rfl
  | false => exact readBack_of_scalar (fun _ => rfl) ⟨'f', _, rfl, by decide⟩ fun _ _ => rfl

theorem readBack_number (n : Number) : ReadBack (.number n) :=
  readBack_of_scalar (fun _ => rfl) (flat_numberText n) fun _ hrest => scalar_numberText n hrest

theorem readBack_text (s : String) : ReadBack (.text s) := by
  refine readBack_of_scalar (fun _ => rfl) ⟨'"', _, quoted_toList s, by decide⟩ fun rest _ => ?_
  show scalar ((quoted s).toList ++ rest) = _
  rw [quoted_toList, List.cons_append, List.append_assoc, List.singleton_append, scalar,
    text_escaped]
  rfl

/-! ### Lists -/

theorem delimited_blockTail (right : String) (depth : Nat) (ls : List String) (rest : List Char) :
    Delimited (blockTail right depth ls ++ rest) := by
  intro c hc
  cases ls with
  | nil =>
    cases hc
    decide
  | cons l ls =>
    cases hc
    decide

section Lists
variable {ds : List Document} {depth fuel : Nat} {cs rest : List Char}

theorem items_close (first : Bool) :
    items (fuel + 1) first (gap depth ++ ']' :: rest) = ([], .closed, some rest) := by
  unfold items
  rw [skipSpace_gap, skipSpace_cons (by decide)]
  cases first <;> rfl

theorem items_first (h : Starts cs) : items (fuel + 1) true (gap depth ++ cs) = item fuel cs := by
  obtain ⟨c, cs, rfl, hspace, hlist, -⟩ := h
  unfold items
  rw [skipSpace_gap, skipSpace_cons hspace]
  split
  · next he => exact absurd (List.cons.inj he).1 hlist
  · rfl
  · contradiction
  · contradiction

theorem items_next (h : Starts cs) :
    items (fuel + 1) false (',' :: (gap depth ++ cs)) = item fuel cs := by
  obtain ⟨c, cs, rfl, hspace, hlist, -⟩ := h
  unfold items
  rw [skipSpace_cons (by decide)]
  simp only [skipSpace_gap, skipSpace_cons hspace]
  split
  · next he => exact absurd (List.cons.inj he).1 hlist
  · rfl

theorem item_append {d : Document} {text : List Char}
    (hvalue : value fuel (text ++ cs) = (d, some cs))
    (hitems : items fuel false cs = (ds, .closed, some rest)) :
    item (fuel + 1) (text ++ cs) = (d :: ds, .closed, some rest) := by
  rw [item, hvalue]
  simp only [hitems]

/-- The items after the first one. -/
theorem items_blockTail (h : ∀ d ∈ ds, ReadBack d)
    (hfuel : 2 * (blockTail "]" depth (indentedItems (depth + 1) ds)).length ≤ fuel) :
    items fuel false (blockTail "]" depth (indentedItems (depth + 1) ds) ++ rest) =
      (itemsAsRead ds, .closed, some rest) := by
  induction ds generalizing fuel with
  | nil =>
    cases fuel with
    | zero => simp [indentedItems, blockTail, gap] at hfuel
    | succ fuel =>
      rw [indentedItems, blockTail, List.append_assoc]
      exact items_close false
  | cons d ds ih =>
    have hd := h d List.mem_cons_self
    rw [indentedItems, blockTail] at hfuel ⊢
    simp only [List.length_cons, List.length_append, gap] at hfuel
    obtain ⟨fuel, rfl⟩ : ∃ f, fuel = f + 2 := ⟨fuel - 2, by omega⟩
    simp only [List.cons_append, List.append_assoc]
    rw [items_next (hd.starts _ |>.append _)]
    refine item_append (hd.value _ _ _ (delimited_blockTail _ _ _ _) (by omega)) ?_
    exact ih (fun d' hd' => h d' (List.mem_cons_of_mem _ hd')) (by omega)

/-- A list is read back if its items are. -/
theorem readBack_list (h : ∀ d ∈ ds, ReadBack d) (ending : Ending) :
    ReadBack (.list ds ending) := by
  cases ds with
  | nil =>
    have htext : ∀ depth, (indentedAt depth (.list [] ending)).toList = ['[', ']'] := by
      intro depth
      rw [indentedAt, indentedItems, block]
      rfl
    constructor
    · exact fun depth => ⟨'[', _, htext depth, by decide⟩
    · intro depth fuel rest hrest hfuel
      rw [htext] at hfuel ⊢
      simp only [List.length_cons, List.length_nil] at hfuel
      obtain ⟨fuel, rfl⟩ : ∃ f, fuel = f + 2 := ⟨fuel - 2, by omega⟩
      rfl
  | cons d ds =>
    have htext : ∀ depth, (indentedAt depth (.list (d :: ds) ending)).toList =
        '[' :: (gap (depth + 1) ++ ((indentedAt (depth + 1) d).toList ++
          blockTail "]" depth (indentedItems (depth + 1) ds))) := by
      intro depth
      rw [indentedAt, indentedItems, toList_block]
      simp
    have hd := h d List.mem_cons_self
    constructor
    · exact fun depth => ⟨'[', _, htext depth, by decide⟩
    · intro depth fuel rest hrest hfuel
      rw [htext] at hfuel ⊢
      simp only [List.length_cons, List.length_append, gap] at hfuel
      obtain ⟨fuel, rfl⟩ : ∃ f, fuel = f + 3 := ⟨fuel - 3, by omega⟩
      have hitem : item (fuel + 1) ((indentedAt (depth + 1) d).toList ++
          (blockTail "]" depth (indentedItems (depth + 1) ds) ++ rest)) =
          (asRead d :: itemsAsRead ds, .closed, some rest) := by
        refine item_append (hd.value _ _ _ (delimited_blockTail _ _ _ _) (by omega)) ?_
        exact items_blockTail (fun d' hd' => h d' (List.mem_cons_of_mem _ hd')) (by omega)
      simp only [List.cons_append, List.append_assoc]
      rw [value, skipSpace_cons (by decide)]
      simp only
      rw [items_first ((hd.starts _).append _), hitem, asRead, itemsAsRead]

end Lists

/-! ### Records -/

theorem indentedMembers_cons (depth : Nat) (name : Name) (d : Document)
    (ms : List (Name × Document)) :
    indentedMembers depth ((name, d) :: ms) =
      (quoted (nameRead name) ++ ": " ++ indentedAt depth d) :: indentedMembers depth ms := by
  rw [indentedMembers, nameText_eq]

theorem toList_member (depth : Nat) (s : String) (d : Document) :
    (quoted s ++ ": " ++ indentedAt depth d).toList =
      '"' :: (s.toList.flatMap escapeChar ++ '"' :: ':' :: ' ' :: (indentedAt depth d).toList) := by
  rw [String.toList_append, String.toList_append, quoted_toList]
  simp

section Records
variable {ms : List (Name × Document)} {depth fuel : Nat} {cs rest : List Char}

theorem members_close (first : Bool) :
    members (fuel + 1) first (gap depth ++ '\x7d' :: rest) = ([], .closed, some rest) := by
  unfold members
  rw [skipSpace_gap, skipSpace_cons (by decide)]
  cases first <;> rfl

theorem members_first :
    members (fuel + 1) true (gap depth ++ '"' :: cs) = member fuel ('"' :: cs) := by
  unfold members
  rw [skipSpace_gap, skipSpace_cons (by decide)]
  rfl

theorem members_next :
    members (fuel + 1) false (',' :: (gap depth ++ '"' :: cs)) = member fuel ('"' :: cs) := by
  unfold members
  rw [skipSpace_cons (by decide)]
  simp only [skipSpace_gap]
  rfl

theorem member_append {s : String} {d : Document} {text : List Char}
    (hvalue : value fuel (text ++ cs) = (d, some cs))
    (hmembers : members fuel false cs = (ms, .closed, some rest)) :
    member (fuel + 1) ('"' :: (s.toList.flatMap escapeChar ++ '"' :: ':' :: ' ' :: (text ++ cs))) =
      ((.text s, d) :: ms, .closed, some rest) := by
  have hname : memberName ('"' :: (s.toList.flatMap escapeChar ++
      '"' :: ':' :: ' ' :: (text ++ cs))) = (some (.text s), some (' ' :: (text ++ cs))) := by
    rw [memberName, text_escaped]
    simp only
    rw [skipSpace_cons (by decide)]
    rfl
  rw [member, hname]
  simp only [value_space, hvalue, hmembers]

/-- The members after the first one. -/
theorem members_blockTail (h : ∀ m ∈ ms, ReadBack m.2)
    (hfuel : 2 * (blockTail "\x7d" depth (indentedMembers (depth + 1) ms)).length ≤ fuel) :
    members fuel false (blockTail "\x7d" depth (indentedMembers (depth + 1) ms) ++ rest) =
      (membersAsRead ms, .closed, some rest) := by
  induction ms generalizing fuel with
  | nil =>
    cases fuel with
    | zero => simp [indentedMembers, blockTail, gap] at hfuel
    | succ fuel =>
      rw [indentedMembers, blockTail, List.append_assoc]
      exact members_close false
  | cons m ms ih =>
    obtain ⟨name, d⟩ := m
    rw [List.forall_mem_cons] at h
    have hd : ReadBack d := h.1
    rw [indentedMembers_cons, blockTail, toList_member] at hfuel ⊢
    simp only [List.length_cons, List.length_append, gap] at hfuel
    obtain ⟨fuel, rfl⟩ : ∃ f, fuel = f + 2 := ⟨fuel - 2, by omega⟩
    simp only [List.cons_append, List.append_assoc]
    rw [members_next]
    refine member_append (hd.value _ _ _ (delimited_blockTail _ _ _ _) (by omega)) ?_
    exact ih h.2 (by omega)

/-- A record is read back if its members are. -/
theorem readBack_record (h : ∀ m ∈ ms, ReadBack m.2) (ending : Ending) :
    ReadBack (.record ms ending) := by
  cases ms with
  | nil =>
    have htext : ∀ depth, (indentedAt depth (.record [] ending)).toList = ['\x7b', '\x7d'] := by
      intro depth
      rw [indentedAt, indentedMembers, block]
      rfl
    constructor
    · exact fun depth => ⟨'\x7b', _, htext depth, by decide⟩
    · intro depth fuel rest hrest hfuel
      rw [htext] at hfuel ⊢
      simp only [List.length_cons, List.length_nil] at hfuel
      obtain ⟨fuel, rfl⟩ : ∃ f, fuel = f + 2 := ⟨fuel - 2, by omega⟩
      rfl
  | cons m ms =>
    obtain ⟨name, d⟩ := m
    rw [List.forall_mem_cons] at h
    have hd : ReadBack d := h.1
    have htext : ∀ depth, (indentedAt depth (.record ((name, d) :: ms) ending)).toList =
        '\x7b' :: (gap (depth + 1) ++ '"' :: ((nameRead name).toList.flatMap escapeChar ++
          '"' :: ':' :: ' ' :: ((indentedAt (depth + 1) d).toList ++
            blockTail "\x7d" depth (indentedMembers (depth + 1) ms)))) := by
      intro depth
      rw [indentedAt, indentedMembers_cons, toList_block, toList_member]
      simp
    constructor
    · exact fun depth => ⟨'\x7b', _, htext depth, by decide⟩
    · intro depth fuel rest hrest hfuel
      rw [htext] at hfuel ⊢
      simp only [List.length_cons, List.length_append, gap] at hfuel
      obtain ⟨fuel, rfl⟩ : ∃ f, fuel = f + 3 := ⟨fuel - 3, by omega⟩
      have hmember : member (fuel + 1) ('"' :: ((nameRead name).toList.flatMap escapeChar ++
          '"' :: ':' :: ' ' :: ((indentedAt (depth + 1) d).toList ++
            (blockTail "\x7d" depth (indentedMembers (depth + 1) ms) ++ rest)))) =
          ((.text (nameRead name), asRead d) :: membersAsRead ms, .closed, some rest) := by
        refine member_append (hd.value _ _ _ (delimited_blockTail _ _ _ _) (by omega)) ?_
        exact members_blockTail h.2 (by omega)
      simp only [List.cons_append, List.append_assoc]
      rw [value, skipSpace_cons (by decide)]
      simp only
      rw [members_first, hmember, asRead, membersAsRead]

end Records

/-! ### Documents -/

mutual

theorem readBack : ∀ d, ReadBack d
  | .null | .beyond | .unpaired | .broken => readBack_nothing (fun _ => rfl) rfl rfl
  | .flag b => readBack_flag b
  | .number n => readBack_number n
  | .text s => readBack_text s
  | .list items ending => readBack_list (readBack_items items) ending
  | .record members ending => readBack_record (readBack_members members) ending

theorem readBack_items : ∀ items : List Document, ∀ d ∈ items, ReadBack d
  | [] => nofun
  | d :: rest => List.forall_mem_cons.mpr ⟨readBack d, readBack_items rest⟩

theorem readBack_members : ∀ members : List (Name × Document), ∀ m ∈ members, ReadBack m.2
  | [] => nofun
  | (_, d) :: rest => List.forall_mem_cons.mpr ⟨readBack d, readBack_members rest⟩

end

theorem isSpace_newline : ∀ c ∈ "\n".toList, isSpace c := by
  intro c hc
  rw [List.mem_singleton.mp (show c ∈ ['\n'] from hc)]
  rfl

/-- The printed text of a document is a complete text, and part by part what is read of it is what
was written, whatever white space follows. -/
theorem read_indented (d : Document) {spaces : String} (hspaces : ∀ c ∈ spaces.toList, isSpace c) :
    read (indented d ++ spaces) = (asRead d, true) := by
  have htext : (indented d ++ spaces).toList = (indentedAt 0 d).toList ++ spaces.toList :=
    String.toList_append
  have hdelimited : Delimited spaces.toList := by
    intro c hc
    have hspace := hspaces c (List.mem_of_mem_head? hc)
    simp only [isSpace, Bool.or_eq_true, decide_eq_true_eq] at hspace
    rcases hspace with ((rfl | rfl) | rfl) | rfl <;> decide
  have hvalue := (readBack d).value 0
    (3 * ((indentedAt 0 d).toList ++ spaces.toList).length + 3) _ hdelimited (by
      rw [List.length_append]
      omega)
  have hrest : skipSpace spaces.toList = [] := List.dropWhile_eq_nil_iff.mpr hspaces
  unfold read
  simp only [htext, hvalue, hrest]
  rfl

theorem read_indented_of_writable {d : Document} (h : Writable d) {spaces : String}
    (hspaces : ∀ c ∈ spaces.toList, isSpace c) : read (indented d ++ spaces) = (d, true) := by
  rw [read_indented d hspaces, asRead_of_writable h]

theorem decode_indented {α : Type} {decoder : Decoder α} {d : Document} {x : α} (h : Writable d)
    {spaces : String} (hspaces : ∀ c ∈ spaces.toList, isSpace c) (hdecode : decoder d = .ok x) :
    decode decoder (indented d ++ spaces) = .ok x := by
  unfold decode
  rw [read_indented_of_writable h hspaces]
  simp [hdecode, bind, Except.bind, pure, Except.pure]

end PerfDrift.Json
