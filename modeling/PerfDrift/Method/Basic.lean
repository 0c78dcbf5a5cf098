import PerfDrift.Text.Blank

/-! Detection methods and their names.

A method has a short and a long name. Both are read without regard to the white
space around them, to case and to whether words are joined by `-` or `_`. -/
namespace PerfDrift

/-- A way of detecting changes. -/
inductive Method where
  | averageAmount
  | modelOrder
  | fastCheck
  | timeOutliers
deriving DecidableEq, Repr

namespace Method

/-- All methods in the order in which they run. -/
def all : List Method := [averageAmount, modelOrder, fastCheck, timeOutliers]

theorem mem_all (m : Method) : m ∈ all := by
  cases m <;> decide

/-- The place in the order in which methods run. -/
def rank : Method → Nat
  | averageAmount => 0
  | modelOrder => 1
  | fastCheck => 2
  | timeOutliers => 3

/-- The short name. -/
def id : Method → String
  | averageAmount => "aat"
  | modelOrder => "bmoe"
  | fastCheck => "fast"
  | timeOutliers => "eto"

/-- The long name. -/
def longName : Method → String
  | averageAmount => "average_amount_threshold"
  | modelOrder => "best_model_order_equality"
  | fastCheck => "fast_check"
  | timeOutliers => "exclusive_time_outliers"

/-- The character that joins words. -/
def joint (c : Char) : Char := if c = '-' then '_' else c

/-- A name as it is compared: trimmed, in lower case, with `_` between words. -/
def normalize (s : String) : String :=
  String.ofList ((Text.lower (Text.trim s)).toList.map joint)

/-- The method of a name. -/
def ofName? (s : String) : Option Method :=
  all.find? fun m => m.id = normalize s ∨ m.longName = normalize s

/-- The short names in byte order. -/
def ids : List String := (all.map id).mergeSort fun a b => decide (a ≤ b)

/-! ### Choosing methods -/

/-- A list without the methods that repeat the one right before them. -/
def squeeze : List Method → List Method
  | m :: m' :: rest => if m = m' then squeeze (m' :: rest) else m :: squeeze (m' :: rest)
  | ms => ms

/-- The methods of a list without repetition, in the order in which they run. -/
def select (chosen : List Method) : List Method :=
  squeeze (chosen.mergeSort fun m m' => decide (m.rank ≤ m'.rank))

theorem rank_injective {m m' : Method} (h : m.rank = m'.rank) : m = m' := by
  revert h
  cases m <;> cases m' <;> decide

theorem mem_squeeze {m : Method} {ms : List Method} : m ∈ squeeze ms ↔ m ∈ ms := by
  fun_induction squeeze ms with
  | case1 m' rest ih => simp [ih]
  | case2 m' m'' rest hne ih => rw [List.mem_cons, ih, ← List.mem_cons]
  | case3 => rfl

/-- Of a list in order every method is kept once. -/
theorem pairwise_squeeze {ms : List Method} (h : ms.Pairwise fun m m' => m.rank ≤ m'.rank) :
    (squeeze ms).Pairwise fun m m' => m.rank < m'.rank := by
  fun_induction squeeze ms with
  | case1 m rest ih => exact ih h.of_cons
  | case2 m m' rest hne ih =>
    refine List.pairwise_cons.mpr ⟨fun x hx => ?_, ih h.of_cons⟩
    have hfirst : m.rank ≤ m'.rank := List.rel_of_pairwise_cons h List.mem_cons_self
    have hsecond : m'.rank ≤ x.rank := by
      rcases List.mem_cons.mp (mem_squeeze.mp hx) with rfl | hx
      · exact Nat.le_refl _
      · exact List.rel_of_pairwise_cons h.of_cons hx
    have hdistinct : m.rank ≠ m'.rank := fun he => hne (rank_injective he)
    omega
  | case3 ms hshort =>
    rcases ms with _ | ⟨m, _ | ⟨m', rest⟩⟩
    · exact .nil
    · exact List.pairwise_singleton _ _
    · exact absurd rfl (hshort m m' rest)

/-- Sorting a list and dropping repetitions leaves those of all methods that are in it. -/
theorem select_eq_filter (chosen : List Method) : select chosen = all.filter (· ∈ chosen) := by
  have hsorted : (select chosen).Pairwise fun m m' => m.rank < m'.rank := by
    refine pairwise_squeeze ((List.pairwise_mergeSort ?_ ?_ chosen).imp of_decide_eq_true)
    · simpa using fun m m' m'' => Nat.le_trans
    · simpa using fun m m' => Nat.le_total (rank m) (rank m')
  have hall : (all.filter (· ∈ chosen)).Pairwise fun m m' => m.rank < m'.rank :=
    List.Pairwise.filter _ (by decide)
  -- both lists rise strictly, so they are the same if they have the same methods
  have hperm : (select chosen).Perm (all.filter (· ∈ chosen)) := by
    refine (List.perm_ext_iff_of_nodup ?_ ?_).mpr fun m => ?_
    · exact hsorted.imp fun h he => absurd (he ▸ h) (Nat.lt_irrefl _)
    · exact hall.imp fun h he => absurd (he ▸ h) (Nat.lt_irrefl _)
    · simp [select, mem_squeeze, mem_all m]
  exact hperm.eq_of_pairwise (fun _ _ _ _ h h' => absurd h' (Nat.lt_asymm h)) hsorted hall

end Method

/-- Which methods a comparison runs. -/
inductive Selection where
  | all
  | only (m : Method)
deriving DecidableEq, Repr

namespace Selection

/-- The selection of a name; `all` is read in any case, but only between blanks. -/
def ofName? (s : String) : Option Selection :=
  if Text.lower (Text.trim s) = "all" then some all else (Method.ofName? s).map only

def name : Selection → String
  | all => "all"
  | only m => m.id

/-- The methods that run, in order. -/
def methods : Selection → List Method
  | all => Method.all
  | only m => [m]

end Selection
end PerfDrift
