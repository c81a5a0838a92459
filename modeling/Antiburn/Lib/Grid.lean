/-
A grid of bounded size whose quantum doubles when it is full.

A value is pushed at a position, and belongs to the cell whose index is the
position divided by the quantum.  A cell that exists takes the value in by a
merge; a full grid halves its indexes, merging the cells that coincide, and
tries again.
-/
import Antiburn.Lib.Saturating
import Mathlib

namespace Antiburn

structure Cell (α : Type) where
  index : Nat
  value : α

namespace Cell

variable {α : Type}

/-- Cells in order of their indexes. -/
def Sorted (cells : List (Cell α)) : Prop := cells.Pairwise fun cell next => cell.index < next.index

def valueAt : List (Cell α) → Nat → Option α
  | [], _ => none
  | cell :: rest, index => if cell.index = index then some cell.value else valueAt rest index

def insert (new : Cell α) : List (Cell α) → List (Cell α)
  | [] => [new]
  | cell :: rest => if new.index < cell.index then new :: cell :: rest else cell :: insert new rest

def mergeAt (merge : α → α → α) (index : Nat) (value : α) (cells : List (Cell α)) :
    List (Cell α) :=
  cells.map fun cell =>
    if cell.index = index then { cell with value := merge cell.value value } else cell

def halveFrom (merge : α → α → α) (current : Cell α) : List (Cell α) → List (Cell α)
  | [] => [current]
  | cell :: rest =>
    if current.index = cell.index / 2 then
      halveFrom merge { current with value := merge current.value cell.value } rest
    else current :: halveFrom merge { cell with index := cell.index / 2 } rest

def halve (merge : α → α → α) : List (Cell α) → List (Cell α)
  | [] => []
  | cell :: rest => halveFrom merge { cell with index := cell.index / 2 } rest

/-! ### Values by index -/

section

variable {cells : List (Cell α)}

lemma valueAt_nil (index : Nat) : valueAt ([] : List (Cell α)) index = none := rfl

lemma valueAt_cons (cell : Cell α) (rest : List (Cell α)) (index : Nat) :
    valueAt (cell :: rest) index =
      if cell.index = index then some cell.value else valueAt rest index := rfl

lemma valueAt_eq_none {index : Nat} :
    valueAt cells index = none ↔ ∀ cell ∈ cells, cell.index ≠ index := by
  induction cells with
  | nil => exact ⟨fun _ cell h => (by cases h), fun _ => rfl⟩
  | cons cell rest ih =>
    rw [valueAt_cons, List.forall_mem_cons]
    split_ifs with h
    · exact ⟨fun hnone => (by cases hnone), fun hne => absurd h hne.1⟩
    · rw [ih]
      exact ⟨fun hrest => ⟨h, hrest⟩, fun hne => hne.2⟩

lemma valueAt_of_mem (hsorted : Sorted cells) {cell : Cell α}
    (h : cell ∈ cells) : valueAt cells cell.index = some cell.value := by
  induction cells with
  | nil => cases h
  | cons first rest ih =>
    have hrest := List.pairwise_cons.mp hsorted
    rw [valueAt_cons]
    rcases List.mem_cons.mp h with rfl | hmem
    · exact if_pos rfl
    · rw [if_neg (Nat.ne_of_lt (hrest.1 cell hmem)), ih hrest.2 hmem]

lemma mem_of_valueAt {index : Nat} {value : α}
    (h : valueAt cells index = some value) : ⟨index, value⟩ ∈ cells := by
  induction cells with
  | nil => cases h
  | cons cell rest ih =>
    rw [valueAt_cons] at h
    split_ifs at h with heq
    · obtain rfl := heq
      cases h
      exact List.mem_cons_self
    · exact List.mem_cons_of_mem _ (ih h)

lemma valueAt_eq_none_of_le {bound index : Nat}
    (hbound : ∀ cell ∈ cells, bound < cell.index) (h : index ≤ bound) :
    valueAt cells index = none :=
  valueAt_eq_none.mpr fun cell hcell heq => by
    have hlt := hbound cell hcell
    omega

end

lemma forall₂_of_valueAt {β : Type} {R : α → β → Prop} {cells : List (Cell α)}
    {others : List (Cell β)} (h : Sorted cells) (h' : Sorted others)
    (hrel : ∀ index, Option.Rel R (valueAt cells index) (valueAt others index)) :
    List.Forall₂ (fun cell other => cell.index = other.index ∧ R cell.value other.value)
      cells others := by
  induction cells generalizing others with
  | nil =>
    cases others with
    | nil => exact .nil
    | cons other rest =>
      have hother := hrel other.index
      rw [valueAt_nil, valueAt_cons, if_pos rfl] at hother
      cases hother
  | cons cell rest ih =>
    have hrest := List.pairwise_cons.mp h
    cases others with
    | nil =>
      have hcell := hrel cell.index
      rw [valueAt_nil, valueAt_cons, if_pos rfl] at hcell
      cases hcell
    | cons other others =>
      have hothers := List.pairwise_cons.mp h'
      have hcell := hrel cell.index
      have hother := hrel other.index
      rw [valueAt_cons, valueAt_cons, if_pos rfl] at hcell hother
      -- the first indexes are the least ones on both sides
      have hindex : cell.index = other.index := by
        rcases Nat.lt_trichotomy cell.index other.index with hlt | heq | hlt
        · rw [if_neg hlt.ne', valueAt_eq_none_of_le hothers.1 hlt.le] at hcell
          cases hcell
        · exact heq
        · rw [if_neg hlt.ne', valueAt_eq_none_of_le hrest.1 hlt.le] at hother
          cases hother
      rw [if_pos hindex.symm] at hcell
      refine .cons ⟨hindex, by cases hcell; assumption⟩ (ih hrest.2 hothers.2 fun index => ?_)
      have hvalue := hrel index
      by_cases heq : cell.index = index
      · rw [valueAt_eq_none_of_le hrest.1 heq.ge, valueAt_eq_none_of_le hothers.1 (by omega)]
        exact .none
      · rw [valueAt_cons, valueAt_cons, if_neg heq, if_neg (by omega)] at hvalue
        exact hvalue

/-! ### Insertion and merge -/

lemma insert_nil (new : Cell α) : insert new [] = [new] := rfl

lemma insert_cons (new cell : Cell α) (rest : List (Cell α)) :
    insert new (cell :: rest) =
      if new.index < cell.index then new :: cell :: rest else cell :: insert new rest := rfl

lemma mem_insert {new other : Cell α} {cells : List (Cell α)} :
    other ∈ insert new cells ↔ other = new ∨ other ∈ cells := by
  induction cells with
  | nil => rw [insert_nil, List.mem_cons]
  | cons cell rest ih =>
    rw [insert_cons]
    split_ifs
    · rw [List.mem_cons]
    · rw [List.mem_cons, ih, List.mem_cons]
      tauto

lemma sorted_insert {new : Cell α} {cells : List (Cell α)} (h : Sorted cells)
    (hnew : valueAt cells new.index = none) : Sorted (insert new cells) := by
  have hne := valueAt_eq_none.mp hnew
  clear hnew
  induction cells with
  | nil => exact List.pairwise_singleton _ _
  | cons cell rest ih =>
    have hrest := List.pairwise_cons.mp h
    rw [insert_cons]
    split_ifs with hlt
    · refine List.pairwise_cons.mpr ⟨fun other hother => ?_, h⟩
      rcases List.mem_cons.mp hother with rfl | hmem
      · exact hlt
      · exact hlt.trans (hrest.1 other hmem)
    · refine List.pairwise_cons.mpr ⟨fun other hother => ?_,
        ih hrest.2 fun other hother => hne other (List.mem_cons_of_mem _ hother)⟩
      rcases mem_insert.mp hother with rfl | hmem
      · exact Nat.lt_of_le_of_ne (Nat.not_lt.mp hlt) (hne cell List.mem_cons_self)
      · exact hrest.1 other hmem

lemma valueAt_insert {new : Cell α} {cells : List (Cell α)}
    (hnew : valueAt cells new.index = none) (index : Nat) :
    valueAt (insert new cells) index =
      if index = new.index then some new.value else valueAt cells index := by
  induction cells with
  | nil =>
    rw [insert_nil, valueAt_cons]
    exact if_congr eq_comm rfl rfl
  | cons cell rest ih =>
    rw [valueAt_cons] at hnew
    split_ifs at hnew with heq
    rw [insert_cons]
    split_ifs with hlt hindex hindex
    · rw [valueAt_cons, if_pos hindex.symm]
    · rw [valueAt_cons, if_neg fun h => hindex h.symm]
    · rw [valueAt_cons, if_neg (by rw [hindex]; exact heq), ih hnew, if_pos hindex]
    · rw [valueAt_cons, valueAt_cons, ih hnew, if_neg hindex]

lemma length_insert (new : Cell α) (cells : List (Cell α)) :
    (insert new cells).length = cells.length + 1 := by
  induction cells with
  | nil => rfl
  | cons cell rest ih =>
    rw [insert_cons]
    split_ifs
    · rfl
    · rw [List.length_cons, ih, List.length_cons]

section Merge

variable {merge : α → α → α}

variable {cells : List (Cell α)}

lemma sorted_mergeAt {index : Nat} {value : α} (h : Sorted cells) :
    Sorted (mergeAt merge index value cells) := by
  have hindex (cell : Cell α) : (if cell.index = index then
      { cell with value := merge cell.value value } else cell).index = cell.index := by
    split_ifs <;> rfl
  unfold Sorted mergeAt
  rw [List.pairwise_map]
  refine h.imp fun {cell next} hlt => ?_
  rw [hindex, hindex]
  exact hlt

lemma valueAt_mergeAt (target : Nat) (value : α) (cells : List (Cell α)) (index : Nat) :
    valueAt (mergeAt merge target value cells) index =
      if index = target then (valueAt cells index).map (merge · value)
      else valueAt cells index := by
  induction cells with
  | nil => exact (ite_self _).symm
  | cons cell rest ih =>
    rw [mergeAt, List.map_cons, ← mergeAt, valueAt_cons, valueAt_cons, ih]
    by_cases htarget : cell.index = target
    · rw [if_pos htarget]
      by_cases hindex : cell.index = index
      · rw [if_pos hindex, if_pos hindex, if_pos (hindex.symm.trans htarget)]
        rfl
      · rw [if_neg hindex, if_neg hindex]
    · rw [if_neg htarget]
      by_cases hindex : cell.index = index
      · rw [if_pos hindex, if_pos hindex, if_neg fun h => htarget (hindex.trans h)]
      · rw [if_neg hindex, if_neg hindex]

/-! ### Halving -/

/-- Merge two values that may be missing. -/
def mergeOption (merge : α → α → α) : Option α → Option α → Option α
  | some a, some b => some (merge a b)
  | a, b => a.or b

@[simp] lemma mergeOption_none_left (b : Option α) : mergeOption merge none b = b := by
  cases b <;> rfl

@[simp] lemma mergeOption_none_right (a : Option α) : mergeOption merge a none = a := by
  cases a <;> rfl

lemma halveFrom_nil (current : Cell α) : halveFrom merge current [] = [current] := rfl

lemma halveFrom_cons (current cell : Cell α) (rest : List (Cell α)) :
    halveFrom merge current (cell :: rest) =
      if current.index = cell.index / 2 then
        halveFrom merge { current with value := merge current.value cell.value } rest
      else current :: halveFrom merge { cell with index := cell.index / 2 } rest := rfl

lemma halveFrom_sorted {current : Cell α} (h : Sorted cells)
    (hcur : ∀ cell ∈ cells, current.index ≤ cell.index / 2) :
    Sorted (halveFrom merge current cells) ∧
      ∀ cell ∈ halveFrom merge current cells, current.index ≤ cell.index := by
  induction cells generalizing current with
  | nil =>
    refine ⟨List.pairwise_singleton _ _, fun cell hcell => ?_⟩
    rw [List.mem_singleton.mp hcell]
  | cons cell rest ih =>
    have hrest := List.pairwise_cons.mp h
    rw [halveFrom_cons]
    split_ifs with heq
    · exact ih hrest.2 fun other hother => hcur other (List.mem_cons_of_mem _ hother)
    · have hlt : current.index < cell.index / 2 :=
        Nat.lt_of_le_of_ne (hcur cell List.mem_cons_self) heq
      have hnext := @ih { cell with index := cell.index / 2 } hrest.2
        fun other hother => Nat.div_le_div_right (hrest.1 other hother).le
      refine ⟨List.pairwise_cons.mpr ⟨fun other hother => ?_, hnext.1⟩, fun other hother => ?_⟩
      · exact Nat.lt_of_lt_of_le hlt (hnext.2 other hother)
      · rcases List.mem_cons.mp hother with rfl | hmem
        · exact le_rfl
        · exact hlt.le.trans (hnext.2 other hmem)

lemma sorted_halve (h : Sorted cells) : Sorted (halve merge cells) := by
  cases cells with
  | nil => exact .nil
  | cons cell rest =>
    have hrest := List.pairwise_cons.mp h
    exact (halveFrom_sorted hrest.2 fun other hother =>
      Nat.div_le_div_right (hrest.1 other hother).le).1

/-- A cell below the others is at one of the two indexes, and stands before them after the merge. -/
lemma halved_cons {cell : Cell α} {rest : List (Cell α)}
    (hlow : ∀ other ≤ cell.index, valueAt rest other = none) (index : Nat) :
    mergeOption merge
        (mergeOption merge (if cell.index / 2 = index then some cell.value else none)
          (valueAt rest (2 * index)))
        (valueAt rest (2 * index + 1)) =
      mergeOption merge (valueAt (cell :: rest) (2 * index))
        (valueAt (cell :: rest) (2 * index + 1)) := by
  rw [valueAt_cons, valueAt_cons]
  by_cases hindex : cell.index / 2 = index
  · rw [if_pos hindex]
    rcases Nat.mod_two_eq_zero_or_one cell.index with heven | hodd
    · rw [if_pos (by omega), if_neg (by omega), hlow _ (by omega), mergeOption_none_right]
    · rw [if_neg (by omega), if_pos (by omega), hlow (2 * index) (by omega),
        hlow (2 * index + 1) (by omega), mergeOption_none_right, mergeOption_none_right,
        mergeOption_none_left]
  · rw [if_neg hindex, mergeOption_none_left, if_neg (by omega), if_neg (by omega)]

lemma valueAt_halveFrom {current : Cell α} (h : Sorted cells)
    (hcur : ∀ cell ∈ cells, current.index ≤ cell.index / 2) (index : Nat) :
    valueAt (halveFrom merge current cells) index =
      mergeOption merge
        (mergeOption merge (if current.index = index then some current.value else none)
          (valueAt cells (2 * index)))
        (valueAt cells (2 * index + 1)) := by
  induction cells generalizing current with
  | nil =>
    rw [halveFrom_nil, valueAt_cons, valueAt_nil, valueAt_nil, valueAt_nil,
      mergeOption_none_right, mergeOption_none_right]
  | cons cell rest ih =>
    have hrest := List.pairwise_cons.mp h
    have hcell := hcur cell List.mem_cons_self
    have hhalf : cell.index = 2 * (cell.index / 2) ∨ cell.index = 2 * (cell.index / 2) + 1 := by
      omega
    have hlow : ∀ other ≤ cell.index, valueAt rest other = none :=
      fun other hother => valueAt_eq_none_of_le hrest.1 hother
    rw [halveFrom_cons]
    -- the rest holds no cell at or before this one, so one of its two halves is missing
    by_cases heq : current.index = cell.index / 2
    · -- the cell coincides with the current one
      have hnext := @ih { current with value := merge current.value cell.value } hrest.2
        fun other hother => hcur other (List.mem_cons_of_mem _ hother)
      rw [if_pos heq, hnext]
      dsimp only
      by_cases hindex : current.index = index
      · rw [if_pos hindex, if_pos hindex, valueAt_cons, valueAt_cons]
        rcases hhalf with heven | hodd
        · rw [if_pos (by omega), if_neg (by omega), hlow _ (by omega), mergeOption_none_right]
          rfl
        · rw [if_neg (by omega), if_pos (by omega), hlow (2 * index) (by omega),
            hlow (2 * index + 1) (by omega), mergeOption_none_right, mergeOption_none_right,
            mergeOption_none_right]
          rfl
      · rw [if_neg hindex, if_neg hindex, valueAt_cons, valueAt_cons, if_neg (by omega),
          if_neg (by omega)]
    · -- the cell starts the next index
      have hlt : current.index < cell.index / 2 := Nat.lt_of_le_of_ne hcell heq
      have hnext := @ih { cell with index := cell.index / 2 } hrest.2
        fun other hother => Nat.div_le_div_right (hrest.1 other hother).le
      rw [if_neg heq, valueAt_cons, hnext]
      dsimp only
      by_cases hindex : current.index = index
      · rw [if_pos hindex, if_pos hindex, valueAt_cons, valueAt_cons, if_neg (by omega),
          if_neg (by omega), hlow _ (by omega), hlow _ (by omega), mergeOption_none_right,
          mergeOption_none_right]
      · rw [if_neg hindex, if_neg hindex, mergeOption_none_left]
        exact halved_cons hlow index

/-- **A halved cell merges the cells at twice its index and at the next one, in this order.** -/
lemma valueAt_halve (h : Sorted cells) (index : Nat) :
    valueAt (halve merge cells) index =
      mergeOption merge (valueAt cells (2 * index)) (valueAt cells (2 * index + 1)) := by
  cases cells with
  | nil => rfl
  | cons cell rest =>
    have hrest := List.pairwise_cons.mp h
    have hlow : ∀ other ≤ cell.index, valueAt rest other = none :=
      fun other hother => valueAt_eq_none_of_le hrest.1 hother
    rw [halve, valueAt_halveFrom hrest.2 fun other hother =>
      Nat.div_le_div_right (hrest.1 other hother).le]
    exact halved_cons hlow index

end Merge

/-! ### Indexes -/

def indexSum (cells : List (Cell α)) : Nat := (cells.map (·.index)).sum

lemma indexSum_cons (cell : Cell α) (rest : List (Cell α)) :
    indexSum (cell :: rest) = cell.index + indexSum rest := by
  rw [indexSum, List.map_cons, List.sum_cons, indexSum]

lemma indexSum_halveFrom (merge : α → α → α) (current : Cell α) (cells : List (Cell α)) :
    indexSum (halveFrom merge current cells) ≤ current.index + indexSum cells := by
  induction cells generalizing current with
  | nil => exact le_rfl
  | cons cell rest ih =>
    rw [halveFrom_cons, indexSum_cons]
    split_ifs
    · have hnext := ih { current with value := merge current.value cell.value }
      dsimp only at hnext
      omega
    · have hnext := ih { cell with index := cell.index / 2 }
      rw [indexSum_cons]
      dsimp only at hnext
      omega

lemma indexSum_halve (merge : α → α → α) {cells : List (Cell α)} (h : Sorted cells)
    (hlen : 2 ≤ cells.length) : indexSum (halve merge cells) < indexSum cells := by
  obtain ⟨cell, next, rest, rfl⟩ : ∃ cell next rest, cells = cell :: next :: rest := by
    match cells, hlen with
    | cell :: next :: rest, _ => exact ⟨cell, next, rest, rfl⟩
  have hlt : cell.index < next.index := (List.pairwise_cons.mp h).1 next List.mem_cons_self
  rw [indexSum_cons, indexSum_cons, halve, halveFrom_cons]
  split_ifs
  · have hnext := indexSum_halveFrom merge
      { cell with index := cell.index / 2, value := merge cell.value next.value } rest
    dsimp only at hnext ⊢
    omega
  · have hnext := indexSum_halveFrom merge { next with index := next.index / 2 } rest
    rw [indexSum_cons]
    dsimp only at hnext ⊢
    omega

end Cell

/-! ### The grid -/

/-- Sorted cells, their quantum, and how often it doubled. -/
structure Grid (α : Type) where
  cells : List (Cell α) := []
  sorted : Cell.Sorted cells := by exact .nil
  quantum : Nat := 0
  doublings : Nat := 0

namespace Grid

variable {α : Type} (merge : α → α → α) (capacity : Nat)

/-- Half as many indexes. -/
def doubleQuantum (grid : Grid α) : Grid α where
  cells := Cell.halve merge grid.cells
  sorted := Cell.sorted_halve grid.sorted
  quantum := max (min (grid.quantum * 2) U64_MAX) 1
  doublings := min (grid.doublings + 1) (2 ^ 32 - 1)

/-- Merge, insert, or halve the indexes and try again. -/
def pushLoop (hcapacity : 2 ≤ capacity) (grid : Grid α) (value : α) (position : Nat) : Grid α :=
  let index := position / grid.quantum
  match hfound : Cell.valueAt grid.cells index with
  | some _ =>
    { grid with
      cells := Cell.mergeAt merge index value grid.cells
      sorted := Cell.sorted_mergeAt grid.sorted }
  | none =>
    if grid.cells.length < capacity then
      { grid with
        cells := Cell.insert ⟨index, value⟩ grid.cells
        sorted := Cell.sorted_insert grid.sorted hfound }
    else pushLoop hcapacity (grid.doubleQuantum merge) value position
termination_by Cell.indexSum grid.cells
decreasing_by
  rename_i hfull
  exact Cell.indexSum_halve merge grid.sorted (hcapacity.trans (Nat.not_lt.mp hfull))

/-- A grid that never took a value has no quantum yet. -/
def started (grid : Grid α) : Grid α := if grid.quantum = 0 then { grid with quantum := 1 } else grid

def push (hcapacity : 2 ≤ capacity) (grid : Grid α) (value : α) (position : Nat) : Grid α :=
  grid.started.pushLoop merge capacity hcapacity value position

def pushAll (hcapacity : 2 ≤ capacity) (grid : Grid α) (contribs : List (α × Nat)) : Grid α :=
  contribs.foldl (fun grid x => grid.push merge capacity hcapacity x.1 x.2) grid

/-! ### What a grid stands for -/

inductive MergeOf : List α → α → Prop where
  | one (a : α) : MergeOf [a] a
  | merge {xs ys : List α} {a b : α} (left : MergeOf xs a) (right : MergeOf ys b) :
    MergeOf (xs ++ ys) (merge a b)

def group (contribs : List (α × Nat)) (quantum index : Nat) : List α :=
  (contribs.filter fun x => x.2 / quantum = index).map (·.1)

def quotients (contribs : List (α × Nat)) (quantum : Nat) : Finset Nat :=
  (contribs.map (·.2 / quantum)).toFinset

def Merges (values : List α) : Option α → Prop
  | none => values = []
  | some a => ∃ order, order.Perm values ∧ MergeOf merge order a

structure Holds (contributions : List (α × Nat)) (quantum : Nat) (cells : List (Cell α)) : Prop where
  sorted : Cell.Sorted cells
  merges : ∀ index, Merges merge (group contributions quantum index) (Cell.valueAt cells index)

variable {merge} {capacity}

variable {xs : List α}

lemma MergeOf.ne_nil {a : α} (h : MergeOf merge xs a) : xs ≠ [] := by
  induction h with
  | one => exact List.cons_ne_nil _ _
  | merge _ _ ih _ => exact fun h => ih (List.append_eq_nil_iff.mp h).1

section

variable {contribs : List (α × Nat)} {quantum index : Nat}

lemma mem_quotients :
    index ∈ quotients contribs quantum ↔ ∃ x ∈ contribs, x.2 / quantum = index := by
  rw [quotients, List.mem_toFinset, List.mem_map]

lemma group_eq_nil :
    group contribs quantum index = [] ↔ index ∉ quotients contribs quantum := by
  rw [group, List.map_eq_nil_iff, List.filter_eq_nil_iff, mem_quotients]
  exact ⟨fun h ⟨x, hx, heq⟩ => h x hx (decide_eq_true heq),
    fun h x hx heq => h ⟨x, hx, of_decide_eq_true heq⟩⟩

end

lemma group_concat (contribs : List (α × Nat)) (value : α) (position quantum index : Nat) :
    group (contribs ++ [(value, position)]) quantum index =
      group contribs quantum index ++ if position / quantum = index then [value] else [] := by
  rw [group, List.filter_append, List.map_append, ← group]
  congr 1
  rw [List.filter_cons]
  by_cases h : position / quantum = index
  · rw [if_pos (decide_eq_true h), if_pos h]
    rfl
  · rw [if_neg (by simpa using h), if_neg h]
    rfl

lemma group_double (contribs : List (α × Nat)) (quantum index : Nat) :
    (group contribs (quantum * 2) index).Perm
      (group contribs quantum (2 * index) ++ group contribs quantum (2 * index + 1)) := by
  have hiff : ∀ position : Nat, position / (quantum * 2) = index ↔
      position / quantum = 2 * index ∨ position / quantum = 2 * index + 1 := by
    -- a doubled quantum drops the last bit of the quotient
    intro position
    rw [← Nat.div_div_eq_div_mul]
    omega
  induction contribs with
  | nil => exact .nil
  | cons x rest ih =>
    have hcons : ∀ quantum index, group (x :: rest) quantum index =
        (if x.2 / quantum = index then [x.1] else []) ++ group rest quantum index := by
      intro quantum index
      rw [group, List.filter_cons]
      by_cases h : x.2 / quantum = index
      · rw [if_pos (decide_eq_true h), if_pos h]
        rfl
      · rw [if_neg (by simpa using h), if_neg h]
        rfl
    rw [hcons, hcons, hcons]
    by_cases heven : x.2 / quantum = 2 * index
    · rw [if_pos ((hiff x.2).mpr (.inl heven)), if_pos heven, if_neg (by omega)]
      exact ih.cons x.1
    · by_cases hodd : x.2 / quantum = 2 * index + 1
      · rw [if_pos ((hiff x.2).mpr (.inr hodd)), if_neg heven, if_pos hodd]
        exact (ih.cons x.1).trans List.perm_middle.symm
      · rw [if_neg fun h => ((hiff x.2).mp h).elim heven hodd, if_neg heven, if_neg hodd]
        exact ih

namespace Merges

variable {ys : List α}

lemma option {a b : Option α} (ha : Merges merge xs a)
    (hb : Merges merge ys b) : Merges merge (xs ++ ys) (Cell.mergeOption merge a b) := by
  cases a with
  | none =>
    obtain rfl : xs = [] := ha
    rw [Cell.mergeOption_none_left]
    exact hb
  | some a =>
    obtain ⟨left, hleft, htree⟩ := ha
    cases b with
    | none =>
      obtain rfl : ys = [] := hb
      rw [Cell.mergeOption_none_right, List.append_nil]
      exact ⟨left, hleft, htree⟩
    | some b =>
      obtain ⟨right, hright, htree'⟩ := hb
      exact ⟨left ++ right, hleft.append hright, .merge htree htree'⟩

lemma perm {a : Option α} (ha : Merges merge xs a) (h : xs.Perm ys) :
    Merges merge ys a := by
  cases a with
  | none =>
    obtain rfl : xs = [] := ha
    exact h.symm.eq_nil
  | some a =>
    obtain ⟨order, horder, htree⟩ := ha
    exact ⟨order, horder.trans h, htree⟩

end Merges

namespace Holds

variable {contribs : List (α × Nat)} {quantum : Nat} {cells : List (Cell α)}

section

variable (h : Holds merge contribs quantum cells)
include h

lemma mem_quotients {index : Nat} :
    index ∈ quotients contribs quantum ↔ ∃ value, Cell.valueAt cells index = some value := by
  have hmerges := h.merges index
  cases hvalue : Cell.valueAt cells index with
  | none =>
    rw [hvalue] at hmerges
    have hout := group_eq_nil.mp hmerges
    exact ⟨fun hin => absurd hin hout, fun ⟨_, h⟩ => by cases h⟩
  | some value =>
    rw [hvalue] at hmerges
    refine ⟨fun _ => ⟨value, rfl⟩, fun _ => ?_⟩
    by_contra hout
    obtain ⟨order, horder, htree⟩ := hmerges
    rw [group_eq_nil.mpr hout] at horder
    exact htree.ne_nil horder.eq_nil

lemma length_eq :
    cells.length = (quotients contribs quantum).card := by
  have hnodup : (cells.map (·.index)).Nodup :=
    List.pairwise_map.mpr (h.sorted.imp fun hlt => Nat.ne_of_lt hlt)
  have hset : quotients contribs quantum = (cells.map (·.index)).toFinset := by
    ext index
    rw [h.mem_quotients, List.mem_toFinset, List.mem_map]
    refine ⟨fun ⟨value, hvalue⟩ => ⟨_, Cell.mem_of_valueAt hvalue, rfl⟩, ?_⟩
    rintro ⟨cell, hcell, rfl⟩
    exact ⟨cell.value, Cell.valueAt_of_mem h.sorted hcell⟩
  rw [hset, List.toFinset_card_of_nodup hnodup, List.length_map]

lemma halve :
    Holds merge contribs (quantum * 2) (Cell.halve merge cells) where
  sorted := Cell.sorted_halve h.sorted
  merges index := by
    rw [Cell.valueAt_halve h.sorted]
    exact ((h.merges _).option (h.merges _)).perm (group_double _ _ _).symm

end

lemma mergeAt {value old : α} {position : Nat} (h : Holds merge contribs quantum cells)
    (hold : Cell.valueAt cells (position / quantum) = some old) :
    Holds merge (contribs ++ [(value, position)]) quantum
      (Cell.mergeAt merge (position / quantum) value cells) where
  sorted := Cell.sorted_mergeAt h.sorted
  merges index := by
    have hmerges := h.merges index
    rw [Cell.valueAt_mergeAt, group_concat]
    by_cases hindex : position / quantum = index
    · rw [if_pos hindex.symm, if_pos hindex]
      rw [hindex] at hold
      rw [hold] at hmerges ⊢
      exact hmerges.option (b := some value) ⟨[value], .refl _, .one value⟩
    · rw [if_neg (Ne.symm hindex), if_neg hindex, List.append_nil]
      exact hmerges

lemma insert {value : α} {position : Nat} (h : Holds merge contribs quantum cells)
    (hnew : Cell.valueAt cells (position / quantum) = none) :
    Holds merge (contribs ++ [(value, position)]) quantum
      (Cell.insert ⟨position / quantum, value⟩ cells) where
  sorted := Cell.sorted_insert h.sorted hnew
  merges index := by
    have hmerges := h.merges index
    rw [Cell.valueAt_insert hnew, group_concat]
    by_cases hindex : position / quantum = index
    · rw [if_pos hindex.symm, if_pos hindex]
      rw [← hindex, hnew] at hmerges
      rw [← hindex, show group contribs quantum (position / quantum) = [] from hmerges]
      exact ⟨[value], .refl _, .one value⟩
    · rw [if_neg (Ne.symm hindex), if_neg hindex, List.append_nil]
      exact hmerges

end Holds

/-! ### The least quantum that fits -/

lemma quotients_concat (contribs : List (α × Nat)) (value : α) (position quantum : Nat) :
    quotients (contribs ++ [(value, position)]) quantum =
      insert (position / quantum) (quotients contribs quantum) := by
  ext index
  rw [mem_quotients, Finset.mem_insert, mem_quotients]
  constructor
  · rintro ⟨x, hx, rfl⟩
    rcases List.mem_append.mp hx with hx | hx
    · exact .inr ⟨x, hx, rfl⟩
    · rw [List.mem_singleton.mp hx]
      exact .inl rfl
  · rintro (rfl | ⟨x, hx, rfl⟩)
    · exact ⟨_, List.mem_append_right _ List.mem_cons_self, rfl⟩
    · exact ⟨x, List.mem_append_left _ hx, rfl⟩

lemma card_quotients_mono (contribs : List (α × Nat)) (value : α) (position quantum : Nat) :
    (quotients contribs quantum).card ≤
      (quotients (contribs ++ [(value, position)]) quantum).card := by
  rw [quotients_concat]
  exact Finset.card_le_card (Finset.subset_insert _ _)

lemma card_quotients_double (contribs : List (α × Nat)) (quantum : Nat) :
    (quotients contribs (quantum * 2)).card ≤ (quotients contribs quantum).card := by
  have himage : quotients contribs (quantum * 2) ⊆
      (quotients contribs quantum).image (· / 2) := by
    intro index hindex
    obtain ⟨x, hx, rfl⟩ := mem_quotients.mp hindex
    refine Finset.mem_image.mpr ⟨x.2 / quantum, mem_quotients.mpr ⟨x, hx, rfl⟩, ?_⟩
    exact Nat.div_div_eq_div_mul _ _ _
  exact (Finset.card_le_card himage).trans Finset.card_image_le

lemma lt_of_card_quotients (hcapacity : 2 ≤ capacity) {contribs : List (α × Nat)}
    (hposs : ∀ x ∈ contribs, x.2 ≤ U64_MAX) {k : Nat}
    (h : capacity < (quotients contribs (2 ^ k)).card) : k < 63 := by
  by_contra hk
  have hpow : 2 ^ 63 ≤ 2 ^ k := Nat.pow_le_pow_right (by decide) (by omega)
  have hrange : quotients contribs (2 ^ k) ⊆ Finset.range 2 := by
    intro index hindex
    obtain ⟨x, hx, rfl⟩ := mem_quotients.mp hindex
    have hpos := hposs x hx
    rw [U64_MAX] at hpos
    exact Finset.mem_range.mpr (Nat.div_lt_of_lt_mul (by omega))
  have hcard := Finset.card_le_card hrange
  rw [Finset.card_range] at hcard
  omega

variable (merge) (capacity) in
/-- The grid that a list of contributions leaves, at the quantum `2 ^ k`. -/
structure Canonical (base : Nat) (contributions : List (α × Nat)) (grid : Grid α) (k : Nat) :
    Prop where
  quantum : grid.quantum = 2 ^ k
  doublings : grid.doublings = min (base + k) (2 ^ 32 - 1)
  holds : Holds merge contributions (2 ^ k) grid.cells
  fits : grid.cells.length ≤ capacity
  least : ∀ j < k, capacity < (quotients contributions (2 ^ j)).card

/-- **The loop of a push.**  Each turn keeps the cells of the earlier contributions and shows
that no smaller quantum fits the new ones. -/
lemma pushLoop_canonical (hcapacity : 2 ≤ capacity) {base : Nat} {contribs : List (α × Nat)}
    {value : α} {position : Nat}
    (hposs : ∀ x ∈ contribs ++ [(value, position)], x.2 ≤ U64_MAX) (grid : Grid α)
    (k : Nat) (hquant : grid.quantum = 2 ^ k)
    (hdoubl : grid.doublings = min (base + k) (2 ^ 32 - 1))
    (hholds : Holds merge contribs (2 ^ k) grid.cells) (hfits : grid.cells.length ≤ capacity)
    (hleast : ∀ j < k, capacity < (quotients (contribs ++ [(value, position)]) (2 ^ j)).card) :
    ∃ k', Canonical merge capacity base (contribs ++ [(value, position)])
      (grid.pushLoop merge capacity hcapacity value position) k' := by
  induction hsum : Cell.indexSum grid.cells using Nat.strong_induction_on generalizing grid k with
  | _ sum ih =>
    rw [pushLoop]
    split
    · -- the quotient has a cell
      rename_i old hfound
      rw [hquant] at hfound
      have hmerged : Holds merge (contribs ++ [(value, position)]) (2 ^ k)
          (Cell.mergeAt merge (position / 2 ^ k) value grid.cells) := hholds.mergeAt hfound
      refine ⟨k, hquant, hdoubl, ?_, ?_, hleast⟩
      · show Holds merge _ _ (Cell.mergeAt merge (position / grid.quantum) value grid.cells)
        rw [hquant]
        exact hmerged
      · exact (List.length_map _).le.trans hfits
    · rename_i hfound
      rw [hquant] at hfound
      split
      · -- a new cell fits
        rename_i hfull
        have hinserted : Holds merge (contribs ++ [(value, position)]) (2 ^ k)
            (Cell.insert ⟨position / 2 ^ k, value⟩ grid.cells) := hholds.insert hfound
        refine ⟨k, hquant, hdoubl, ?_, ?_, hleast⟩
        · show Holds merge _ _ (Cell.insert ⟨position / grid.quantum, value⟩ grid.cells)
          rw [hquant]
          exact hinserted
        · show (Cell.insert _ grid.cells).length ≤ capacity
          rw [Cell.length_insert]
          exact hfull
      · rename_i hfull
        -- the new quotient is one too many
        have hnew : position / 2 ^ k ∉ quotients contribs (2 ^ k) := by
          rw [hholds.mem_quotients, hfound]
          rintro ⟨_, h⟩
          cases h
        have hcard : capacity < (quotients (contribs ++ [(value, position)]) (2 ^ k)).card := by
          rw [quotients_concat, Finset.card_insert_of_notMem hnew, ← hholds.length_eq]
          omega
        have hk := lt_of_card_quotients hcapacity hposs hcard
        have hpow : 2 ^ (k + 1) ≤ 2 ^ 63 := Nat.pow_le_pow_right (by decide) hk
        have hpos : 0 < 2 ^ (k + 1) := Nat.pow_pos (by decide)
        have hhalved := hholds.halve
        rw [← Nat.pow_succ] at hhalved
        refine ih _ ?_ (grid.doubleQuantum merge) (k + 1) ?_ ?_ hhalved ?_ (fun j hj => ?_) rfl
        · rw [← hsum]
          exact Cell.indexSum_halve merge grid.sorted (hcapacity.trans (Nat.not_lt.mp hfull))
        · show max (min (grid.quantum * 2) U64_MAX) 1 = _
          rw [hquant, ← Nat.pow_succ, U64_MAX]
          omega
        · show min (grid.doublings + 1) (2 ^ 32 - 1) = _
          have hcount : ∀ count most : Nat, min (min count most + 1) most = min (count + 1) most := by
            omega
          rw [hdoubl, hcount, Nat.add_assoc]
        · show (Cell.halve merge grid.cells).length ≤ capacity
          rw [hhalved.length_eq, Nat.pow_succ]
          exact (card_quotients_double _ _).trans (hholds.length_eq.symm.le.trans hfits)
        · rcases Nat.lt_succ_iff_lt_or_eq.mp hj with hlt | rfl
          · exact hleast j hlt
          · exact hcard

structure Empty (grid : Grid α) : Prop where
  cells : grid.cells = []
  quantum : grid.quantum ≤ 1
  doublings : grid.doublings ≤ 2 ^ 32 - 1

@[simp] lemma started_cells (grid : Grid α) : grid.started.cells = grid.cells := by
  unfold started
  split <;> rfl

@[simp] lemma started_doublings (grid : Grid α) : grid.started.doublings = grid.doublings := by
  unfold started
  split <;> rfl

lemma started_of_ne {grid : Grid α} (h : grid.quantum ≠ 0) : grid.started = grid := if_neg h

lemma Empty.canonical {grid : Grid α} (h : grid.Empty) :
    Canonical merge capacity grid.doublings [] grid.started 0 := by
  have hquant := h.quantum
  have hcells : grid.started.cells = [] := (started_cells grid).trans h.cells
  refine ⟨?_, ?_, ?_, ?_, fun j hj => absurd hj (Nat.not_lt_zero j)⟩
  · rw [started]
    split_ifs with hzero
    · rfl
    · show grid.quantum = 1
      omega
  · rw [started_doublings, Nat.add_zero, Nat.min_eq_left h.doublings]
  · rw [hcells]
    exact ⟨.nil, fun index => rfl⟩
  · rw [hcells]
    exact Nat.zero_le _

/-- **Run lemma.**  A list of contributions leaves its canonical grid. -/
lemma pushAll_canonical (hcapacity : 2 ≤ capacity) {start : Grid α} (hstart : start.Empty)
    (contribs : List (α × Nat)) (hposs : ∀ x ∈ contribs, x.2 ≤ U64_MAX) :
    ∃ k, Canonical merge capacity start.doublings contribs
        (start.pushAll merge capacity hcapacity contribs).started k ∧
      (contribs ≠ [] → (start.pushAll merge capacity hcapacity contribs).quantum ≠ 0) := by
  induction contribs using List.reverseRecOn with
  | nil => exact ⟨0, hstart.canonical, fun h => absurd rfl h⟩
  | append_singleton contribs x ih =>
    obtain ⟨k, hcanon, -⟩ := ih fun y hy => hposs y (List.mem_append_left _ hy)
    obtain ⟨value, position⟩ := x
    have hpush : start.pushAll merge capacity hcapacity (contribs ++ [(value, position)]) =
        (start.pushAll merge capacity hcapacity contribs).started.pushLoop merge capacity
          hcapacity value position := by
      rw [pushAll, List.foldl_append]
      rfl
    obtain ⟨k', hpushed⟩ := pushLoop_canonical hcapacity hposs _ k hcanon.quantum
      hcanon.doublings hcanon.holds hcanon.fits fun j hj =>
        (hcanon.least j hj).trans_le (card_quotients_mono _ _ _ _)
    have hne : (start.pushAll merge capacity hcapacity (contribs ++ [(value, position)])).quantum
        ≠ 0 := by
      rw [hpush, hpushed.quantum]
      exact (Nat.pow_pos (by decide)).ne'
    refine ⟨k', ?_, fun _ => hne⟩
    rw [started_of_ne hne, hpush]
    exact hpushed

namespace Canonical

variable {base : Nat} {contribs other : List (α × Nat)} {grid grid' : Grid α} {k k' : Nat}

lemma isLeast (h : Canonical merge capacity base contribs grid k) :
    IsLeast {j | (quotients contribs (2 ^ j)).card ≤ capacity} k := by
  refine ⟨?_, fun j hj => ?_⟩
  · show (quotients contribs (2 ^ k)).card ≤ capacity
    rw [← h.holds.length_eq]
    exact h.fits
  · by_contra hlt
    have hcard : (quotients contribs (2 ^ j)).card ≤ capacity := hj
    exact absurd (h.least j (Nat.not_le.mp hlt)) (Nat.not_lt.mpr hcard)

lemma quotients_perm (h : contribs.Perm other) (quantum : Nat) :
    quotients contribs quantum = quotients other quantum := by
  ext index
  rw [mem_quotients, mem_quotients]
  exact exists_congr fun x => and_congr_left fun _ => h.mem_iff

lemma group_perm (h : contribs.Perm other) (quantum index : Nat) :
    (group contribs quantum index).Perm (group other quantum index) :=
  (h.filter _).map _

lemma quantum_eq (h : Canonical merge capacity base contribs grid k)
    (h' : Canonical merge capacity base other grid' k') (hperm : contribs.Perm other) :
    k = k' := by
  have hset : {j | (quotients contribs (2 ^ j)).card ≤ capacity} =
      {j | (quotients other (2 ^ j)).card ≤ capacity} := by
    refine Set.ext fun j => ?_
    show (quotients contribs (2 ^ j)).card ≤ capacity ↔
      (quotients other (2 ^ j)).card ≤ capacity
    rw [quotients_perm hperm]
  have hleast := h.isLeast
  rw [hset] at hleast
  exact hleast.unique h'.isLeast

end Canonical

/-! ### Values of merges -/

section Semigroup

variable {M : Type} [Semigroup M] {value : α → M}

section

variable (hmerge : ∀ a b, value (merge a b) = value a * value b)
include hmerge

lemma MergeOf.value_eq
    {a : α} (h : MergeOf merge xs a) :
    (value a : WithOne M) = (xs.map fun x => (value x : WithOne M)).prod := by
  induction h with
  | one a => exact (List.prod_singleton).symm
  | merge _ _ ih ih' => rw [hmerge, WithOne.coe_mul, ih, ih', List.map_append, List.prod_append]

lemma MergeOf.value_unique
    {a b : α} (h : MergeOf merge xs a) (h' : MergeOf merge ys b)
    (hperm : xs.Perm ys)
    (hcommute : ∀ x ∈ xs, ∀ y ∈ xs, value x * value y = value y * value x) :
    value a = value b := by
  have hproduct : (xs.map fun x => (value x : WithOne M)).prod =
      (ys.map fun x => (value x : WithOne M)).prod := by
    refine (hperm.map _).prod_eq' (List.pairwise_map.mpr ?_)
    refine List.Pairwise.imp_of_mem (R := fun _ _ => True) (fun hx hy _ => ?_)
      (List.pairwise_of_forall fun _ _ => trivial)
    show (value _ : WithOne M) * value _ = value _ * value _
    rw [← WithOne.coe_mul, ← WithOne.coe_mul, hcommute _ hx _ hy]
  rw [← WithOne.coe_inj, h.value_eq hmerge, h'.value_eq hmerge, hproduct]

lemma Merges.rel
    {a b : Option α} (h : Merges merge xs a) (h' : Merges merge ys b) (hperm : xs.Perm ys)
    (hcommute : ∀ x ∈ xs, ∀ y ∈ xs, value x * value y = value y * value x) :
    Option.Rel (fun a b => value a = value b) a b := by
  cases a with
  | none =>
    obtain rfl : xs = [] := h
    obtain rfl := hperm.symm.eq_nil
    cases b with
    | none => exact .none
    | some b =>
      obtain ⟨order, horder, htree⟩ := h'
      exact absurd horder.eq_nil htree.ne_nil
  | some a =>
    obtain ⟨order, horder, htree⟩ := h
    cases b with
    | none =>
      obtain rfl : ys = [] := h'
      exact absurd (horder.trans hperm).eq_nil htree.ne_nil
    | some b =>
      obtain ⟨order', horder', htree'⟩ := h'
      have hvalues := htree.value_unique hmerge htree'
        (horder.trans (hperm.trans horder'.symm)) fun x hx y hy =>
          hcommute x (horder.mem_iff.mp hx) y (horder.mem_iff.mp hy)
      exact .some hvalues

end

/-- **The order of the contributions does not matter** up to the value of the merges. -/
lemma pushAll_perm (hcapacity : 2 ≤ capacity) (hmerge : ∀ a b, value (merge a b) = value a * value b)
    {start : Grid α} (hstart : start.Empty) {contribs other : List (α × Nat)}
    (hposs : ∀ x ∈ contribs, x.2 ≤ U64_MAX) (hperm : contribs.Perm other)
    (hcommute : ∀ x ∈ contribs, ∀ y ∈ contribs,
      value x.1 * value y.1 = value y.1 * value x.1) :
    (start.pushAll merge capacity hcapacity other).quantum =
        (start.pushAll merge capacity hcapacity contribs).quantum ∧
      (start.pushAll merge capacity hcapacity other).doublings =
        (start.pushAll merge capacity hcapacity contribs).doublings ∧
      List.Forall₂ (fun cell cell' => cell.index = cell'.index ∧ value cell.value = value cell'.value)
        (start.pushAll merge capacity hcapacity contribs).cells
        (start.pushAll merge capacity hcapacity other).cells := by
  obtain ⟨k, hgrid, hquant⟩ :=
    @pushAll_canonical _ merge _ hcapacity start hstart contribs hposs
  obtain ⟨k', hgrid', hquant'⟩ :=
    @pushAll_canonical _ merge _ hcapacity start hstart other
      fun x hx => hposs x (hperm.mem_iff.mpr hx)
  obtain rfl := hgrid.quantum_eq hgrid' hperm
  refine ⟨?_, ?_, ?_⟩
  · -- without contributions both grids are the one they started from
    by_cases hcontrs : contribs = []
    · obtain rfl := hcontrs
      rw [hperm.symm.eq_nil]
    · have hother : other ≠ [] := fun h => hcontrs (h ▸ hperm).eq_nil
      have h := hgrid.quantum
      have h' := hgrid'.quantum
      rw [started_of_ne (hquant hcontrs)] at h
      rw [started_of_ne (hquant' hother)] at h'
      rw [h, h']
  · have h := hgrid.doublings
    have h' := hgrid'.doublings
    rw [started_doublings] at h h'
    rw [h, h']
  · have h := hgrid.holds
    have h' := hgrid'.holds
    rw [started_cells] at h h'
    refine @Cell.forall₂_of_valueAt _ _ (fun a b => value a = value b) _ _ h.sorted h'.sorted
      fun index => ?_
    refine (h.merges index).rel hmerge (h'.merges index) (Canonical.group_perm hperm _ _) ?_
    intro x hx y hy
    obtain ⟨a, ha, rfl⟩ := List.mem_map.mp hx
    obtain ⟨b, hb, rfl⟩ := List.mem_map.mp hy
    exact hcommute a (List.mem_filter.mp ha).1 b (List.mem_filter.mp hb).1

end Semigroup

end Grid

end Antiburn
