/-
Tables of keyed rows, and what a transaction does to them.

A table is the list of its rows in insertion order.  `update` is an UPDATE with a
WHERE clause, `insert` appends one row and `lookup` selects by key.  `Moves` says
that a transaction moved every row by `R` and added rows in `N`.  Transactions
compose whenever `R` composes and keeps `N`, so what one statement may do to one
row is all that a longer transaction may do.
-/
import Mathlib

namespace Antiburn

lemma List.around_getElem? {α : Type*} {l : List α} {i : Nat} {a : α} (h : l[i]? = some a) :
    ∃ before after, l = before ++ a :: after ∧ (∀ b, l.set i b = before ++ b :: after) ∧
      l.eraseIdx i = before ++ after := by
  obtain ⟨hlt, rfl⟩ := List.getElem?_eq_some_iff.mp h
  refine ⟨l.take i, l.drop (i + 1), ?_, fun b => ?_, List.eraseIdx_eq_take_drop_succ l i⟩
  · rw [← List.drop_eq_getElem_cons hlt, List.take_append_drop]
  · rw [List.set_eq_take_append_cons_drop, if_pos hlt]

section

variable {α : Type*} {before after : List α} {a b : α}

lemma List.mem_around : ∀ c ∈ before ++ after, c ∈ before ++ b :: after := fun _ hc =>
  ((List.sublist_cons_self b after).append_left before).subset hc

lemma List.forall_around {P : α → Prop} (hb : P b) (h : ∀ c ∈ before ++ a :: after, P c) :
    ∀ c ∈ before ++ b :: after, P c := by
  intro c hc
  rcases List.mem_cons.mp (List.perm_middle.mem_iff.mp hc) with rfl | hc
  · exact hb
  · exact h c (List.mem_around c hc)

end

namespace Table

variable {ρ κ : Type*}

/-- `UPDATE rows SET set WHERE condition`. -/
def update (condition : ρ → Bool) (set : ρ → ρ) (rows : List ρ) : List ρ :=
  rows.map fun row => if condition row then set row else row

/-- `INSERT INTO rows`. -/
def insert (row : ρ) (rows : List ρ) : List ρ := rows ++ [row]

/-- `SELECT * FROM rows WHERE key`. -/
def lookup [DecidableEq κ] (key : ρ → κ) (k : κ) (rows : List ρ) : Option ρ :=
  rows.find? fun row => key row == k

structure Moves (key : ρ → κ) (R : ρ → ρ → Prop) (N : ρ → Prop) (rows rows' : List ρ) : Prop where
  forward : ∀ row ∈ rows, ∃ row' ∈ rows', R row row'
  backward : ∀ row' ∈ rows', N row' ∨ ∃ row ∈ rows, R row row'
  nodup : (rows.map key).Nodup → (rows'.map key).Nodup

variable {set : ρ → ρ}

section Lookup

variable {key : ρ → κ} {rows : List ρ} {row row' : ρ} {k : κ}

lemma eq_of_key (hnodup : (rows.map key).Nodup) (hmem : row ∈ rows) (hmem' : row' ∈ rows)
    (hkey : key row = key row') : row = row' :=
  List.inj_on_of_nodup_map hnodup hmem hmem' hkey

variable [DecidableEq κ]

lemma lookup_eq_some (h : lookup key k rows = some row) : row ∈ rows ∧ key row = k := by
  unfold lookup at h
  have hkey := List.find?_some h
  exact ⟨List.mem_of_find?_eq_some h, eq_of_beq hkey⟩

lemma lookup_of_mem (hnodup : (rows.map key).Nodup) (hmem : row ∈ rows) :
    lookup key (key row) rows = some row := by
  have hsome : (lookup key (key row) rows).isSome := by
    rw [lookup, List.find?_isSome]
    exact ⟨row, hmem, beq_self_eq_true _⟩
  obtain ⟨found, hfound⟩ := Option.isSome_iff_exists.mp hsome
  obtain ⟨hmem', hkey⟩ := lookup_eq_some hfound
  rw [hfound, eq_of_key hnodup hmem' hmem hkey]

lemma lookup_update (hset : ∀ row, key (set row) = key row)
    (cond : ρ → Bool) (k : κ) (rows : List ρ) :
    lookup key k (update cond set rows) =
      (lookup key k rows).map fun row => if cond row then set row else row := by
  rw [lookup, update, List.find?_map]
  refine congrArg _ (congrArg (List.find? · rows) ?_)
  funext row
  show (key (if cond row then set row else row) == k) = (key row == k)
  split_ifs
  · rw [hset]
  · rfl

lemma map_key_update (hset : ∀ row, key (set row) = key row)
    (cond : ρ → Bool) (rows : List ρ) :
    (update cond set rows).map key = rows.map key := by
  rw [update, List.map_map]
  refine List.map_congr_left fun row _ => ?_
  show key (if cond row then set row else row) = key row
  split_ifs
  · exact hset row
  · rfl

lemma lookup_insert (row : ρ) (rows : List ρ) (k : κ) :
    lookup key k (insert row rows) =
      (lookup key k rows).or (if key row = k then some row else none) := by
  rw [lookup, insert, List.find?_append, List.find?_singleton]
  refine congrArg _ ?_
  by_cases h : key row = k
  · rw [if_pos (beq_iff_eq.mpr h), if_pos h]
  · rw [if_neg (fun h' => h (beq_iff_eq.mp h')), if_neg h]

lemma lookup_map {ρ' : Type*} {key' : ρ' → κ} {f : ρ → ρ'} (hf : ∀ row, key' (f row) = key row)
    (k : κ) (rows : List ρ) : lookup key' k (rows.map f) = (lookup key k rows).map f := by
  rw [lookup, List.find?_map]
  refine congrArg _ (congrArg (List.find? · rows) ?_)
  funext row
  show (key' (f row) == k) = (key row == k)
  rw [hf]

lemma lookup_update_of_not (hnodup : (rows.map key).Nodup) {cond : ρ → Bool}
    (hset : ∀ row, key (set row) = key row) (h : lookup key k rows = some row)
    (hnot : cond row = false) : lookup key k (update cond set rows) = some row := by
  obtain ⟨hmem, rfl⟩ := lookup_eq_some h
  have hmem' : row ∈ update cond set rows := by
    refine List.mem_map.mpr ⟨row, hmem, ?_⟩
    rw [if_neg (by rw [hnot]; exact Bool.false_ne_true)]
  refine lookup_of_mem ?_ hmem'
  rwa [map_key_update hset]

end Lookup

section Moves

variable {key : ρ → κ} {R R' : ρ → ρ → Prop} {N N' : ρ → Prop} {rows rows' rows'' : List ρ}

namespace Moves

lemma refl (hrefl : ∀ row, R row row) (rows : List ρ) : Moves key R N rows rows where
  forward row hmem := ⟨row, hmem, hrefl row⟩
  backward row hmem := .inr ⟨row, hmem, hrefl row⟩
  nodup := id

/-- **Transactions compose.** -/
lemma trans (htrans : ∀ a b c, R a b → R b c → R a c) (hnew : ∀ a b, N a → R a b → N b)
    (h : Moves key R N rows rows') (h' : Moves key R N rows' rows'') :
    Moves key R N rows rows'' where
  forward row hmem := by
    obtain ⟨row', hmem', hmove⟩ := h.forward row hmem
    obtain ⟨row'', hmem'', hmove'⟩ := h'.forward row' hmem'
    exact ⟨row'', hmem'', htrans _ _ _ hmove hmove'⟩
  backward row'' hmem'' := by
    rcases h'.backward row'' hmem'' with hnew' | ⟨row', hmem', hmove'⟩
    · exact .inl hnew'
    rcases h.backward row' hmem' with hnew' | ⟨row, hmem, hmove⟩
    · exact .inl (hnew _ _ hnew' hmove')
    · exact .inr ⟨row, hmem, htrans _ _ _ hmove hmove'⟩
  nodup hnodup := h'.nodup (h.nodup hnodup)

lemma mono (hmono : ∀ a b, R a b → R' a b) (hnew : ∀ a, N a → N' a)
    (h : Moves key R N rows rows') : Moves key R' N' rows rows' where
  forward row hmem := by
    obtain ⟨row', hmem', hmove⟩ := h.forward row hmem
    exact ⟨row', hmem', hmono _ _ hmove⟩
  backward row' hmem' := by
    rcases h.backward row' hmem' with hfresh | ⟨row, hmem, hmove⟩
    · exact .inl (hnew row' hfresh)
    · exact .inr ⟨row, hmem, hmono _ _ hmove⟩
  nodup := h.nodup

lemma update (hkey : ∀ a b, R a b → key b = key a) (hrefl : ∀ row, R row row)
    {cond : ρ → Bool}
    (hset : ∀ row ∈ rows, cond row = true → R row (set row)) :
    Moves key R N rows (Table.update cond set rows) := by
  have hmove : ∀ row ∈ rows, R row (if cond row then set row else row) := by
    intro row hmem
    split_ifs with hcond
    · exact hset row hmem hcond
    · exact hrefl row
  refine ⟨fun row hmem => ⟨_, List.mem_map_of_mem hmem, hmove row hmem⟩, fun row' hmem' => ?_,
    fun hnodup => ?_⟩
  · obtain ⟨row, hmem, rfl⟩ := List.mem_map.mp hmem'
    exact .inr ⟨row, hmem, hmove row hmem⟩
  · have hkeys : (Table.update cond set rows).map key = rows.map key := by
      rw [Table.update, List.map_map]
      exact List.map_congr_left fun row hmem => hkey _ _ (hmove row hmem)
    rwa [hkeys]

lemma insert (hrefl : ∀ row, R row row) {row : ρ} (hnew : N row)
    (hfresh : ∀ other ∈ rows, key other ≠ key row) :
    Moves key R N rows (Table.insert row rows) where
  forward other hmem := ⟨other, List.mem_append_left _ hmem, hrefl other⟩
  backward other hmem := by
    rcases List.mem_append.mp hmem with hmem | hmem
    · exact .inr ⟨other, hmem, hrefl other⟩
    · rw [List.mem_singleton.mp hmem]
      exact .inl hnew
  nodup hnodup := by
    rw [Table.insert, List.map_append, List.map_singleton, List.nodup_append]
    refine ⟨hnodup, List.nodup_singleton _, fun k hmem k' hmem' => ?_⟩
    obtain ⟨other, hother, rfl⟩ := List.mem_map.mp hmem
    rw [List.mem_singleton.mp hmem']
    exact hfresh other hother

end Moves

end Moves

end Table

end Antiburn
