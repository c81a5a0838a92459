/-
Bounded stores of keyed items with conflicts.

A store keeps items oldest first, with the position of every key and a counter of
bytes.  An item that is recorded under a new key makes the oldest leave; two items
under one key are a conflict: neither is kept, and the key goes to the conflicts.
When the conflicts are too many, one key stands for all of them and nothing is kept
any more.
-/
import Mathlib

namespace Antiburn

namespace KeyedStore

variable {index : Nat}

section Positions

variable {τ κ : Type*} [DecidableEq κ]

def positions (key : τ → Option κ) (items : List τ) : κ → Option Nat :=
  items.zipIdx.foldl (fun found (item, index) =>
    match key item with
    | some key => Function.update found key (some index)
    | none => found) fun _ => none

/-- One more item. -/
def addPosition (key : Option κ) (index : Nat) (found : κ → Option Nat) : κ → Option Nat :=
  match key with
  | some key => Function.update found key (some index)
  | none => found

lemma addPosition_some (k : κ) (index : Nat) (found : κ → Option Nat) :
    addPosition (some k) index found = Function.update found k (some index) := rfl

lemma addPosition_none (index : Nat) (found : κ → Option Nat) :
    addPosition none index found = found := rfl

lemma positions_nil (key : τ → Option κ) : positions key [] = fun _ => none := rfl

lemma positions_snoc (key : τ → Option κ) (items : List τ) (item : τ) :
    positions key (items ++ [item]) =
      addPosition (key item) items.length (positions key items) := by
  unfold positions
  rw [List.zipIdx_append, List.foldl_append, Nat.zero_add]
  rfl

variable {key : τ → Option κ}

lemma positions_map (f : τ → τ) (items : List τ)
    (h : ∀ item, key (f item) = key item) : positions key (items.map f) = positions key items := by
  induction items using List.reverseRecOn with
  | nil => rfl
  | append_singleton items item ih =>
    rw [List.map_append, List.map_singleton, positions_snoc, positions_snoc, h, ih,
      List.length_map]

lemma positions_eq_none {items : List τ} {k : κ} :
    positions key items k = none ↔ ∀ item ∈ items, key item ≠ some k := by
  induction items using List.reverseRecOn with
  | nil => simp [positions_nil]
  | append_singleton items item ih =>
    rw [positions_snoc]
    cases hkey : key item with
    | none =>
      rw [addPosition_none, ih, List.forall_mem_append, List.forall_mem_singleton]
      simp [hkey]
    | some other =>
      rw [addPosition_some]
      by_cases heq : k = other
      · subst heq
        rw [Function.update_self]
        simp [hkey]
      · rw [Function.update_of_ne heq, ih, List.forall_mem_append, List.forall_mem_singleton]
        have hne : ¬other = k := fun h => heq h.symm
        simp [hkey, hne]

lemma positions_eq_some {items : List τ} {k : κ}
    (hdist : (items.filterMap key).Nodup) :
    positions key items k = some index ↔ ∃ item, items[index]? = some item ∧ key item = some k := by
  induction items using List.reverseRecOn with
  | nil => simp [positions_nil]
  | append_singleton items item ih =>
    rw [List.filterMap_append, List.nodup_append] at hdist
    have hrest := ih hdist.1
    have hold : ∀ {found}, items[index]? = some found → (items ++ [item])[index]? = some found := by
      intro found hfound
      rw [List.getElem?_append_left (List.getElem?_eq_some_iff.mp hfound).1, hfound]
    have hnew : ∀ {found}, (items ++ [item])[index]? = some found →
        items[index]? = some found ∨ index = items.length ∧ found = item := by
      intro found hfound
      by_cases hlt : index < items.length
      · rw [List.getElem?_append_left hlt] at hfound
        exact .inl hfound
      · have hbound := (List.getElem?_eq_some_iff.mp hfound).1
        rw [List.length_append, List.length_singleton] at hbound
        have heq : index = items.length := by omega
        subst heq
        rw [List.getElem?_concat_length] at hfound
        exact .inr ⟨rfl, (Option.some.inj hfound).symm⟩
    rw [positions_snoc]
    cases hkey : key item with
    | none =>
      rw [addPosition_none, hrest]
      refine ⟨fun ⟨found, hfound, hk⟩ => ⟨found, hold hfound, hk⟩, fun ⟨found, hfound, hk⟩ => ?_⟩
      rcases hnew hfound with hfound | ⟨-, rfl⟩
      · exact ⟨found, hfound, hk⟩
      · rw [hkey] at hk
        cases hk
    | some other =>
      rw [addPosition_some]
      by_cases heq : k = other
      · subst heq
        rw [Function.update_self]
        refine ⟨fun hindex => ⟨item, ?_, hkey⟩, fun ⟨found, hfound, hk⟩ => ?_⟩
        · rw [← Option.some.inj hindex, List.getElem?_concat_length]
        · rcases hnew hfound with hfound | ⟨rfl, -⟩
          · -- no older item has the key
            have hmem : k ∈ items.filterMap key :=
              List.mem_filterMap.mpr ⟨found, List.mem_of_getElem? hfound, hk⟩
            refine absurd rfl (hdist.2.2 k hmem k ?_)
            simp [hkey]
          · rfl
      · rw [Function.update_of_ne heq, hrest]
        refine ⟨fun ⟨found, hfound, hk⟩ => ⟨found, hold hfound, hk⟩, fun ⟨found, hfound, hk⟩ => ?_⟩
        rcases hnew hfound with hfound | ⟨-, rfl⟩
        · exact ⟨found, hfound, hk⟩
        · rw [hkey] at hk
          exact absurd (Option.some.inj hk).symm heq

end Positions

/-! ### Stores -/

structure Costs (τ κ : Type*) where
  key : τ → Option κ
  size : τ → Nat
  keySize : κ → Nat
  /-- The key that stands for all conflicts. -/
  blocked : κ
  maxItems : Nat
  maxBytes : Nat

structure Store (τ κ : Type*) where
  items : List τ
  indices : κ → Option Nat
  conflicts : Finset κ
  bytes : Nat
  complete : Bool

variable {τ κ : Type*} [DecidableEq κ] {costs : Costs τ κ} {store next : Store τ κ} {item : τ}

def Costs.itemBytes (costs : Costs τ κ) (items : List τ) : Nat := (items.map costs.size).sum

def Costs.keyBytes (costs : Costs τ κ) (conflicts : Finset κ) : Nat :=
  ∑ key ∈ conflicts, costs.keySize key

structure Valid (costs : Costs τ κ) (store : Store τ κ) : Prop where
  indices : store.indices = positions costs.key store.items
  distinct : (store.items.filterMap costs.key).Nodup
  apart : ∀ item ∈ store.items, ∀ key, costs.key item = some key → key ∉ store.conflicts
  bytes : store.bytes = costs.itemBytes store.items + costs.keyBytes store.conflicts
  few : store.items.length ≤ costs.maxItems
  blocked : costs.blocked ∈ store.conflicts →
    store.conflicts = {costs.blocked} ∧ store.complete = false

def Out (costs : Costs τ κ) (store : Store τ κ) (key : κ) : Prop :=
  (∀ item ∈ store.items, costs.key item ≠ some key) ∧
    (key ∈ store.conflicts ∨ costs.blocked ∈ store.conflicts)

/-- Some of the oldest items leave. -/
def Store.evicted (costs : Costs τ κ) (store : Store τ κ) (count : Nat) : Store τ κ :=
  { store with
    items := store.items.drop count
    indices := positions costs.key (store.items.drop count)
    bytes := store.bytes - costs.itemBytes (store.items.take count)
    complete := store.complete && decide (count = 0) }

lemma Valid.evicted_zero (h : Valid costs store) : store.evicted costs 0 = store := by
  have hindices := h.indices
  unfold Store.evicted Costs.itemBytes
  simp only [List.drop_zero, List.take_zero, List.map_nil, List.sum_nil, Nat.sub_zero,
    decide_true, Bool.and_true]
  rw [← hindices]

def Store.pushed (costs : Costs τ κ) (store : Store τ κ) (item : τ) : Store τ κ :=
  { store with
    items := store.items ++ [item]
    indices := addPosition (costs.key item) store.items.length store.indices
    bytes := store.bytes + costs.size item }

/-- An item is taken out. -/
def Store.erased (costs : Costs τ κ) (store : Store τ κ) (index : Nat) : Store τ κ :=
  { store with
    items := store.items.eraseIdx index
    indices := positions costs.key (store.items.eraseIdx index)
    bytes := store.bytes - ((store.items[index]?).map costs.size).getD 0
    complete := false }

def Store.conflicted (costs : Costs τ κ) (store : Store τ κ) (key : κ) : Store τ κ :=
  { store with
    conflicts := insert key store.conflicts
    bytes := store.bytes + costs.keySize key
    complete := false }

/-- One key stands for all conflicts. -/
def Store.block (costs : Costs τ κ) (store : Store τ κ) : Store τ κ :=
  { store with
    conflicts := {costs.blocked}
    bytes := store.bytes - costs.keyBytes store.conflicts
    complete := false }

inductive Step (costs : Costs τ κ) (item : τ) (store : Store τ κ) : Store τ κ → Prop
  | same (kept : item ∈ store.items) : Step costs item store store
  | refuses : Step costs item store { store with complete := false }
  /-- The oldest make room, and still there may be too little. -/
  | drops (count : Nat) : Step costs item store { store.evicted costs count with complete := false }
  | keeps (count : Nat) (opened : costs.blocked ∉ store.conflicts)
      (fresh : ∀ key, costs.key item = some key →
        store.indices key = none ∧ key ∉ store.conflicts)
      (room : (store.items.drop count).length < costs.maxItems)
      (fits : (store.evicted costs count).bytes + costs.size item ≤ costs.maxBytes) :
      Step costs item store ((store.evicted costs count).pushed costs item)
  | clashes (key : κ) (index : Nat) (opened : costs.blocked ∉ store.conflicts)
      (found : store.indices key = some index) (real : key ≠ costs.blocked)
      (fits : (store.erased costs index).bytes + costs.keySize key ≤ costs.maxBytes) :
      Step costs item store ((store.erased costs index).conflicted costs key)
  | clashesFull (key : κ) (index : Nat) (opened : costs.blocked ∉ store.conflicts)
      (found : store.indices key = some index) :
      Step costs item store ((store.erased costs index).block costs)
  | marks (key : κ) (opened : costs.blocked ∉ store.conflicts) (gone : store.indices key = none)
      (fresh : key ∉ store.conflicts) (real : key ≠ costs.blocked)
      (fits : store.bytes + costs.keySize key ≤ costs.maxBytes) :
      Step costs item store (store.conflicted costs key)
  | marksFull (key : κ) (opened : costs.blocked ∉ store.conflicts) :
      Step costs item store (store.block costs)

section Invariants

/-- No item has the blocking key. -/
def Costs.Real (costs : Costs τ κ) : Prop := ∀ item, costs.key item ≠ some costs.blocked

variable {key : κ}

section

variable (h : Valid costs store)
include h

lemma Valid.incomplete :
    Valid costs { store with complete := false } :=
  { h with blocked := fun hblock => ⟨(h.blocked hblock).1, rfl⟩ }

lemma Valid.evicted (count : Nat) :
    Valid costs (store.evicted costs count) where
  indices := rfl
  distinct := h.distinct.sublist ((List.drop_sublist _ _).filterMap _)
  apart := fun item hitem => h.apart item (List.mem_of_mem_drop hitem)
  bytes := by
    have hsplit : costs.itemBytes store.items = costs.itemBytes (store.items.take count) +
        costs.itemBytes (store.items.drop count) := by
      unfold Costs.itemBytes
      rw [← List.sum_append, ← List.map_append, List.take_append_drop]
    show store.bytes - _ = _
    rw [h.bytes, hsplit]
    simp only [Store.evicted]
    omega
  few := by
    have hfew := h.few
    show (store.items.drop count).length ≤ _
    rw [List.length_drop]
    omega
  blocked := fun hblock => by
    obtain ⟨heq, hcomp⟩ := h.blocked hblock
    exact ⟨heq, by simp [Store.evicted, hcomp]⟩

lemma Valid.erased (hindex : index < store.items.length) :
    Valid costs (store.erased costs index) where
  indices := rfl
  distinct := h.distinct.sublist ((List.eraseIdx_sublist _ _).filterMap _)
  apart := fun item hitem => h.apart item (List.mem_of_mem_eraseIdx hitem)
  bytes := by
    have hsplit : costs.itemBytes store.items = costs.size store.items[index] +
        costs.itemBytes (store.items.eraseIdx index) := by
      unfold Costs.itemBytes
      rw [← List.sum_cons, ← List.map_cons]
      exact ((List.getElem_cons_eraseIdx_perm hindex).symm.map _).sum_eq
    show store.bytes - _ = _
    rw [h.bytes, hsplit, List.getElem?_eq_getElem hindex]
    simp only [Store.erased, Option.map_some, Option.getD_some]
    omega
  few := by
    have hfew := h.few
    show (store.items.eraseIdx index).length ≤ _
    rw [List.length_eraseIdx_of_lt hindex]
    omega
  blocked := fun hblock => ⟨(h.blocked hblock).1, rfl⟩

lemma Valid.conflicted (hopen : costs.blocked ∉ store.conflicts) (hreal : key ≠ costs.blocked)
    (hgone : ∀ item ∈ store.items, costs.key item ≠ some key) (hfresh : key ∉ store.conflicts) :
    Valid costs (store.conflicted costs key) where
  indices := h.indices
  distinct := h.distinct
  apart := by
    intro item hitem other hother hmem
    rcases Finset.mem_insert.mp hmem with rfl | hmem
    · exact hgone item hitem hother
    · exact h.apart item hitem other hother hmem
  bytes := by
    show store.bytes + _ = _ + ∑ other ∈ insert key store.conflicts, _
    rw [Finset.sum_insert hfresh, h.bytes]
    show costs.itemBytes store.items + costs.keyBytes store.conflicts + costs.keySize key =
      costs.itemBytes store.items + (costs.keySize key + costs.keyBytes store.conflicts)
    omega
  few := h.few
  blocked := fun hmem => by
    rcases Finset.mem_insert.mp hmem with heq | hmem
    · exact absurd heq.symm hreal
    · exact absurd hmem hopen

lemma Valid.block (hkeys : costs.Real)
    (hempty : costs.keySize costs.blocked = 0) : Valid costs (store.block costs) where
  indices := h.indices
  distinct := h.distinct
  apart := by
    intro item hitem key hkey hmem
    rw [Finset.mem_singleton.mp hmem] at hkey
    exact hkeys item hkey
  bytes := by
    show store.bytes - _ = _ + ∑ other ∈ {costs.blocked}, _
    rw [Finset.sum_singleton, hempty, h.bytes]
    show _ + _ - _ = costs.itemBytes store.items + 0
    omega
  few := h.few
  blocked := fun _ => ⟨rfl, rfl⟩

lemma Valid.pushed (hopen : costs.blocked ∉ store.conflicts)
    (hfresh : ∀ key, costs.key item = some key →
      (∀ other ∈ store.items, costs.key other ≠ some key) ∧ key ∉ store.conflicts)
    (hroom : store.items.length < costs.maxItems) :
    Valid costs (store.pushed costs item) where
  indices := by
    show addPosition _ _ _ = positions costs.key (store.items ++ [item])
    rw [positions_snoc, h.indices]
  distinct := by
    show ((store.items ++ [item]).filterMap costs.key).Nodup
    rw [List.filterMap_append]
    cases hkey : costs.key item with
    | none => simpa [hkey] using h.distinct
    | some key =>
      have hnew : key ∉ store.items.filterMap costs.key := by
        intro hmem
        obtain ⟨other, hother, heq⟩ := List.mem_filterMap.mp hmem
        exact (hfresh key hkey).1 other hother heq
      rw [show [item].filterMap costs.key = [key] by simp [hkey], List.nodup_append]
      refine ⟨h.distinct, List.nodup_singleton _, fun other hother last hlast heq => ?_⟩
      rw [List.mem_singleton.mp hlast] at heq
      exact hnew (heq ▸ hother)
  apart := by
    intro other hother key hkey
    rcases List.mem_append.mp hother with hother | hother
    · exact h.apart other hother key hkey
    · rw [List.mem_singleton.mp hother] at hkey
      exact (hfresh key hkey).2
  bytes := by
    show store.bytes + _ = costs.itemBytes (store.items ++ [item]) + _
    unfold Costs.itemBytes
    rw [List.map_append, List.sum_append, h.bytes]
    simp only [List.map_cons, List.map_nil, List.sum_cons, List.sum_nil]
    show costs.itemBytes store.items + costs.keyBytes store.conflicts + costs.size item =
      costs.itemBytes store.items + (costs.size item + 0) + costs.keyBytes store.conflicts
    omega
  few := by
    show (store.items ++ [item]).length ≤ _
    rw [List.length_append, List.length_singleton]
    omega
  blocked := fun hblock => absurd hblock hopen

lemma Valid.gone (hnone : store.indices key = none) :
    ∀ item ∈ store.items, costs.key item ≠ some key := by
  rw [h.indices, positions_eq_none] at hnone
  exact hnone

lemma Valid.found :
    store.indices key = some index ↔
      ∃ item, store.items[index]? = some item ∧ costs.key item = some key := by
  rw [h.indices]
  exact positions_eq_some h.distinct

lemma Valid.erased_gone (hfound : store.indices key = some index) :
    ∀ item ∈ (store.erased costs index).items, costs.key item ≠ some key := by
  obtain ⟨found, hat, hkey⟩ := h.found.mp hfound
  obtain ⟨hindex, hget⟩ := List.getElem?_eq_some_iff.mp hat
  intro item hitem heq
  have hperm := (List.getElem_cons_eraseIdx_perm hindex).filterMap costs.key
  have hnodup := hperm.symm.nodup h.distinct
  rw [hget, List.filterMap_cons, hkey] at hnodup
  exact (List.nodup_cons.mp hnodup).1 (List.mem_filterMap.mpr ⟨item, hitem, heq⟩)

end

section

variable (hstep : Step costs item store next)
include hstep

lemma Step.valid (h : Valid costs store)
    (hkeys : costs.Real) (hempty : costs.keySize costs.blocked = 0) : Valid costs next := by
  cases hstep with
  | same _ => exact h
  | refuses => exact h.incomplete
  | drops count => exact (h.evicted count).incomplete
  | keeps count opened fresh room fits =>
    refine (h.evicted count).pushed opened (fun key hkey => ⟨?_, (fresh key hkey).2⟩) room
    intro other hother
    exact h.gone (fresh key hkey).1 other (List.mem_of_mem_drop hother)
  | clashes key index opened found real fits =>
    obtain ⟨kept, hat, hkey⟩ := h.found.mp found
    have hindex := (List.getElem?_eq_some_iff.mp hat).1
    exact (h.erased hindex).conflicted opened real (h.erased_gone found)
      (h.apart kept (List.mem_of_getElem? hat) key hkey)
  | clashesFull key index opened found =>
    obtain ⟨kept, hat, -⟩ := h.found.mp found
    exact (h.erased (List.getElem?_eq_some_iff.mp hat).1).block hkeys hempty
  | marks key opened gone fresh real fits => exact h.conflicted opened real (h.gone gone) fresh
  | marksFull key opened => exact h.block hkeys hempty

lemma Step.mem {other : τ} (h : other ∈ next.items) :
    other ∈ store.items ∨ other = item := by
  cases hstep with
  | same _ | refuses | marks | marksFull => exact .inl h
  | drops count => exact .inl (List.mem_of_mem_drop h)
  | keeps count opened fresh room fits =>
    rcases List.mem_append.mp h with h | h
    · exact .inl (List.mem_of_mem_drop h)
    · exact .inr (List.mem_singleton.mp h)
  | clashes | clashesFull => exact .inl (List.mem_of_mem_eraseIdx h)

lemma Step.out (hout : Out costs store key) : Out costs next key := by
  obtain ⟨hgone, hwhy⟩ := hout
  cases hstep with
  | same | refuses => exact ⟨hgone, hwhy⟩
  | drops count => exact ⟨fun other hother => hgone other (List.mem_of_mem_drop hother), hwhy⟩
  | keeps count opened fresh room fits =>
    refine ⟨fun other hother heq => ?_, hwhy⟩
    rcases List.mem_append.mp hother with hother | hother
    · exact hgone other (List.mem_of_mem_drop hother) heq
    · -- a kept item has no key that is out
      rw [List.mem_singleton.mp hother] at heq
      exact (fresh key heq).2 (hwhy.resolve_right opened)
  | clashes other index opened found real fits =>
    exact ⟨fun kept hkept => hgone kept (List.mem_of_mem_eraseIdx hkept),
      .inl (Finset.mem_insert_of_mem (hwhy.resolve_right opened))⟩
  | clashesFull other index opened found =>
    exact ⟨fun kept hkept => hgone kept (List.mem_of_mem_eraseIdx hkept),
      .inr (Finset.mem_singleton_self _)⟩
  | marks other opened gone fresh real fits =>
    exact ⟨hgone, .inl (Finset.mem_insert_of_mem (hwhy.resolve_right opened))⟩
  | marksFull other opened => exact ⟨hgone, .inr (Finset.mem_singleton_self _)⟩

end

lemma Valid.out (h : Valid costs store) (hmem : key ∈ store.conflicts) :
    Out costs store key :=
  ⟨fun item hitem heq => h.apart item hitem key heq hmem, .inl hmem⟩

lemma Step.within (hstep : Step costs item store next) (h : store.bytes ≤ costs.maxBytes) :
    next.bytes ≤ costs.maxBytes := by
  cases hstep with
  | same | refuses => exact h
  | drops count => exact (Nat.sub_le _ _).trans h
  | keeps count opened fresh room fits => exact fits
  | clashes key index opened found real fits => exact fits
  | clashesFull key index opened found => exact (Nat.sub_le _ _).trans ((Nat.sub_le _ _).trans h)
  | marks key opened gone fresh real fits => exact fits
  | marksFull key opened => exact (Nat.sub_le _ _).trans h

lemma Step.complete (hstep : Step costs item store next) (h : next.complete = true) :
    store.complete = true ∧ (∀ other ∈ store.items, other ∈ next.items) ∧ item ∈ next.items := by
  cases hstep with
  | same kept => exact ⟨h, fun _ hother => hother, kept⟩
  | keeps count opened fresh room fits =>
    rw [Store.pushed, Store.evicted, Bool.and_eq_true, decide_eq_true_eq] at h
    obtain ⟨hcomp, rfl⟩ := h
    exact ⟨hcomp, fun _ hother => List.mem_append_left _ hother,
      List.mem_append_right _ List.mem_cons_self⟩
  | refuses | drops | clashes | clashesFull | marks | marksFull => cases h

end Invariants

end KeyedStore

end Antiburn
