/-
The reorder window sorts what it promises to sort.

A slot moves at most twice: when it arrives and when it leaves, each time up to the
last slot that left by then.  `Follows` ties the window to the list of what has left
and to the arrivals that are still inside; one lemma says what leaving does to it,
one what arriving does.
-/
import Antiburn.MetricsSlots
import Mathlib

namespace Antiburn

/-! ### Order of keys -/

variable {a b : Int × Nat} {slots rest : List SlotAggregate} {slot : SlotAggregate}

lemma keyLt_iff : keyLt a b = true ↔ a.1 < b.1 ∨ a.1 = b.1 ∧ a.2 < b.2 := by
  simp [keyLt]

lemma keyLt_trans {c : Int × Nat} (hab : keyLt a b = true) (hbc : keyLt b c = true) :
    keyLt a c = true := by
  rw [keyLt_iff] at *
  omega

lemma keyLt_of_not (hne : a ≠ b) (h : ¬keyLt a b = true) :
    keyLt b a = true := by
  have hparts : ¬(a.1 = b.1 ∧ a.2 = b.2) := fun heq => hne (Prod.ext heq.1 heq.2)
  rw [keyLt_iff] at *
  omega

lemma keyLt_asymm (h : keyLt a b = true) : ¬keyLt b a = true := by
  rw [keyLt_iff] at *
  omega

lemma not_keyLt_trans {c : Int × Nat} (hab : ¬keyLt b a = true) (hbc : ¬keyLt c b = true) :
    ¬keyLt c a = true := by
  rw [keyLt_iff] at *
  omega

/-! ### The search for the least slot -/

lemma takeMinimum_eq_none (h : takeMinimum slots = none) :
    slots = [] := by
  cases slots with
  | nil => rfl
  | cons slot rest =>
    unfold takeMinimum at h
    split at h
    · cases h
    · split_ifs at h

lemma takeMinimum_spec {least : SlotAggregate}
    (h : takeMinimum slots = some (least, rest)) :
    ∃ before after, slots = before ++ least :: after ∧ rest = before ++ after ∧
      ∀ other ∈ rest, ¬keyLt other.key least.key = true := by
  induction slots generalizing least rest with
  | nil => cases h
  | cons slot slots ih =>
    unfold takeMinimum at h
    cases hrest : takeMinimum slots with
    | none =>
      rw [hrest] at h
      cases h
      obtain rfl := takeMinimum_eq_none hrest
      exact ⟨[], [], rfl, rfl, fun _ hmem => by cases hmem⟩
    | some taken =>
      obtain ⟨other, others⟩ := taken
      obtain ⟨before, after, rfl, rfl, hleast⟩ := ih hrest
      rw [hrest] at h
      dsimp only at h
      split_ifs at h with hlt
      · cases h
        refine ⟨slot :: before, after, rfl, rfl, fun x hx => ?_⟩
        rcases List.mem_cons.mp hx with rfl | hx
        · exact keyLt_asymm hlt
        · exact hleast x hx
      · cases h
        refine ⟨[], before ++ other :: after, rfl, rfl, fun x hx => ?_⟩
        rcases List.mem_append.mp hx with hx | hx
        · exact not_keyLt_trans hlt (hleast x (List.mem_append_left _ hx))
        · rcases List.mem_cons.mp hx with rfl | hx
          · exact hlt
          · exact not_keyLt_trans hlt (hleast x (List.mem_append_right _ hx))

lemma inOrder_pair (slot next : SlotAggregate) (rest : List SlotAggregate) :
    inOrder (slot :: next :: rest) = (!keyLt next.key slot.key && inOrder (next :: rest)) := rfl

lemma inOrder_cons
    (h : inOrder (slot :: rest) = true) :
    inOrder rest = true ∧ ∀ other ∈ rest, ¬keyLt other.key slot.key = true := by
  induction rest generalizing slot with
  | nil => exact ⟨rfl, fun _ hmem => by cases hmem⟩
  | cons next rest ih =>
    rw [inOrder_pair, Bool.and_eq_true, Bool.not_eq_true'] at h
    obtain ⟨hnext, hrest⟩ := h
    obtain ⟨-, hall⟩ := ih hrest
    rw [← Bool.not_eq_true] at hnext
    refine ⟨hrest, fun other hmem => ?_⟩
    rcases List.mem_cons.mp hmem with rfl | hmem
    · exact hnext
    · exact not_keyLt_trans hnext (hall other hmem)

lemma takeMinimum_of_inOrder
    (h : inOrder (slot :: rest) = true) : takeMinimum (slot :: rest) = some (slot, rest) := by
  unfold takeMinimum
  cases hrest : takeMinimum rest with
  | none =>
    obtain rfl := takeMinimum_eq_none hrest
    rfl
  | some taken =>
    obtain ⟨least, others⟩ := taken
    obtain ⟨before, after, rfl, -, -⟩ := takeMinimum_spec hrest
    have hlast := (inOrder_cons h).2 least (List.mem_append_right _ List.mem_cons_self)
    exact if_neg hlast

lemma inOrder_concat
    (h : inOrder slots = true) (hlast : ∀ last ∈ slots.getLast?, ¬keyLt slot.key last.key = true) :
    inOrder (slots ++ [slot]) = true := by
  induction slots with
  | nil => rfl
  | cons first rest ih =>
    cases rest with
    | nil =>
      show (!keyLt slot.key first.key && true) = true
      have hnot := Bool.not_eq_true _ ▸ hlast first rfl
      rw [hnot]
      rfl
    | cons next rest =>
      rw [inOrder_pair, Bool.and_eq_true] at h
      show (!keyLt next.key first.key && inOrder ((next :: rest) ++ [slot])) = true
      rw [h.1, ih h.2 hlast]
      rfl

/-! ### Moving up to what left last -/

def SlotAggregate.isBehind (last : Option (Int × Nat)) (slot : SlotAggregate) : Bool :=
  last.any fun last => keyLt slot.key last

def SlotAggregate.clampBehind (last : Option (Int × Nat)) (slot : SlotAggregate) : SlotAggregate :=
  match last with
  | none => slot
  | some last => if keyLt slot.key last then slot.clampTimestamp last.1 else slot

def lastKey (left : List SlotAggregate) : Option (Int × Nat) := left.getLast?.map SlotAggregate.key

lemma SlotAggregate.clampBehind_of_not {last : Option (Int × Nat)}
    (h : slot.isBehind last = false) : slot.clampBehind last = slot := by
  unfold clampBehind
  split
  · rfl
  · exact if_neg (Bool.not_eq_true _ ▸ h)

lemma SlotAggregate.le_firstTs_clampBehind {last : Int × Nat} :
    last.1 ≤ (slot.clampBehind (some last)).firstTs := by
  unfold clampBehind
  dsimp only
  split_ifs with h
  · exact Int.le_refl _
  · rw [keyLt_iff, not_or] at h
    exact Int.not_lt.mp h.1

namespace ReorderWindow

def FlagRight (window : ReorderWindow) : Prop :=
  window.ordered = true → inOrder window.entries = true

lemma clampIfBehind_eq (window : ReorderWindow) (slot : SlotAggregate) :
    window.clampIfBehind slot = (slot.clampBehind window.lastPopped,
      { window with overflow :=
          if slot.isBehind window.lastPopped then saturatingAdd window.overflow 1
          else window.overflow }) := by
  obtain ⟨entries, ordered, last, overflow⟩ := window
  unfold clampIfBehind SlotAggregate.clampBehind SlotAggregate.isBehind
  cases last with
  | none => rfl
  | some last =>
    by_cases h : keyLt slot.key last = true
    · simp [h]
    · simp [h]

def leave (window : ReorderWindow) (slot : SlotAggregate) (rest : List SlotAggregate)
    (ordered : Bool) : ReorderWindow where
  entries := rest
  ordered
  lastPopped := some (slot.clampBehind window.lastPopped).key
  overflow :=
    if slot.isBehind window.lastPopped then saturatingAdd window.overflow 1 else window.overflow

variable {window : ReorderWindow}

/-- **What leaves a window** is a slot that no other one in it is before. -/
lemma popMinimum_eq (hflag : window.FlagRight)
    (hentries : window.entries ≠ []) :
    ∃ slot before after ordered, window.entries = before ++ slot :: after ∧
      (∀ other ∈ before ++ after, ¬keyLt other.key slot.key = true) ∧
      (ordered = true → inOrder (before ++ after) = true) ∧
      window.popMinimum =
        some (slot.clampBehind window.lastPopped, window.leave slot (before ++ after) ordered) := by
  unfold popMinimum
  cases hordered : window.ordered with
  | true =>
    cases hall : window.entries with
    | nil => exact absurd hall hentries
    | cons slot rest =>
      have horder := hflag hordered
      rw [hall] at horder
      obtain ⟨hrest, hleast⟩ := inOrder_cons horder
      refine ⟨slot, [], rest, true, rfl, hleast, fun _ => hrest, ?_⟩
      simp only [if_true, Option.map_some, clampIfBehind_eq]
      rfl
  | false =>
    cases htake : takeMinimum window.entries with
    | none => exact absurd (takeMinimum_eq_none htake) hentries
    | some taken =>
      obtain ⟨slot, rest⟩ := taken
      obtain ⟨before, after, hsplit, rfl, hleast⟩ := takeMinimum_spec htake
      refine ⟨slot, before, after, inOrder (before ++ after), hsplit, hleast, id, ?_⟩
      simp only [Bool.false_eq_true, if_false, Option.map_some, clampIfBehind_eq]
      rfl

lemma drainLoop_of_empty (hentries : window.entries = [])
    (fuel : Nat) : window.drainLoop fuel = ([], window) := by
  have hnone : window.popMinimum = none := by
    unfold popMinimum
    rw [hentries]
    cases window.ordered <;> rfl
  cases fuel with
  | zero => rfl
  | succ fuel =>
    unfold drainLoop
    rw [hnone]

def arrive (window : ReorderWindow) (slot : SlotAggregate) : ReorderWindow :=
  let slot' := slot.clampBehind window.lastPopped
  { window with
    entries := window.entries ++ [slot']
    ordered :=
      match window.entries.getLast? with
      | some last => window.ordered && !keyLt slot'.key last.key
      | none => window.ordered
    overflow :=
      if slot.isBehind window.lastPopped then saturatingAdd window.overflow 1 else window.overflow }

lemma arrive_flagRight (hflag : window.FlagRight)
    (slot : SlotAggregate) : (window.arrive slot).FlagRight := by
  intro hordered
  unfold arrive at hordered ⊢
  dsimp only at hordered ⊢
  cases hlast : window.entries.getLast? with
  | none =>
    rw [List.getLast?_eq_none_iff] at hlast
    rw [hlast]
    rfl
  | some last =>
    rw [hlast] at hordered
    dsimp only at hordered
    rw [Bool.and_eq_true, Bool.not_eq_true'] at hordered
    refine inOrder_concat (hflag hordered.1) fun other hother => ?_
    rw [hlast] at hother
    cases hother
    rw [hordered.2]
    exact Bool.false_ne_true

lemma push_of_lt (h : window.entries.length ≠ REORDER_WINDOW)
    (slot : SlotAggregate) : window.push slot = (none, window.arrive slot) := by
  unfold push
  rw [if_neg h]
  simp only [clampIfBehind_eq]
  rfl

lemma entries_ne_nil (h : window.entries.length = REORDER_WINDOW) : window.entries ≠ [] := by
  intro hnil
  rw [hnil] at h
  cases h

lemma push_of_full {window' : ReorderWindow} {ready : SlotAggregate}
    (h : window.entries.length = REORDER_WINDOW)
    (hpop : window.popMinimum = some (ready, window')) (slot : SlotAggregate) :
    window.push slot = (some ready, window'.arrive slot) := by
  unfold push
  rw [if_pos h, hpop]
  simp only [clampIfBehind_eq]
  rfl

/-! ### Runs -/

def pushAll : ReorderWindow → List SlotAggregate → List SlotAggregate × ReorderWindow
  | window, [] => ([], window)
  | window, slot :: rest =>
    let (ready, window) := window.push slot
    let (output, window) := pushAll window rest
    (ready.toList ++ output, window)

def sorted (slots : List SlotAggregate) : List SlotAggregate × ReorderWindow :=
  let (output, window) := pushAll {} slots
  let (drained, window) := window.drainSorted
  (output ++ drained, window)

inductive Reachable : ReorderWindow → Prop
  | start : Reachable {}
  | push {window : ReorderWindow} (h : Reachable window) (slot : SlotAggregate) :
      Reachable (window.push slot).2
  | pop {window window' : ReorderWindow} {slot : SlotAggregate} (h : Reachable window)
      (hpop : window.popMinimum = some (slot, window')) : Reachable window'
  | drained {window : ReorderWindow} (h : Reachable window) : Reachable window.drainSorted.2

lemma Reachable.flagRight (h : window.Reachable) : window.FlagRight := by
  have hpop : ∀ {window window' : ReorderWindow} {slot : SlotAggregate}, window.FlagRight →
      window.popMinimum = some (slot, window') → window'.FlagRight := by
    intro window window' slot hflag hpop
    by_cases hentries : window.entries = []
    · unfold popMinimum at hpop
      rw [hentries] at hpop
      cases hordered : window.ordered <;> rw [hordered] at hpop <;> cases hpop
    · obtain ⟨slot', before, after, ordered, -, -, hordered, heq⟩ := popMinimum_eq hflag hentries
      cases heq.symm.trans hpop
      exact hordered
  induction h with
  | start => exact fun _ => rfl
  | push h slot ih =>
    rename_i window
    by_cases hfull : window.entries.length = REORDER_WINDOW
    · obtain ⟨_, before, after, ordered, -, -, hordered, heq⟩ :=
        popMinimum_eq ih (entries_ne_nil hfull)
      rw [push_of_full hfull heq]
      refine arrive_flagRight ?_ slot
      exact hordered
    · rw [push_of_lt hfull]
      exact arrive_flagRight ih slot
  | pop _ heq ih => exact hpop ih heq
  | drained h ih =>
    -- the drain ends with an empty window
    rename_i window
    have hempty : ∀ (fuel : Nat) (window : ReorderWindow), window.FlagRight →
        window.entries.length ≤ fuel → (window.drainLoop fuel).2.entries = [] := by
      intro fuel
      induction fuel with
      | zero =>
        intro window _ hlen
        exact List.length_eq_zero_iff.mp (Nat.le_zero.mp hlen)
      | succ fuel ih =>
        intro window hflag hlen
        by_cases hentries : window.entries = []
        · rw [drainLoop_of_empty hentries]
          exact hentries
        · obtain ⟨slot, before, after, ordered, hsplit, -, hordered, heq⟩ :=
            popMinimum_eq hflag hentries
          unfold drainLoop
          rw [heq]
          refine ih _ hordered ?_
          rw [hsplit, List.length_append, List.length_cons] at hlen
          show (before ++ after).length ≤ fuel
          rw [List.length_append]
          omega
    intro _
    show inOrder (window.drainLoop window.entries.length).2.entries = true
    rw [hempty _ window ih (Nat.le_refl _)]
    rfl

end ReorderWindow

/-! ### What has left, and what is inside -/

/-- A slot and the number of slots that arrived before it. -/
abbrev Arrival : Type := SlotAggregate × Nat

def Arrival.held (left : List SlotAggregate) (arrival : Arrival) : SlotAggregate :=
  arrival.1.clampBehind (lastKey (left.take (arrival.2 - 63)))

def Arrival.movedIn (left : List SlotAggregate) (arrival : Arrival) : Bool :=
  arrival.1.isBehind (lastKey (left.take (arrival.2 - 63)))

def Arrival.movedOut (left : List SlotAggregate) (place : Arrival × Nat) : Bool :=
  (place.1.held left).isBehind (lastKey (left.take place.2))

def clamps (left : List SlotAggregate) (gone inside : List Arrival) : Nat :=
  (gone ++ inside).countP (Arrival.movedIn left) + gone.zipIdx.countP (Arrival.movedOut left)

structure Follows (arrived left : List SlotAggregate) (window : ReorderWindow)
    (gone inside : List Arrival) : Prop where
  once : (gone ++ inside).Perm arrived.zipIdx
  length : left.length = gone.length
  timely : arrived.length ≤ left.length + 64
  moved : ∀ k (hk : k < left.length) (hk' : k < gone.length),
    left[k] = (gone[k].held left).clampBehind (lastKey (left.take k))
  entries : window.entries = inside.map (Arrival.held left)
  last : window.lastPopped = lastKey left
  overflow : window.overflow = min (clamps left gone inside) U64_MAX
  flag : window.FlagRight

lemma Arrival.stable {left : List SlotAggregate} {arrival : Arrival}
    (h : arrival.2 - 63 ≤ left.length) (slot : SlotAggregate) :
    arrival.held (left ++ [slot]) = arrival.held left ∧
      arrival.movedIn (left ++ [slot]) = arrival.movedIn left := by
  unfold held movedIn
  rw [List.take_append_of_le_length h]
  exact ⟨rfl, rfl⟩

lemma min_step (n : Nat) (b : Bool) :
    (if b = true then saturatingAdd (min n U64_MAX) 1 else min n U64_MAX) =
      min (n + if b = true then 1 else 0) U64_MAX := by
  unfold saturatingAdd
  cases b with
  | false => rfl
  | true =>
    show min (min n U64_MAX + 1) U64_MAX = min (n + 1) U64_MAX
    omega

namespace Follows

variable {arrived left : List SlotAggregate} {window : ReorderWindow} {gone inside : List Arrival}

lemma start : Follows [] [] {} [] [] where
  once := .refl _
  length := rfl
  timely := Nat.zero_le _
  moved := fun _ hk => by cases hk
  entries := rfl
  last := rfl
  overflow := rfl
  flag := fun _ => rfl

lemma inside_length (h : Follows arrived left window gone inside) :
    left.length + window.entries.length = arrived.length := by
  have hlen := h.once.length_eq
  rw [List.length_append, List.length_zipIdx] at hlen
  rw [h.entries, List.length_map, h.length]
  exact hlen

lemma place_le (h : Follows arrived left window gone inside) :
    ∀ arrival ∈ gone ++ inside, arrival.2 - 63 ≤ left.length := by
  intro arrival harriv
  obtain ⟨slot, place⟩ := arrival
  have hplace := (List.mem_zipIdx (h.once.mem_iff.mp harriv)).2.1
  have htimely := h.timely
  show place - 63 ≤ left.length
  omega

/-- **One slot leaves.** -/
lemma leaves (h : Follows arrived left window gone inside) (hentries : window.entries ≠ []) :
    ∃ slot window' arrival rest, window.popMinimum = some (slot, window') ∧
      Follows arrived (left ++ [slot]) window' (gone ++ [arrival]) rest := by
  obtain ⟨held, before, after, ordered, hsplit, -, hordered, heq⟩ :=
    ReorderWindow.popMinimum_eq h.flag hentries
  -- the slot is held for an arrival that is inside
  have hmap := h.entries.symm.trans hsplit
  obtain ⟨front, others, rfl, hfront, hothers⟩ := List.map_eq_append_iff.mp hmap
  obtain ⟨arrival, back, rfl, hheld, hback⟩ := List.map_eq_cons_iff.mp hothers
  refine ⟨_, _, arrival, front ++ back, heq, ?_⟩
  have hplaces : ∀ other ∈ gone ++ (front ++ arrival :: back), other.2 - 63 ≤ left.length := h.place_le
  have hsame := fun other (hother : other ∈ gone ++ (front ++ arrival :: back)) =>
    Arrival.stable (hplaces other hother) (held.clampBehind window.lastPopped)
  have hperm : (gone ++ [arrival] ++ (front ++ back)).Perm (gone ++ (front ++ arrival :: back)) := by
    rw [List.append_assoc, List.singleton_append]
    exact List.Perm.append_left gone List.perm_middle.symm
  have hone : held.clampBehind window.lastPopped =
      (arrival.held left).clampBehind (lastKey left) := by
    rw [← hheld, h.last]
  have htake : ∀ k ≤ left.length, (left ++ [held.clampBehind window.lastPopped]).take k =
      left.take k := fun k hk => List.take_append_of_le_length hk
  have harriv : arrival ∈ gone ++ (front ++ arrival :: back) := by simp
  refine ⟨hperm.trans h.once, by simp [h.length], ?_, ?_, ?_, ?_, ?_, hordered⟩
  · have htimely := h.timely
    rw [List.length_append]
    omega
  · intro k hk hk'
    rw [List.length_append, List.length_singleton] at hk
    by_cases hlast : k < left.length
    · have hgone : k < gone.length := h.length ▸ hlast
      have hmem : gone[k] ∈ gone ++ (front ++ arrival :: back) :=
        List.mem_append_left _ (List.getElem_mem _)
      rw [List.getElem_append_left hlast, List.getElem_append_left hgone, (hsame _ hmem).1,
        htake k hlast.le]
      exact h.moved k hlast hgone
    · obtain rfl : k = left.length := by omega
      have hgone : gone.length = left.length := h.length.symm
      rw [htake _ (Nat.le_refl _), List.take_length]
      simp only [List.getElem_append_right (Nat.le_refl _), Nat.sub_self, List.getElem_singleton]
      rw [List.getElem_append_right (by omega)]
      simp only [hgone, Nat.sub_self, List.getElem_singleton, (hsame _ harriv).1]
      exact hone
  · show before ++ after = _
    rw [← hfront, ← hback, ← List.map_append]
    refine List.map_congr_left fun other hother => ((hsame other ?_).1).symm
    have hmem := List.mem_append.mp hother
    rw [List.mem_append, List.mem_append, List.mem_cons]
    tauto
  · show some _ = lastKey _
    rw [lastKey, List.getLast?_append, List.getLast?_singleton]
    rfl
  · show (if held.isBehind window.lastPopped = true then _ else _) = _
    have hin : (gone ++ [arrival] ++ (front ++ back)).countP
        (Arrival.movedIn (left ++ [held.clampBehind window.lastPopped])) =
        (gone ++ (front ++ arrival :: back)).countP (Arrival.movedIn left) := by
      rw [hperm.countP_eq]
      exact List.countP_congr fun other hother => by rw [(hsame other hother).2]
    have hout : gone.zipIdx.countP
        (Arrival.movedOut (left ++ [held.clampBehind window.lastPopped])) =
        gone.zipIdx.countP (Arrival.movedOut left) := by
      refine List.countP_congr fun place hplace => ?_
      obtain ⟨other, k⟩ := place
      obtain ⟨-, hk, hplaced⟩ := List.mem_zipIdx hplace
      rw [Nat.zero_add, ← h.length] at hk
      have hother : other ∈ gone ++ (front ++ arrival :: back) :=
        List.mem_append_left _ (hplaced ▸ List.getElem_mem _)
      unfold Arrival.movedOut
      rw [(hsame _ hother).1, htake k hk.le]
    have hlast : Arrival.movedOut (left ++ [held.clampBehind window.lastPopped])
        (arrival, gone.length) = held.isBehind window.lastPopped := by
      unfold Arrival.movedOut
      rw [(hsame _ harriv).1, ← h.length, htake _ (Nat.le_refl _), List.take_length, ← hheld,
        h.last]
    have hclamps : clamps (left ++ [held.clampBehind window.lastPopped]) (gone ++ [arrival])
        (front ++ back) = clamps left gone (front ++ arrival :: back) +
          if held.isBehind window.lastPopped = true then 1 else 0 := by
      unfold clamps
      rw [hin, List.zipIdx_append, @List.countP_append _ _ gone.zipIdx, hout, List.zipIdx_singleton,
        List.countP_singleton, Nat.zero_add, hlast, Nat.add_assoc]
    rw [hclamps, h.overflow]
    exact min_step _ _

/-- **One slot arrives.** -/
lemma arrives (h : Follows arrived left window gone inside)
    (htimely : left.length = arrived.length - 63) (slot : SlotAggregate) :
    Follows (arrived ++ [slot]) left (window.arrive slot) gone (inside ++ [(slot, arrived.length)]) := by
  have hnew : left.take (arrived.length - 63) = left := by rw [← htimely, List.take_length]
  have hheld : Arrival.held left (slot, arrived.length) = slot.clampBehind window.lastPopped := by
    unfold Arrival.held
    rw [hnew, h.last]
  have hmoved : Arrival.movedIn left (slot, arrived.length) = slot.isBehind window.lastPopped := by
    unfold Arrival.movedIn
    rw [hnew, h.last]
  refine ⟨?_, h.length, ?_, h.moved, ?_, h.last, ?_, ReorderWindow.arrive_flagRight h.flag slot⟩
  · rw [← List.append_assoc, List.zipIdx_append, List.zipIdx_singleton, Nat.zero_add]
    exact h.once.append_right _
  · rw [List.length_append, List.length_singleton]
    omega
  · show window.entries ++ [_] = _
    rw [List.map_append, List.map_singleton, hheld, h.entries]
  · show (if slot.isBehind window.lastPopped = true then _ else _) = _
    have hclamps : clamps left gone (inside ++ [(slot, arrived.length)]) =
        clamps left gone inside + if slot.isBehind window.lastPopped = true then 1 else 0 := by
      unfold clamps
      rw [← List.append_assoc, List.countP_append, List.countP_singleton, hmoved]
      omega
    rw [hclamps, h.overflow]
    exact min_step _ _

lemma drained (fuel : Nat) (h : Follows arrived left window gone inside)
    (hfuel : window.entries.length ≤ fuel) :
    ∃ gone', Follows arrived (left ++ (window.drainLoop fuel).1) (window.drainLoop fuel).2 gone' [] := by
  have hempty : ∀ {left : List SlotAggregate} {window : ReorderWindow} {gone inside : List Arrival},
      Follows arrived left window gone inside → window.entries = [] → inside = [] := by
    intro left window gone inside h hentries
    exact List.map_eq_nil_iff.mp (h.entries.symm.trans hentries)
  induction fuel generalizing left window gone inside with
  | zero =>
    obtain rfl := hempty h (List.length_eq_zero_iff.mp (Nat.le_zero.mp hfuel))
    refine ⟨gone, ?_⟩
    show Follows arrived (left ++ []) window gone []
    rwa [List.append_nil]
  | succ fuel ih =>
    by_cases hentries : window.entries = []
    · obtain rfl := hempty h hentries
      refine ⟨gone, ?_⟩
      rw [ReorderWindow.drainLoop_of_empty hentries]
      show Follows arrived (left ++ []) window gone []
      rwa [List.append_nil]
    · obtain ⟨slot, window', arrival, rest, hpop, hleft⟩ := h.leaves hentries
      have hbefore := h.inside_length
      have hafter := hleft.inside_length
      rw [List.length_append, List.length_singleton] at hafter
      obtain ⟨gone', hgone⟩ := ih hleft (by omega)
      refine ⟨gone', ?_⟩
      unfold ReorderWindow.drainLoop
      rw [hpop]
      rw [List.append_assoc, List.singleton_append] at hgone
      exact hgone

lemma pushed (slots : List SlotAggregate) (h : Follows arrived left window gone inside)
    (htimely : left.length = arrived.length - 64) :
    ∃ gone' inside', Follows (arrived ++ slots) (left ++ (window.pushAll slots).1)
      (window.pushAll slots).2 gone' inside' := by
  induction slots generalizing arrived left window gone inside with
  | nil =>
    refine ⟨gone, inside, ?_⟩
    rw [List.append_nil]
    show Follows arrived (left ++ []) window gone inside
    rwa [List.append_nil]
  | cons slot rest ih =>
    have hlen := h.inside_length
    unfold ReorderWindow.pushAll
    by_cases hfull : window.entries.length = REORDER_WINDOW
    · obtain ⟨ready, window', arrival, rest', hpop, hleft⟩ :=
        h.leaves (ReorderWindow.entries_ne_nil hfull)
      have hsize : left.length + 64 = arrived.length := by rw [← hlen, hfull]; rfl
      have harrives := hleft.arrives (by
        rw [List.length_append, List.length_singleton]
        omega) slot
      obtain ⟨gone', inside', hrest⟩ := ih harrives (by
        rw [List.length_append, List.length_append, List.length_singleton, List.length_singleton]
        omega)
      refine ⟨gone', inside', ?_⟩
      rw [ReorderWindow.push_of_full hfull hpop]
      rw [List.append_assoc, List.append_assoc] at hrest
      exact hrest
    · have hsize : arrived.length < 64 := by
        have hne : window.entries.length ≠ 64 := hfull
        omega
      have harrives := h.arrives (by omega) slot
      obtain ⟨gone', inside', hrest⟩ := ih harrives (by
        rw [List.length_append, List.length_singleton]
        omega)
      refine ⟨gone', inside', ?_⟩
      rw [ReorderWindow.push_of_lt hfull]
      rw [List.append_assoc] at hrest
      exact hrest

lemma pairwise_firstTs (h : Follows arrived left window gone inside) :
    left.Pairwise fun a b => a.firstTs ≤ b.firstTs := by
  refine (List.isChain_iff_pairwise (R := fun a b : SlotAggregate => a.firstTs ≤ b.firstTs)).mp ?_
  refine List.isChain_iff_getElem.mpr fun k hk => ?_
  have hgone : k + 1 < gone.length := h.length ▸ hk
  rw [h.moved (k + 1) hk hgone]
  have hlast : lastKey (left.take (k + 1)) = some left[k].key := by
    rw [lastKey, List.take_succ_eq_append_getElem (by omega), List.getLast?_append,
      List.getLast?_singleton]
    rfl
  rw [hlast]
  exact SlotAggregate.le_firstTs_clampBehind

end Follows

/-! ### Arrivals that are little displaced -/

def rank (slots : List SlotAggregate) (slot : SlotAggregate) : Nat :=
  slots.countP fun other => keyLt other.key slot.key

/-- Nothing inside or to come is before what has left, and nothing has moved. -/
structure KeyOrder (arrived future left : List SlotAggregate) (window : ReorderWindow) : Prop where
  once : (left ++ window.entries).Perm arrived
  distinct : ((left ++ window.entries ++ future).map SlotAggregate.key).Nodup
  ahead : ∀ gone ∈ left, ∀ other ∈ window.entries ++ future, keyLt gone.key other.key = true
  sorted : left.Pairwise fun a b => keyLt a.key b.key = true
  last : window.lastPopped = lastKey left
  overflow : window.overflow = 0
  flag : window.FlagRight

namespace KeyOrder

variable {arrived future left : List SlotAggregate} {window : ReorderWindow}

variable {slot : SlotAggregate}

lemma not_behind (h : KeyOrder arrived future left window)
    (hslot : slot ∈ window.entries ++ future) : slot.isBehind window.lastPopped = false := by
  rw [h.last, lastKey, SlotAggregate.isBehind]
  cases hlast : left.getLast? with
  | none => rfl
  | some last =>
    have hahead := h.ahead last (List.mem_of_getLast? hlast) slot hslot
    exact Bool.not_eq_true _ ▸ keyLt_asymm hahead

lemma leaves (h : KeyOrder arrived future left window)
    {before after : List SlotAggregate} {ordered : Bool}
    (hsplit : window.entries = before ++ slot :: after)
    (hleast : ∀ other ∈ before ++ after ++ future, ¬keyLt other.key slot.key = true)
    (hordered : ordered = true → inOrder (before ++ after) = true) :
    slot.clampBehind window.lastPopped = slot ∧
      KeyOrder arrived future (left ++ [slot]) (window.leave slot (before ++ after) ordered) := by
  have hmem : slot ∈ window.entries ++ future := by rw [hsplit]; simp
  have hbehind := h.not_behind hmem
  have hsame := SlotAggregate.clampBehind_of_not hbehind
  have hperm : (left ++ [slot] ++ (before ++ after)).Perm (left ++ window.entries) := by
    rw [hsplit, List.append_assoc, List.singleton_append]
    exact List.Perm.append_left left List.perm_middle.symm
  have hall : (left ++ [slot] ++ (before ++ after) ++ future).Perm (left ++ window.entries ++ future) :=
    hperm.append_right future
  have hdistinct : ((left ++ [slot] ++ (before ++ after) ++ future).map SlotAggregate.key).Nodup :=
    (hall.map _).nodup_iff.mpr h.distinct
  refine ⟨hsame, hperm.trans h.once, hdistinct, ?_, ?_, ?_, ?_, hordered⟩
  · intro gone hgone other hother
    rcases List.mem_append.mp hgone with hgone | hgone
    · refine h.ahead gone hgone other ?_
      rw [hsplit]
      rcases List.mem_append.mp hother with hother | hother
      · have hin := List.mem_append.mp hother
        rw [List.mem_append, List.mem_append, List.mem_cons]
        tauto
      · exact List.mem_append_right _ hother
    · obtain rfl := List.mem_singleton.mp hgone
      -- keys are distinct, so that what is not before the slot is behind it
      have hne : other.key ≠ gone.key := by
        intro heq
        rw [List.append_assoc, List.append_assoc, List.singleton_append, List.map_append,
          List.nodup_append, List.map_cons, List.nodup_cons] at hdistinct
        exact hdistinct.2.1.1 (heq ▸ List.mem_map_of_mem hother)
      exact keyLt_of_not hne (hleast other hother)
  · refine List.pairwise_append.mpr ⟨h.sorted, List.pairwise_singleton _ _, fun a ha b hb => ?_⟩
    obtain rfl := List.mem_singleton.mp hb
    exact h.ahead a ha b hmem
  · show some _ = lastKey _
    rw [lastKey, List.getLast?_append, List.getLast?_singleton, hsame]
    rfl
  · show (if slot.isBehind window.lastPopped = true then _ else _) = _
    rw [hbehind]
    exact h.overflow

lemma arrives {rest : List SlotAggregate}
    (h : KeyOrder arrived (slot :: rest) left window) :
    KeyOrder (arrived ++ [slot]) rest left (window.arrive slot) := by
  have hbehind := h.not_behind (List.mem_append_right _ List.mem_cons_self)
  have hsame := SlotAggregate.clampBehind_of_not hbehind
  have hentries : (window.arrive slot).entries = window.entries ++ [slot] :=
    congrArg (fun slot => window.entries ++ [slot]) hsame
  refine ⟨?_, ?_, ?_, h.sorted, h.last, ?_, ReorderWindow.arrive_flagRight h.flag slot⟩
  · rw [hentries, ← List.append_assoc]
    exact h.once.append_right _
  · rw [hentries, ← List.append_assoc, List.append_assoc _ [slot]]
    exact h.distinct
  · rw [hentries, List.append_assoc]
    exact h.ahead
  · show (if slot.isBehind window.lastPopped = true then _ else _) = _
    rw [hbehind]
    exact h.overflow

lemma drained (fuel : Nat) (h : KeyOrder arrived [] left window)
    (hfuel : window.entries.length ≤ fuel) :
    KeyOrder arrived [] (left ++ (window.drainLoop fuel).1) (window.drainLoop fuel).2 ∧
      (window.drainLoop fuel).2.entries = [] := by
  induction fuel generalizing left window with
  | zero =>
    refine ⟨?_, List.length_eq_zero_iff.mp (Nat.le_zero.mp hfuel)⟩
    show KeyOrder arrived [] (left ++ []) window
    rwa [List.append_nil]
  | succ fuel ih =>
    by_cases hentries : window.entries = []
    · rw [ReorderWindow.drainLoop_of_empty hentries]
      refine ⟨?_, hentries⟩
      show KeyOrder arrived [] (left ++ []) window
      rwa [List.append_nil]
    · obtain ⟨slot, before, after, ordered, hsplit, hleast, hordered, hpop⟩ :=
        ReorderWindow.popMinimum_eq h.flag hentries
      obtain ⟨hsame, hleft⟩ := h.leaves hsplit (by rwa [List.append_nil]) hordered
      rw [hsame] at hpop
      have hlen : (window.leave slot (before ++ after) ordered).entries.length ≤ fuel := by
        rw [hsplit, List.length_append, List.length_cons] at hfuel
        show (before ++ after).length ≤ fuel
        rw [List.length_append]
        omega
      have hrest := ih hleft hlen
      unfold ReorderWindow.drainLoop
      rw [hpop]
      rw [List.append_assoc, List.singleton_append] at hrest
      exact hrest

/-- **Nothing to come belongs before the least slot of a full window**, where every slot arrives
at most 63 places after its rank. -/
lemma least_ahead {slots : List SlotAggregate}
    (h : KeyOrder arrived future left window) (hslots : slots = arrived ++ future)
    (hfull : window.entries.length = REORDER_WINDOW)
    (hplaces : ∀ before slot after, slots = before ++ slot :: after →
      before.length ≤ rank slots slot + 63) (hleast : ∀ other ∈ window.entries, ¬keyLt other.key slot.key = true) :
    ∀ other ∈ future, ¬keyLt other.key slot.key = true := by
  intro other hother hlt
  -- the least of what is to come has only what has left before it
  cases htake : takeMinimum future with
  | none =>
    rw [takeMinimum_eq_none htake] at hother
    cases hother
  | some taken =>
    obtain ⟨least, others⟩ := taken
    obtain ⟨before, after, rfl, rfl, hothers⟩ := takeMinimum_spec htake
    have hnone : ∀ x ∈ before ++ least :: after, ¬keyLt x.key least.key = true := by
      intro x hx
      rcases List.mem_append.mp hx with hx | hx
      · exact hothers x (List.mem_append_left _ hx)
      · rcases List.mem_cons.mp hx with rfl | hx
        · exact fun hself => keyLt_asymm hself hself
        · exact hothers x (List.mem_append_right _ hx)
    have hbefore : keyLt least.key slot.key = true := by
      by_contra hnot
      exact not_keyLt_trans hnot (hnone other hother) hlt
    have hinside : ∀ x ∈ window.entries, ¬keyLt x.key least.key = true :=
      fun x hx hxlt => hleast x hx (keyLt_trans hxlt hbefore)
    have hrank : rank slots least ≤ left.length := by
      have hperm : slots.Perm (left ++ window.entries ++ (before ++ least :: after)) := by
        rw [hslots]
        exact h.once.symm.append_right _
      unfold rank
      rw [hperm.countP_eq, List.countP_append, List.countP_append,
        List.countP_eq_zero.mpr hinside, List.countP_eq_zero.mpr hnone]
      exact List.countP_le_length
    have hplace := hplaces (arrived ++ before) least after (by rw [hslots, List.append_assoc])
    have hlen := h.once.length_eq
    rw [List.length_append, hfull] at hlen
    have hwindow : REORDER_WINDOW = 64 := rfl
    rw [List.length_append] at hplace
    omega

lemma pushed {slots : List SlotAggregate} (h : KeyOrder arrived future left window)
    (hslots : slots = arrived ++ future)
    (hplaces : ∀ before slot after, slots = before ++ slot :: after →
      before.length ≤ rank slots slot + 63) :
    KeyOrder slots [] (left ++ (window.pushAll future).1) (window.pushAll future).2 := by
  induction future generalizing arrived left window with
  | nil =>
    rw [List.append_nil] at hslots
    subst hslots
    show KeyOrder slots [] (left ++ []) window
    rwa [List.append_nil]
  | cons slot rest ih =>
    have hnext : slots = arrived ++ [slot] ++ rest := by
      rw [hslots, List.append_assoc, List.singleton_append]
    unfold ReorderWindow.pushAll
    by_cases hfull : window.entries.length = REORDER_WINDOW
    · obtain ⟨ready, before, after, ordered, hsplit, hleast, hordered, hpop⟩ :=
        ReorderWindow.popMinimum_eq h.flag (ReorderWindow.entries_ne_nil hfull)
      have hinside : ∀ other ∈ window.entries, ¬keyLt other.key ready.key = true := by
        intro other hother
        rw [hsplit, List.mem_append, List.mem_cons] at hother
        rcases hother with hother | rfl | hother
        · exact hleast other (List.mem_append_left _ hother)
        · exact fun hself => keyLt_asymm hself hself
        · exact hleast other (List.mem_append_right _ hother)
      have hahead := h.least_ahead hslots hfull hplaces hinside
      obtain ⟨hsame, hleft⟩ := h.leaves hsplit (fun other hother =>
        (List.mem_append.mp hother).elim (hleast other) (hahead other)) hordered
      rw [hsame] at hpop
      have hrest := ih hleft.arrives hnext
      rw [ReorderWindow.push_of_full hfull hpop]
      rw [List.append_assoc] at hrest
      exact hrest
    · have hrest := ih h.arrives hnext
      rw [ReorderWindow.push_of_lt hfull]
      exact hrest

end KeyOrder

/-! ### The window sorts -/

/-- **The reorder window sorts what it promises to sort.**  Every slot leaves once, moved at most
when it arrived and when it left, to the time of the last slot that left by then; the overflow
counts the moves; the times that leave never decrease.  Where every slot arrives at most 63 places
after its rank, all leave in the order of their keys and none moves.  The flag of a window never
changes what the search for the least slot would find. -/
theorem reorder_window_sorts (slots : List SlotAggregate)
    (hdistinct : (slots.map SlotAggregate.key).Nodup) :
    let (output, window) := ReorderWindow.sorted slots
    (∃ arrivals : List Arrival, arrivals.Perm slots.zipIdx ∧ output.length = arrivals.length ∧
      (∀ k (hk : k < output.length) (hk' : k < arrivals.length),
        output[k] = (arrivals[k].held output).clampBehind (lastKey (output.take k))) ∧
      window.overflow = min (clamps output arrivals []) U64_MAX) ∧
    (output.Pairwise fun a b => a.firstTs ≤ b.firstTs) ∧
    ((∀ before slot after, slots = before ++ slot :: after →
        before.length ≤ rank slots slot + 63) →
      output.Perm slots ∧ (output.Pairwise fun a b => keyLt a.key b.key = true) ∧
        window.overflow = 0) ∧
    ∀ reached : ReorderWindow, reached.Reachable → reached.ordered = true →
      takeMinimum reached.entries =
        reached.entries.head?.map fun first => (first, reached.entries.tail) := by
  obtain ⟨gone, inside, hpushed⟩ := Follows.start.pushed slots rfl
  rw [List.nil_append, List.nil_append] at hpushed
  obtain ⟨arrivals, hdrained⟩ := hpushed.drained _ (Nat.le_refl _)
  refine ⟨⟨arrivals, ?_, hdrained.length, hdrained.moved, hdrained.overflow⟩,
    hdrained.pairwise_firstTs, fun hplaces => ?_, fun reached hreached hordered => ?_⟩
  · rw [← List.append_nil arrivals]
    exact hdrained.once
  · have hstart : KeyOrder [] slots [] {} :=
      ⟨.refl _, hdistinct, (fun _ hmem => by cases hmem), .nil, rfl, rfl, fun _ => rfl⟩
    have hin := hstart.pushed rfl hplaces
    obtain ⟨hout, hempty⟩ := hin.drained _ (Nat.le_refl _)
    have honce := hout.once
    rw [hempty, List.append_nil] at honce
    exact ⟨honce, hout.sorted, hout.overflow⟩
  · have hflag := hreached.flagRight hordered
    cases hentries : reached.entries with
    | nil => rfl
    | cons first rest =>
      rw [hentries] at hflag
      exact takeMinimum_of_inOrder hflag

/-- Three slots, the second of which arrives too early. -/
def swappedSlots : List SlotAggregate := [.new 0 10, .new 2 30, .new 1 20]

theorem reorder_window_sorts_swapped :
    let (output, window) := ReorderWindow.sorted swappedSlots
    (output.Pairwise fun a b => a.firstTs ≤ b.firstTs) ∧ output.Perm swappedSlots ∧
      window.overflow = 0 := by
  have hsorts := reorder_window_sorts swappedSlots (by decide)
  have hplaces : ∀ before slot after, swappedSlots = before ++ slot :: after →
      before.length ≤ rank swappedSlots slot + 63 := by
    intro before slot after hsplit
    have hlength := congrArg List.length hsplit
    rw [List.length_append, List.length_cons] at hlength
    have hthree : swappedSlots.length = 3 := rfl
    omega
  obtain ⟨hperm, -, hoverflow⟩ := hsorts.2.2.1 hplaces
  exact ⟨hsorts.2.1, hperm, hoverflow⟩

end Antiburn
