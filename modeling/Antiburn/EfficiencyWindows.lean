/-
The two windows of the efficiency reducer.

`Buffered` ties the reorder window to what was folded; `Tracks64` ties the open
turns to records that are grouped among the last 64 turns.  Both hold of every run
on any input, so every turn with output is folded once (`flush_folds_once`).
-/
import Antiburn.Efficiency
import Antiburn.Lib.Reorder
import Mathlib

namespace Antiburn

/-! ### Leaving the reorder window -/

lemma swapRemove_perm {α : Type} {items : List α} {index : Nat} (h : index < items.length) :
    items.Perm (items[index] :: swapRemove items index) := by
  rcases List.eq_nil_or_concat' items with rfl | ⟨front, last, rfl⟩
  · exact absurd h (Nat.not_lt_zero _)
  unfold swapRemove
  rw [List.getLast?_concat]
  dsimp only
  by_cases hindex : index < front.length
  · -- the last item takes the place of the one that leaves
    rw [List.getElem_append_left hindex, List.set_append_left _ _ hindex, List.dropLast_concat]
    have hsplit := List.getElem_cons_drop hindex
    have hfront : front = front.take index ++ front[index] :: front.drop (index + 1) := by
      rw [hsplit, List.take_append_drop]
    rw [List.set_eq_take_append_cons_drop, if_pos hindex]
    calc
      (front ++ [last]).Perm (last :: front) := List.perm_append_singleton _ _
      (last :: front).Perm
          (last :: front[index] :: (front.take index ++ front.drop (index + 1))) := by
        refine List.Perm.cons _ ?_
        conv => lhs; rw [hfront]
        exact List.perm_middle
      (last :: front[index] :: (front.take index ++ front.drop (index + 1))).Perm
          (front[index] :: last :: (front.take index ++ front.drop (index + 1))) :=
        List.Perm.swap _ _ _
      (front[index] :: last :: (front.take index ++ front.drop (index + 1))).Perm
          (front[index] :: (front.take index ++ last :: front.drop (index + 1))) :=
        List.perm_middle.symm.cons _
  · have hlast : index = front.length := by
      rw [List.length_append, List.length_singleton] at h
      omega
    subst hlast
    rw [List.getElem_concat_length rfl, List.set_append_right _ _ (Nat.le_refl _), Nat.sub_self,
      List.set_cons_zero, List.dropLast_concat]
    exact List.perm_append_singleton _ _

section Windows

variable {ρ : Type}

open Reorder

def Turn.place (turn : Turn ρ) : Int ×ₗ Nat := toLex turn.key

lemma keyLt_key (turn other : Turn ρ) :
    keyLt turn.key other.key = true ↔ turn.place < other.place := by
  unfold Turn.place
  rw [Prod.Lex.toLex_lt_toLex]
  simp [keyLt]

lemma earliest_spec {places : List (Turn ρ × Nat)} (h : places ≠ []) :
    ∃ best ∈ places, earliest places = some best ∧
      ∀ other ∈ places, best.1.place ≤ other.1.place := by
  induction places with
  | nil => exact absurd rfl h
  | cons place rest ih =>
    unfold earliest
    by_cases hrest : rest = []
    · subst hrest
      refine ⟨place, List.mem_cons_self, rfl, fun other hother => ?_⟩
      rw [List.mem_singleton.mp hother]
    obtain ⟨best, hmem, hbest, hleast⟩ := ih hrest
    rw [hbest]
    dsimp only
    by_cases hlt : keyLt best.1.key place.1.key = true
    · rw [if_pos hlt]
      refine ⟨best, List.mem_cons_of_mem _ hmem, rfl, fun other hother => ?_⟩
      rcases List.mem_cons.mp hother with rfl | hother
      · exact ((keyLt_key _ _).mp hlt).le
      · exact hleast other hother
    · rw [if_neg hlt]
      have hle : place.1.place ≤ best.1.place :=
        not_lt.mp fun hahead => hlt ((keyLt_key _ _).mpr hahead)
      refine ⟨place, List.mem_cons_self, rfl, fun other hother => ?_⟩
      rcases List.mem_cons.mp hother with rfl | hother
      · exact le_rfl
      · exact hle.trans (hleast other hother)

lemma emitEarliest_spec {reducer : EfficiencyReducer ρ} (h : reducer.reorder ≠ []) :
    ∃ least rest, Leaves Turn.place reducer.reorder least rest ∧
      reducer.emitEarliest =
        { reducer with reorder := rest, folded := reducer.folded.fold least } := by
  obtain ⟨⟨turn, index⟩, hmem, hearliest, hleast⟩ :=
    @earliest_spec ρ reducer.reorder.zipIdx (by simpa [List.zipIdx_eq_nil_iff] using h)
  unfold EfficiencyReducer.emitEarliest
  rw [hearliest]
  rw [List.mem_zipIdx_iff_getElem?] at hmem
  obtain ⟨hindex, hturn⟩ := List.getElem?_eq_some_iff.mp hmem
  refine ⟨turn, swapRemove reducer.reorder index, ⟨?_, fun other hother => ?_⟩, rfl⟩
  · have hperm := swapRemove_perm hindex
    rwa [hturn] at hperm
  · obtain ⟨place, hplace, hother⟩ := List.getElem_of_mem hother
    refine hleast (other, place) ?_
    rw [List.mem_zipIdx_iff_getElem?, List.getElem?_eq_some_iff]
    exact ⟨hplace, hother⟩

def Turn.hasOutput (turn : Turn ρ) : Bool := decide (turn.usage.outputTokens > 0)

structure Buffered (finished : List (Turn ρ)) (reducer : EfficiencyReducer ρ)
    (left : List (Turn ρ)) : Prop where
  runs : Runs Turn.place MAX_EFF_REORDER (finished.filter Turn.hasOutput) reducer.reorder left
  folded : reducer.folded = left.foldl EfficiencyFold.fold {}

lemma finalizeTurn_spec {finished left : List (Turn ρ)} {reducer : EfficiencyReducer ρ}
    (h : Buffered finished reducer left) (turn : Turn ρ) :
    ∃ reorder folded left, reducer.finalizeTurn turn = { reducer with reorder, folded } ∧
      Buffered (finished ++ [turn]) { reducer with reorder, folded } left := by
  unfold EfficiencyReducer.finalizeTurn
  by_cases hzero : turn.usage.outputTokens = 0
  · rw [if_pos hzero]
    refine ⟨_, _, left, rfl, ?_, h.folded⟩
    rw [List.filter_append, List.filter_singleton]
    simpa [Turn.hasOutput, hzero] using h.runs
  rw [if_neg hzero]
  have hout : ([turn] : List (Turn ρ)).filter Turn.hasOutput = [turn] := by
    rw [List.filter_singleton]
    simp [Turn.hasOutput, Nat.pos_of_ne_zero hzero]
  have hlen := h.runs.length_le
  dsimp only
  by_cases hfull : (reducer.reorder ++ [turn]).length > MAX_EFF_REORDER
  · rw [if_pos hfull]
    have hne : ({ reducer with reorder := reducer.reorder ++ [turn] } :
        EfficiencyReducer ρ).reorder ≠ [] := by simp
    obtain ⟨least, rest, hleaves, heq⟩ := emitEarliest_spec hne
    refine ⟨_, _, left ++ [least], heq, ?_, ?_⟩
    · rw [List.filter_append, hout]
      refine h.runs.passes ?_ hleaves
      rw [List.length_append, List.length_singleton] at hfull
      omega
    · rw [List.foldl_append, ← h.folded]
      rfl
  · rw [if_neg hfull]
    refine ⟨_, _, left, rfl, ?_, h.folded⟩
    rw [List.filter_append, hout]
    refine h.runs.keeps ?_
    rw [List.length_append, List.length_singleton] at hfull
    omega

lemma finalizeTurns_spec (turns : List (Turn ρ)) {finished left : List (Turn ρ)}
    {reducer : EfficiencyReducer ρ} (h : Buffered finished reducer left) :
    ∃ reorder folded left,
      turns.foldl EfficiencyReducer.finalizeTurn reducer = { reducer with reorder, folded } ∧
        Buffered (finished ++ turns) { reducer with reorder, folded } left := by
  induction turns generalizing finished left reducer with
  | nil => exact ⟨_, _, left, rfl, by rwa [List.append_nil]⟩
  | cons turn turns ih =>
    obtain ⟨_, _, _, hturn, hbuffer⟩ := finalizeTurn_spec h turn
    obtain ⟨reorder, folded, left, hturns, hlast⟩ := ih hbuffer
    rw [List.append_assoc, List.singleton_append] at hlast
    refine ⟨reorder, folded, left, ?_, hlast⟩
    rw [List.foldl_cons, hturn, hturns]

lemma emitAll_spec (turns : Nat) {reducer : EfficiencyReducer ρ}
    (h : reducer.reorder.length = turns) :
    ∃ drained, Drains Turn.place reducer.reorder drained ∧
      reducer.emitAll turns =
        { reducer with reorder := [], folded := drained.foldl .fold reducer.folded } := by
  induction turns generalizing reducer with
  | zero =>
    have hempty := List.length_eq_zero_iff.mp h
    rw [hempty]
    refine ⟨[], .done, ?_⟩
    unfold EfficiencyReducer.emitAll
    rw [List.foldl_nil, ← hempty]
  | succ turns ih =>
    have hne : reducer.reorder ≠ [] := by
      intro hempty
      rw [hempty] at h
      exact absurd h (by simp)
    obtain ⟨least, rest, hleaves, heq⟩ := emitEarliest_spec hne
    have hrest : rest.length = turns := by
      have hlen := hleaves.perm.length_eq
      rw [List.length_cons] at hlen
      omega
    obtain ⟨drained, hdrains, hall⟩ := ih (show reducer.emitEarliest.reorder.length = turns by rw [heq]; exact hrest)
    rw [heq] at hdrains hall
    refine ⟨least :: drained, .next hleaves hdrains, ?_⟩
    unfold EfficiencyReducer.emitAll
    rw [heq, hall]
    rfl

/-! ### Open turns -/

section Lookup

variable (lookup : String → Option String → Option ρ)

def ReferenceTurn.turn (group : ReferenceTurn) (creation : Nat) : Turn ρ where
  creation
  ordinal := group.ordinal
  ts := group.ts
  id := group.id
  source := group.source
  model := modelStatus lookup group.model
  fast := group.fast
  usage := group.usage

def turnsFrom (creation : Nat) : List ReferenceTurn → List (Turn ρ)
  | [] => []
  | group :: rest => group.turn lookup creation :: turnsFrom (creation + 1) rest

@[simp] lemma length_turnsFrom (creation : Nat) (groups : List ReferenceTurn) :
    (turnsFrom lookup creation groups).length = groups.length := by
  induction groups generalizing creation with
  | nil => rfl
  | cons group rest ih => exact congrArg (· + 1) (ih _)

lemma turnsFrom_append (creation : Nat) (groups more : List ReferenceTurn) :
    turnsFrom lookup creation (groups ++ more) =
      turnsFrom lookup creation groups ++ turnsFrom lookup (creation + groups.length) more := by
  induction groups generalizing creation with
  | nil => rfl
  | cons group rest ih =>
    show _ :: turnsFrom lookup (creation + 1) (rest ++ more) = _
    rw [ih, List.length_cons, Nat.add_assoc, Nat.add_comm 1]
    rfl

lemma modelStatus_some (model : String) :
    ∃ standard fast, modelStatus lookup (some model) = .known standard fast := by
  by_cases hempty : (modelName model).isEmpty = true
  · exact ⟨_, _, if_pos hempty⟩
  · exact ⟨_, _, if_neg hempty⟩

lemma join_turn (group : ReferenceTurn) (creation : Nat) (input : EfficiencyInput) :
    (group.turn lookup creation).join lookup input = (group.join input).turn lookup creation := by
  have hmodel : (modelStatus lookup group.model).joined lookup input.model =
      modelStatus lookup (group.model.or input.model) := by
    cases group.model with
    | none => cases input.model <;> rfl
    | some model =>
      obtain ⟨standard, fast, hknown⟩ := modelStatus_some lookup model
      rw [Option.some_or, hknown]
      rfl
  unfold Turn.join ReferenceTurn.turn ReferenceTurn.join
  dsimp only
  rw [← hmodel]

lemma joinOpen_turnsFrom (key : MessageKey) (input : EfficiencyInput)
    (groups : List ReferenceTurn) (creation : Nat) :
    joinOpen lookup key input (turnsFrom lookup creation groups) =
      (joinGroup key input groups).map (turnsFrom lookup creation) := by
  induction groups generalizing creation with
  | nil => rfl
  | cons group rest ih =>
    show (if group.id = some key then _ else _) = _
    unfold joinGroup
    split
    · rw [join_turn]
      rfl
    · rw [ih, Option.map_map, Option.map_map]
      rfl

lemma joinGroup_length {key : MessageKey} {input : EfficiencyInput}
    {groups joined : List ReferenceTurn} (h : joinGroup key input groups = some joined) :
    joined.length = groups.length := by
  induction groups generalizing joined with
  | nil => cases h
  | cons group rest ih =>
    unfold joinGroup at h
    split at h
    · cases h
      rfl
    · obtain ⟨joined, hrest, rfl⟩ := Option.map_eq_some_iff.mp h
      exact congrArg (· + 1) (ih hrest)

/-- The reducer after some records: the turns of `older` groups are finished, those of `newer`
groups are open. -/
structure TracksWindow (older newer : List ReferenceTurn) (reducer : EfficiencyReducer ρ)
    (left : List (Turn ρ)) : Prop where
  small : newer.length ≤ MAX_OPEN_MESSAGES
  full : older ≠ [] → newer.length = MAX_OPEN_MESSAGES
  creation : reducer.creation = older.length + newer.length
  openTurns : reducer.openTurns = turnsFrom lookup older.length newer
  buffered : Buffered (turnsFrom lookup 0 older) reducer left
  evicted : ∀ key ∈ reducer.evicted, ∃ group ∈ older, group.id = some key

/-- Records grouped as the reducer does it, one more. -/
abbrev Grouping.stepWindow : Grouping → EfficiencyInput → Grouping :=
  Grouping.stepAmong fun turns => turns.length - MAX_OPEN_MESSAGES

variable {lookup} {older newer : List ReferenceTurn} {reducer : EfficiencyReducer ρ}
  {left : List (Turn ρ)}

lemma TracksWindow.older_length (h : TracksWindow lookup older newer reducer left) :
    (older ++ newer).length - MAX_OPEN_MESSAGES = older.length := by
  rw [List.length_append]
  by_cases hempty : older = []
  · subst hempty
    have hsmall := h.small
    rw [List.length_nil]
    omega
  · have hfull := h.full hempty
    omega

lemma countReturn_spec (reducer : EfficiencyReducer ρ) (key : Option MessageKey) :
    ∃ evicted openOverflow, reducer.countReturn key = { reducer with evicted, openOverflow } ∧
      (∀ other ∈ evicted, other ∈ reducer.evicted) ∧
      ((∀ other, key = some other → other ∉ reducer.evicted) →
        openOverflow = reducer.openOverflow) := by
  unfold EfficiencyReducer.countReturn
  cases key with
  | none => exact ⟨_, _, rfl, fun _ h => h, fun _ => rfl⟩
  | some key =>
    by_cases hmem : key ∈ reducer.evicted
    · dsimp only
      rw [if_pos hmem]
      exact ⟨_, _, rfl, fun _ h => List.mem_of_mem_erase h, fun h => absurd hmem (h key rfl)⟩
    · dsimp only
      rw [if_neg hmem]
      exact ⟨_, _, rfl, fun _ h => h, fun _ => rfl⟩

lemma TracksWindow.evictOldest (h : TracksWindow lookup older newer reducer left) :
    ∃ gone stay left reorder folded evicted, newer = gone ++ stay ∧
      stay.length < MAX_OPEN_MESSAGES ∧
      (older ++ gone ≠ [] → stay.length + 1 = MAX_OPEN_MESSAGES) ∧
      reducer.evictOldest = { reducer with
        openTurns := turnsFrom lookup (older ++ gone).length stay
        reorder
        folded
        evicted } ∧
      Buffered (turnsFrom lookup 0 (older ++ gone)) reducer.evictOldest left ∧
      ∀ key ∈ evicted, ∃ group ∈ older ++ gone, group.id = some key := by
  unfold EfficiencyReducer.evictOldest
  have hlen : reducer.openTurns.length = newer.length := by
    rw [h.openTurns, length_turnsFrom]
  by_cases hfull : reducer.openTurns.length = MAX_OPEN_MESSAGES
  · rw [if_pos hfull]
    cases newer with
    | nil =>
      rw [hlen] at hfull
      exact absurd hfull (by decide)
    | cons group stay =>
      rw [hlen, List.length_cons] at hfull
      have hopen : reducer.openTurns = group.turn lookup older.length ::
          turnsFrom lookup (older.length + 1) stay := h.openTurns
      rw [hopen]
      dsimp only
      have hbuffer : Buffered (turnsFrom lookup 0 older)
          { reducer with openTurns := turnsFrom lookup (older.length + 1) stay } left :=
        ⟨h.buffered.runs, h.buffered.folded⟩
      obtain ⟨reorder, folded, left, hturn, hnext⟩ :=
        finalizeTurn_spec hbuffer (group.turn lookup older.length)
      have holder : turnsFrom lookup 0 older ++ [group.turn lookup older.length] =
          turnsFrom lookup 0 (older ++ [group]) := by
        rw [turnsFrom_append, Nat.zero_add]
        rfl
      rw [holder] at hnext
      rw [hturn]
      have hsize : older.length + 1 = (older ++ [group]).length := by simp
      rw [hsize] at hnext ⊢
      have hkept : ∀ key ∈ reducer.evicted, ∃ other ∈ older ++ [group], other.id = some key := by
        intro key hkey
        obtain ⟨other, hother, hid⟩ := h.evicted key hkey
        exact ⟨other, List.mem_append_left _ hother, hid⟩
      show ∃ gone stay left reorder folded evicted, _
      cases hid : group.id with
      | none =>
        refine ⟨[group], stay, left, reorder, folded, reducer.evicted, rfl, by omega,
          fun _ => hfull, ?_, ?_, hkept⟩
        · rw [show (group.turn lookup older.length).id = none from hid]
        · rw [show (group.turn lookup older.length).id = none from hid]
          exact hnext
      | some id =>
        refine ⟨[group], stay, left, reorder, folded,
          (if reducer.evicted.length = MAX_EFF_EVICTED then reducer.evicted.tail
            else reducer.evicted) ++ [id], rfl, by omega, fun _ => hfull, ?_, ?_, ?_⟩
        · rw [show (group.turn lookup older.length).id = some id from hid]
        · rw [show (group.turn lookup older.length).id = some id from hid]
          exact ⟨hnext.runs, hnext.folded⟩
        · intro key hkey
          rcases List.mem_append.mp hkey with hkey | hkey
          · refine hkept key ?_
            split at hkey
            · exact List.mem_of_mem_tail hkey
            · exact hkey
          · rw [List.mem_singleton.mp hkey]
            exact ⟨group, List.mem_append_right _ List.mem_cons_self, hid⟩
  · rw [if_neg hfull]
    rw [hlen] at hfull
    have hsmall := h.small
    refine ⟨[], newer, left, reducer.reorder, reducer.folded, reducer.evicted, rfl, by omega,
      fun hne => ?_, ?_, ?_, ?_⟩
    · rw [List.append_nil] at hne
      exact absurd (h.full hne) hfull
    · rw [List.append_nil, ← h.openTurns]
    · rw [List.append_nil]
      exact h.buffered
    · rw [List.append_nil]
      exact h.evicted

structure InWindow (lookup : String → Option String → Option ρ) (grouping : Grouping)
    (older newer : List ReferenceTurn) (reducer : EfficiencyReducer ρ) (left : List (Turn ρ)) :
    Prop where
  turns : grouping.turns = older ++ newer
  lastTs : grouping.lastTs = reducer.lastTs
  tracks : TracksWindow lookup older newer reducer left

def ReturnsToNone (older : List ReferenceTurn) (input : EfficiencyInput) : Prop :=
  input.role = .assistant → ∀ key, input.messageKey = some key →
    ∀ group ∈ older, group.id ≠ some key

lemma InWindow.observe {grouping : Grouping}
    (h : InWindow lookup grouping older newer reducer left) (input : EfficiencyInput) :
    (∃ older newer left, InWindow lookup (grouping.stepWindow input) older newer
        (reducer.observe lookup input) left) ∧
      (ReturnsToNone older input →
        (reducer.observe lookup input).openOverflow = reducer.openOverflow) := by
  obtain ⟨hturns, hlast, htracks⟩ := h
  have hsplit : grouping.turns.splitAt (grouping.turns.length - MAX_OPEN_MESSAGES) =
      (older, newer) := by
    rw [List.splitAt_eq, hturns, htracks.older_length, List.take_left, List.drop_left]
  unfold EfficiencyReducer.observe Grouping.stepWindow Grouping.stepAmong
  rw [hsplit, hlast]
  dsimp only
  by_cases hrole : input.role ≠ .assistant
  · rw [if_pos hrole, if_pos hrole]
    exact ⟨⟨older, newer, left, hturns, rfl, { htracks with
      buffered := ⟨htracks.buffered.runs, htracks.buffered.folded⟩ }⟩, fun _ => rfl⟩
  rw [if_neg hrole, if_neg hrole]
  have hjoin : (input.messageKey.bind fun key => joinOpen lookup key input reducer.openTurns) =
      (input.messageKey.bind fun key => joinGroup key input newer).map
        (turnsFrom lookup older.length) := by
    rw [htracks.openTurns, Option.map_bind]
    exact Option.bind_congr fun key _ => joinOpen_turnsFrom lookup key input newer older.length
  rw [hjoin]
  cases hgroup : input.messageKey.bind fun key => joinGroup key input newer with
  | some joined =>
    -- the record joins an open turn
    obtain ⟨key, -, hkey⟩ := Option.bind_eq_some_iff.mp hgroup
    have hlen := joinGroup_length hkey
    refine ⟨⟨older, joined, left, rfl, rfl, ?_⟩, fun _ => rfl⟩
    exact {
      small := hlen ▸ htracks.small
      full := fun hne => hlen ▸ htracks.full hne
      creation := hlen ▸ htracks.creation
      openTurns := rfl
      buffered := ⟨htracks.buffered.runs, htracks.buffered.folded⟩
      evicted := htracks.evicted }
  | none =>
    -- the record opens a turn, and the oldest one makes room
    obtain ⟨evicted, openOverflow, hreturn, hsub, hquiet⟩ := countReturn_spec
      { reducer with lastTs := input.tsMs.getD reducer.lastTs } input.messageKey
    dsimp only [Option.map_none]
    rw [hreturn]
    have hcntd : TracksWindow lookup older newer
        { reducer with
          lastTs := input.tsMs.getD reducer.lastTs
          evicted
          openOverflow } left := {
      small := htracks.small
      full := htracks.full
      creation := htracks.creation
      openTurns := htracks.openTurns
      buffered := ⟨htracks.buffered.runs, htracks.buffered.folded⟩
      evicted := fun key hkey => htracks.evicted key (hsub key hkey) }
    obtain ⟨gone, stay, left, reorder, folded, kept, rfl, hsmall, hfull, hevict, hbuffer, hkept⟩ :=
      hcntd.evictOldest
    rw [hevict] at hbuffer ⊢
    refine ⟨⟨older ++ gone, stay ++ [input.group (input.tsMs.getD reducer.lastTs)], left, ?_, rfl, ?_⟩,
      fun hnone => ?_⟩
    · rw [hturns]
      simp only [List.append_assoc]
    · exact {
        small := by rw [List.length_append, List.length_singleton]; omega
        full := fun hne => by
          rw [List.length_append, List.length_singleton]
          exact hfull hne
        creation := by
          have hcount := htracks.creation
          rw [List.length_append] at hcount
          rw [List.length_append, List.length_append, List.length_singleton]
          show reducer.creation + 1 = _
          omega
        openTurns := by
          have hcount : reducer.creation = (older ++ gone).length + stay.length := by
            have hcreation := htracks.creation
            rw [List.length_append] at hcreation ⊢
            omega
          rw [turnsFrom_append, ← hcount]
          rfl
        buffered := ⟨hbuffer.runs, hbuffer.folded⟩
        evicted := hkept }
    · refine hquiet fun key hkey hmem => ?_
      obtain ⟨group, hgroup, hid⟩ := htracks.evicted key hmem
      exact hnone (not_not.mp hrole) key hkey group hgroup hid

lemma inWindow_ofInputs (lookup : String → Option String → Option ρ)
    (inputs : List EfficiencyInput) :
    ∃ older newer left, InWindow lookup (Grouping.windowed inputs) older newer
      (.ofInputs lookup inputs) left := by
  induction inputs using List.reverseRecOn with
  | nil =>
    refine ⟨[], [], [], rfl, rfl, ?_⟩
    exact ⟨by decide, fun h => absurd rfl h, rfl, rfl, ⟨.start, rfl⟩,
      fun _ h => absurd h List.not_mem_nil⟩
  | append_singleton inputs input ih =>
    obtain ⟨older, newer, left, h⟩ := ih
    unfold Grouping.windowed EfficiencyReducer.ofInputs
    rw [List.foldl_append, List.foldl_append]
    exact (h.observe input).1

lemma InWindow.flush {grouping : Grouping}
    (h : InWindow lookup grouping older newer reducer left) :
    ∃ inside left drained, Runs Turn.place MAX_EFF_REORDER
        ((turnsFrom lookup 0 grouping.turns).filter Turn.hasOutput) inside left ∧
      Drains Turn.place inside drained ∧
      reducer.flush.folded = (left ++ drained).foldl EfficiencyFold.fold {} ∧
      reducer.flush.openOverflow = reducer.openOverflow := by
  obtain ⟨hturns, -, htracks⟩ := h
  unfold EfficiencyReducer.flush EfficiencyReducer.finalizeOpen
  rw [htracks.openTurns]
  have hstart : Buffered (turnsFrom lookup 0 older) { reducer with openTurns := [] } left :=
    ⟨htracks.buffered.runs, htracks.buffered.folded⟩
  obtain ⟨reorder, folded, left, hfinal, hbuffer⟩ :=
    finalizeTurns_spec (turnsFrom lookup older.length newer) hstart
  rw [hfinal]
  obtain ⟨drained, hdrains, hall⟩ := @emitAll_spec ρ reorder.length
    { reducer with openTurns := [], reorder, folded } rfl
  refine ⟨reorder, left, drained, ?_, hdrains, ?_, ?_⟩
  · rw [hturns, turnsFrom_append, Nat.zero_add]
    exact hbuffer.runs
  · rw [hall, List.foldl_append, ← hbuffer.folded]
  · rw [hall]

/-- **Every turn with output is folded once**, on any input. -/
lemma flush_folds_once (lookup : String → Option String → Option ρ)
    (inputs : List EfficiencyInput) :
    ∃ folded : List (Turn ρ),
      folded.Perm ((turnsFrom lookup 0 (Grouping.windowed inputs).turns).filter Turn.hasOutput) ∧
        (EfficiencyReducer.ofInputs lookup inputs).flush.folded = folded.foldl .fold {} := by
  obtain ⟨older, newer, left, h⟩ := inWindow_ofInputs lookup inputs
  obtain ⟨inside, left, drained, hruns, hdrains, hfolded, -⟩ := h.flush
  exact ⟨left ++ drained, perm_of_drains hruns hdrains, hfolded⟩

end Lookup

end Windows

end Antiburn
