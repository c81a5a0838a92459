/-
The slot grid as a function of the contributions.

A slot carries three kinds of facts.  Counters add up and extremes are taken,
in any order.  A stamped fact keeps the ordinal it was seen at, and the later
one stays; on equal ordinals the one that was there first stays, so the order
does not matter where equal ordinals carry equal facts.  Priced tokens add up
by pricing key; only the order of the entries tells who came first.
-/
import Antiburn.Lib.Grid
import Antiburn.MetricsSlots

namespace Antiburn

open Cell (mergeOption)

/-! ### Choices -/

section Choices

variable {α : Type}

def prefer (wins : α → α → Bool) (current incoming : α) : α :=
  if wins incoming current then incoming else current

def mergeIf (wins : α → α → Bool) (target incoming : Option α) : Option α :=
  if incoming.any fun value => target.all fun current => wins value current then incoming
  else target

/-- Winning orders the values up to ties. -/
structure Ranks (wins : α → α → Bool) : Prop where
  asymm : ∀ a b, wins a b = true → wins b a = false
  trans : ∀ a b c, wins b a = false → wins c b = false → wins c a = false

variable {wins : α → α → Bool}

lemma mergeIf_eq (target incoming : Option α) :
    mergeIf wins target incoming = mergeOption (prefer wins) target incoming := by
  cases incoming with
  | none => cases target <;> rfl
  | some value =>
    cases target with
    | none => rfl
    | some current =>
      show (if wins value current = true then some value else some current) =
        some (prefer wins current value)
      unfold prefer
      split <;> rfl

lemma prefer_assoc (h : Ranks wins) (a b c : α) :
    prefer wins (prefer wins a b) c = prefer wins a (prefer wins b c) := by
  unfold prefer
  cases hba : wins b a <;> cases hcb : wins c b
  · simp only [hba, h.trans a b c hba hcb, Bool.false_eq_true, if_false]
  · simp only [Bool.false_eq_true, if_false, if_true]
  · simp only [hba, hcb, Bool.false_eq_true, if_false, if_true]
  · -- a value that wins against a winner wins
    have hca : wins c a = true := by
      by_contra hne
      have htie := h.trans b a c (h.asymm b a hba) (by simpa using hne)
      rw [hcb] at htie
      cases htie
    simp only [hcb, hca, if_true]

lemma prefer_comm (h : Ranks wins) {a b : α}
    (hties : wins a b = false → wins b a = false → a = b) :
    prefer wins a b = prefer wins b a := by
  unfold prefer
  cases hba : wins b a <;> cases hab : wins a b
  · rw [hties hab hba]
  · simp only [Bool.false_eq_true, if_false, if_true]
  · simp only [Bool.false_eq_true, if_false, if_true]
  · rw [h.asymm a b hab] at hba
    cases hba

lemma mergeOption_assoc {merge : α → α → α}
    (h : ∀ a b c, merge (merge a b) c = merge a (merge b c)) (a b c : Option α) :
    mergeOption merge (mergeOption merge a b) c = mergeOption merge a (mergeOption merge b c) := by
  cases a <;> cases b <;> cases c <;> first | rfl | exact congrArg some (h _ _ _)

lemma mergeOption_comm {merge : α → α → α} {a b : Option α}
    (h : ∀ x ∈ a, ∀ y ∈ b, merge x y = merge y x) :
    mergeOption merge a b = mergeOption merge b a := by
  cases a <;> cases b <;> first | rfl | exact congrArg some (h _ rfl _ rfl)

lemma mergeIf_assoc (h : Ranks wins) (a b c : Option α) :
    mergeIf wins (mergeIf wins a b) c = mergeIf wins a (mergeIf wins b c) := by
  rw [mergeIf_eq, mergeIf_eq, mergeIf_eq, mergeIf_eq]
  exact mergeOption_assoc (prefer_assoc h) a b c

lemma mergeIf_comm (h : Ranks wins) {a b : Option α}
    (hties : ∀ x ∈ a, ∀ y ∈ b, wins x y = false → wins y x = false → x = y) :
    mergeIf wins a b = mergeIf wins b a := by
  rw [mergeIf_eq, mergeIf_eq]
  exact mergeOption_comm fun x hx y hy => prefer_comm h (hties x hx y hy)

lemma ranks_later (stamp : α → Nat) :
    Ranks fun value current => decide (stamp value > stamp current) where
  asymm a b h := by
    have h := of_decide_eq_true h
    exact decide_eq_false (by omega)
  trans a b c h h' := by
    have h := of_decide_eq_false h
    have h' := of_decide_eq_false h'
    exact decide_eq_false (by omega)

lemma ranks_earlier (stamp : α → Nat) :
    Ranks fun value current => decide (stamp value < stamp current) where
  asymm a b h := by
    have h := of_decide_eq_true h
    exact decide_eq_false (by omega)
  trans a b c h h' := by
    have h := of_decide_eq_false h
    have h' := of_decide_eq_false h'
    exact decide_eq_false (by omega)

end Choices

lemma ranks_keyLt : Ranks keyLt where
  asymm a b h := by
    simp only [keyLt, Bool.or_eq_true, Bool.and_eq_true, decide_eq_true_eq, beq_iff_eq,
      Bool.or_eq_false_iff, Bool.and_eq_false_iff, decide_eq_false_iff_not] at h ⊢
    simp only [beq_eq_false_iff_ne]
    omega
  trans a b c h h' := by
    simp only [keyLt, Bool.or_eq_false_iff, Bool.and_eq_false_iff, decide_eq_false_iff_not,
      beq_eq_false_iff_ne] at h h' ⊢
    omega

lemma ranks_keyLt_swap : Ranks fun value current => keyLt current value where
  asymm a b h := ranks_keyLt.asymm b a h
  trans a b c h h' := ranks_keyLt.trans c b a h' h

lemma keyLt_ties {a b : Int × Nat} (h : keyLt a b = false) (h' : keyLt b a = false) : a = b := by
  simp only [keyLt, Bool.or_eq_false_iff, Bool.and_eq_false_iff, decide_eq_false_iff_not,
    beq_eq_false_iff_ne] at h h'
  exact Prod.ext (by omega) (by omega)

/-! ### Stamped facts -/

structure StampedName where
  ordinal : Nat
  name : NameId
  deriving DecidableEq

inductive CompactionTrigger where
  | manual
  | auto
  deriving DecidableEq

structure CompactionMark where
  effectiveTs : Int
  ordinal : Nat
  trigger : Option CompactionTrigger
  preTokens : Option Nat
  postTokens : Option Nat
  deriving DecidableEq

structure CacheRehydrationMark where
  ordinal : Nat
  contextTokens : Nat
  stillCachedTokens : Nat
  rewrittenTokens : Nat
  growthTokens : Nat
  userInactiveSecs : Option Nat
  deriving DecidableEq

@[ext]
structure CacheSlot where
  isRehydration : Bool := false
  isRoutingMiss : Bool := false
  rehydrationGap : Option (Nat × Option Nat) := none
  rehydration : Option CacheRehydrationMark := none
  deriving DecidableEq

def mergeLast (target incoming : Option StampedName) : Option StampedName :=
  mergeIf (fun value current => value.ordinal > current.ordinal) target incoming

def mergeCompaction (target incoming : Option CompactionMark) : Option CompactionMark :=
  mergeIf (fun value current => value.ordinal > current.ordinal) target incoming

def mergeFirstGap (target incoming : Option (Nat × Nat)) : Option (Nat × Nat) :=
  mergeIf (fun value current => value.1 < current.1) target incoming

def mergeCache (target incoming : CacheSlot) : CacheSlot where
  isRehydration := target.isRehydration || incoming.isRehydration
  isRoutingMiss := target.isRoutingMiss || incoming.isRoutingMiss
  rehydrationGap :=
    mergeIf (fun value current => value.1 > current.1) target.rehydrationGap incoming.rehydrationGap
  rehydration :=
    mergeIf (fun value current => value.ordinal > current.ordinal) target.rehydration
      incoming.rehydration

lemma mergeCache_assoc (a b c : CacheSlot) :
    mergeCache (mergeCache a b) c = mergeCache a (mergeCache b c) :=
  CacheSlot.ext (Bool.or_assoc _ _ _) (Bool.or_assoc _ _ _)
    (mergeIf_assoc (ranks_later Prod.fst) _ _ _)
    (mergeIf_assoc (ranks_later CacheRehydrationMark.ordinal) _ _ _)

/-- Marks of one ordinal are equal. -/
def AgreeOn {α : Type} (stamp : α → Nat) (a b : Option α) : Prop :=
  ∀ x ∈ a, ∀ y ∈ b, stamp x = stamp y → x = y

section

variable {α : Type} {stamp : α → Nat} {a b : Option α} (h : AgreeOn stamp a b)
include h

lemma AgreeOn.later :
    mergeIf (fun value current => decide (stamp value > stamp current)) a b =
      mergeIf (fun value current => decide (stamp value > stamp current)) b a :=
  mergeIf_comm (ranks_later stamp) fun x hx y hy hxy hyx => h x hx y hy (by
    have hxy := of_decide_eq_false hxy
    have hyx := of_decide_eq_false hyx
    omega)

lemma AgreeOn.earlier :
    mergeIf (fun value current => decide (stamp value < stamp current)) a b =
      mergeIf (fun value current => decide (stamp value < stamp current)) b a :=
  mergeIf_comm (ranks_earlier stamp) fun x hx y hy hxy hyx => h x hx y hy (by
    have hxy := of_decide_eq_false hxy
    have hyx := of_decide_eq_false hyx
    omega)

end

structure CacheSlot.Agree (a b : CacheSlot) : Prop where
  rehydrationGap : AgreeOn Prod.fst a.rehydrationGap b.rehydrationGap
  rehydration : AgreeOn CacheRehydrationMark.ordinal a.rehydration b.rehydration

lemma mergeCache_comm {a b : CacheSlot} (h : a.Agree b) : mergeCache a b = mergeCache b a :=
  CacheSlot.ext (Bool.or_comm _ _) (Bool.or_comm _ _) h.rehydrationGap.later h.rehydration.later

/-! ### Priced tokens by key -/

lemma saturatingAdd_comm (a b : Nat) : saturatingAdd a b = saturatingAdd b a := by
  rw [saturatingAdd, saturatingAdd, Nat.add_comm]

lemma saturatingAdd_assoc (a b c : Nat) :
    saturatingAdd (saturatingAdd a b) c = saturatingAdd a (saturatingAdd b c) := by
  unfold saturatingAdd
  generalize U64_MAX = most
  omega

namespace PricedTokens

attribute [ext] PricedTokens

def key (tokens : PricedTokens) : PricedModel × Bool := (tokens.model, tokens.fast)

lemma add_assoc (a b c : PricedTokens) : (a.add b).add c = a.add (b.add c) :=
  PricedTokens.ext rfl rfl (saturatingAdd_assoc _ _ _) (saturatingAdd_assoc _ _ _)
    (saturatingAdd_assoc _ _ _) (saturatingAdd_assoc _ _ _) (saturatingAdd_assoc _ _ _)

lemma add_comm {a b : PricedTokens} (h : a.key = b.key) : a.add b = b.add a :=
  PricedTokens.ext (congrArg Prod.fst h) (congrArg Prod.snd h) (saturatingAdd_comm _ _)
    (saturatingAdd_comm _ _) (saturatingAdd_comm _ _) (saturatingAdd_comm _ _)
    (saturatingAdd_comm _ _)

@[simp] lemma key_add (a b : PricedTokens) : (a.add b).key = a.key := rfl

lemma hasTokens_add {a : PricedTokens} (b : PricedTokens) (h : a.hasTokens = true) :
    (a.add b).hasTokens = true := by
  have hadd : ∀ {m : Nat} (n : Nat), m ≠ 0 → saturatingAdd m n ≠ 0 := by
    intro m n hm
    unfold saturatingAdd U64_MAX
    omega
  simp only [hasTokens, Bool.or_eq_true, bne_iff_ne, or_assoc] at h ⊢
  exact h.imp (hadd _) (Or.imp (hadd _) (Or.imp (hadd _) (Or.imp (hadd _) (hadd _))))

end PricedTokens

structure WellPriced (entries : List PricedTokens) : Prop where
  keys : (entries.map PricedTokens.key).Nodup
  tokens : ∀ entry ∈ entries, entry.hasTokens = true

lemma WellPriced.nil : WellPriced [] := ⟨.nil, fun _ h => by cases h⟩

def pricedAt (key : PricedModel × Bool) : List PricedTokens → Option PricedTokens
  | [] => none
  | entry :: rest => if entry.key = key then some entry else pricedAt key rest

variable {entries target : List PricedTokens} {entry : PricedTokens}

lemma key_of_pricedAt {key : PricedModel × Bool}
    (h : pricedAt key entries = some entry) :
    entry ∈ entries ∧ entry.key = key := by
  induction entries with
  | nil => cases h
  | cons first rest ih =>
    rw [pricedAt] at h
    split_ifs at h with hkey
    · cases h
      exact ⟨List.mem_cons_self, hkey⟩
    · obtain ⟨hmem, hentry⟩ := ih h
      exact ⟨List.mem_cons_of_mem _ hmem, hentry⟩

lemma pricedAt_of_notMem {key : PricedModel × Bool}
    (h : key ∉ entries.map PricedTokens.key) : pricedAt key entries = none := by
  cases hentry : pricedAt key entries with
  | none => rfl
  | some entry =>
    obtain ⟨hmem, hkey⟩ := key_of_pricedAt hentry
    exact absurd (List.mem_map.mpr ⟨entry, hmem, hkey⟩) h

lemma pricedAt_of_mem (h : WellPriced entries)
    (hmem : entry ∈ entries) : pricedAt entry.key entries = some entry := by
  obtain ⟨hkeys, -⟩ := h
  induction entries with
  | nil => cases hmem
  | cons first rest ih =>
    rw [List.map_cons, List.nodup_cons] at hkeys
    rw [pricedAt]
    rcases List.mem_cons.mp hmem with rfl | hmem
    · exact if_pos rfl
    · have hne : first.key ≠ entry.key := by
        intro heq
        exact hkeys.1 (List.mem_map.mpr ⟨entry, hmem, heq.symm⟩)
      rw [if_neg hne]
      exact ih hmem hkeys.2

lemma mem_addPricedTokens {incoming : PricedTokens}
    (h : entry ∈ addPricedTokens incoming target) :
    entry = incoming ∨ entry ∈ target ∨ ∃ old ∈ target, entry = old.add incoming := by
  induction target with
  | nil => exact .inl (List.mem_singleton.mp h)
  | cons first rest ih =>
    rw [addPricedTokens] at h
    split_ifs at h
    · rcases List.mem_cons.mp h with rfl | hmem
      · exact .inr (.inr ⟨first, List.mem_cons_self, rfl⟩)
      · exact .inr (.inl (List.mem_cons_of_mem _ hmem))
    · rcases List.mem_cons.mp h with rfl | hmem
      · exact .inr (.inl List.mem_cons_self)
      · rcases ih hmem with rfl | hold | ⟨old, hold, rfl⟩
        · exact .inl rfl
        · exact .inr (.inl (List.mem_cons_of_mem _ hold))
        · exact .inr (.inr ⟨old, List.mem_cons_of_mem _ hold, rfl⟩)

lemma key_eq_iff {incoming : PricedTokens} :
    entry.key = incoming.key ↔ entry.model = incoming.model ∧ entry.fast = incoming.fast :=
  Prod.ext_iff

lemma addPricedTokens_cons (incoming first : PricedTokens) (rest : List PricedTokens) :
    addPricedTokens incoming (first :: rest) =
      if first.key = incoming.key then first.add incoming :: rest
      else first :: addPricedTokens incoming rest :=
  if_congr key_eq_iff.symm rfl rfl

lemma keys_addPricedTokens (incoming : PricedTokens) (target : List PricedTokens) :
    (addPricedTokens incoming target).map PricedTokens.key =
      if incoming.key ∈ target.map PricedTokens.key then target.map PricedTokens.key
      else target.map PricedTokens.key ++ [incoming.key] := by
  induction target with
  | nil => rfl
  | cons first rest ih =>
    rw [addPricedTokens_cons]
    by_cases hkey : first.key = incoming.key
    · rw [if_pos hkey, if_pos (hkey ▸ List.mem_cons_self)]
      rfl
    · rw [if_neg hkey, List.map_cons, ih, List.map_cons]
      by_cases hmem : incoming.key ∈ rest.map PricedTokens.key
      · rw [if_pos hmem, if_pos (List.mem_cons_of_mem _ hmem)]
      · rw [if_neg hmem, if_neg fun h => (List.mem_cons.mp h).elim (fun h => hkey h.symm) hmem]
        rfl

lemma wellPriced_fold (h : WellPriced target)
    (incoming : PricedTokens) : WellPriced (foldPricedTokens target incoming) := by
  unfold foldPricedTokens
  split_ifs with htokens
  · constructor
    · rw [keys_addPricedTokens]
      split_ifs with hmem
      · exact h.keys
      · refine List.nodup_append.mpr ⟨h.keys, List.nodup_singleton _, fun key hkey other hother => ?_⟩
        rw [List.mem_singleton.mp hother]
        exact fun heq => hmem (heq ▸ hkey)
    · intro entry hentry
      rcases mem_addPricedTokens hentry with rfl | hold | ⟨old, hold, rfl⟩
      · exact htokens
      · exact h.tokens entry hold
      · exact PricedTokens.hasTokens_add _ (h.tokens old hold)
  · exact h

lemma wellPriced_foldl (h : WellPriced target)
    (incoming : List PricedTokens) : WellPriced (incoming.foldl foldPricedTokens target) := by
  induction incoming generalizing target with
  | nil => exact h
  | cons first rest ih => exact ih (wellPriced_fold h first)

lemma pricedAt_add (incoming : PricedTokens) (target : List PricedTokens)
    (key : PricedModel × Bool) : pricedAt key (addPricedTokens incoming target) =
      mergeOption PricedTokens.add (pricedAt key target)
        (if incoming.key = key then some incoming else none) := by
  induction target with
  | nil =>
    rw [addPricedTokens, pricedAt, pricedAt, Cell.mergeOption_none_left]
    rfl
  | cons first rest ih =>
    rw [addPricedTokens_cons]
    by_cases hkey : first.key = incoming.key
    · rw [if_pos hkey, pricedAt, pricedAt, PricedTokens.key_add]
      by_cases hfirst : first.key = key
      · rw [if_pos hfirst, if_pos hfirst, if_pos (hkey.symm.trans hfirst)]
        rfl
      · rw [if_neg hfirst, if_neg hfirst, if_neg fun h => hfirst (hkey.trans h),
          Cell.mergeOption_none_right]
    · rw [if_neg hkey, pricedAt, pricedAt, ih]
      by_cases hfirst : first.key = key
      · rw [if_pos hfirst, if_pos hfirst, if_neg fun h => hkey (hfirst.trans h.symm),
          Cell.mergeOption_none_right]
      · rw [if_neg hfirst, if_neg hfirst]

/-- **Folding priced entries in adds the tokens of each key.** -/
lemma pricedAt_foldl {incoming : List PricedTokens} (h : WellPriced incoming)
    (target : List PricedTokens) (key : PricedModel × Bool) :
    pricedAt key (incoming.foldl foldPricedTokens target) =
      mergeOption PricedTokens.add (pricedAt key target) (pricedAt key incoming) := by
  obtain ⟨hkeys, htokens⟩ := h
  induction incoming generalizing target with
  | nil => rw [List.foldl_nil, pricedAt, Cell.mergeOption_none_right]
  | cons first rest ih =>
    rw [List.map_cons, List.nodup_cons] at hkeys
    have hfirst : foldPricedTokens target first = addPricedTokens first target :=
      if_pos (htokens first List.mem_cons_self)
    rw [List.foldl_cons, ih _ hkeys.2 (fun entry hentry => htokens entry
      (List.mem_cons_of_mem _ hentry)), hfirst, pricedAt_add, pricedAt]
    by_cases hkey : first.key = key
    · -- the key occurs once, so the rest adds nothing to it
      have hrest : pricedAt key rest = none := pricedAt_of_notMem (hkey ▸ hkeys.1)
      rw [if_pos hkey, if_pos hkey, hrest, Cell.mergeOption_none_right]
    · rw [if_neg hkey, if_neg hkey, Cell.mergeOption_none_right]

lemma perm_of_pricedAt {other : List PricedTokens} (h : WellPriced entries)
    (h' : WellPriced other) (heq : ∀ key, pricedAt key entries = pricedAt key other) :
    entries.Perm other := by
  refine (List.perm_ext_iff_of_nodup h.keys.of_map h'.keys.of_map).mpr fun entry => ?_
  constructor
  · intro hmem
    have hentry := pricedAt_of_mem h hmem
    rw [heq] at hentry
    exact (key_of_pricedAt hentry).1
  · intro hmem
    have hentry := pricedAt_of_mem h' hmem
    rw [← heq] at hentry
    exact (key_of_pricedAt hentry).1

/-! ### Slots with all their facts -/

attribute [ext] SlotAggregate

/-- Greatest 32-bit counter. -/
def U32_MAX : Nat := 2 ^ 32 - 1

/-- `u32::saturating_add`. -/
def saturatingAdd32 (a b : Nat) : Nat := min (a + b) U32_MAX

/-- A slot with all its facts.  Priced entries come from `fold_priced_tokens`, or are the one
entry of an event with tokens. -/
@[ext]
structure FullAggregate extends SlotAggregate where
  userPrompts : Nat
  subagentLaunches : Nat
  hasThinking : Bool
  model : Option StampedName
  thinkingMode : Option StampedName
  speed : Option StampedName
  lastTool : Option StampedName
  firstCompactionKey : Option (Int × Nat)
  compaction : Option CompactionMark
  firstGap : Option (Nat × Nat)
  cacheMode1 : CacheSlot
  cacheMode2 : CacheSlot
  wellPriced : WellPriced priced

namespace FullAggregate

def new (ordinal : Nat) (effectiveTs : Int) : FullAggregate where
  toSlotAggregate := SlotAggregate.new ordinal effectiveTs
  userPrompts := 0
  subagentLaunches := 0
  hasThinking := false
  model := none
  thinkingMode := none
  speed := none
  lastTool := none
  firstCompactionKey := none
  compaction := none
  firstGap := none
  cacheMode1 := {}
  cacheMode2 := {}
  wellPriced := .nil

def merge (slot other : FullAggregate) : FullAggregate where
  toSlotAggregate := slot.toSlotAggregate.merge other.toSlotAggregate
  userPrompts := saturatingAdd32 slot.userPrompts other.userPrompts
  subagentLaunches := saturatingAdd32 slot.subagentLaunches other.subagentLaunches
  hasThinking := slot.hasThinking || other.hasThinking
  model := mergeLast slot.model other.model
  thinkingMode := mergeLast slot.thinkingMode other.thinkingMode
  speed := mergeLast slot.speed other.speed
  lastTool := mergeLast slot.lastTool other.lastTool
  firstCompactionKey :=
    match slot.firstCompactionKey, other.firstCompactionKey with
    | some left, some right => some (if keyLt right left then right else left)
    | left, right => left.or right
  compaction := mergeCompaction slot.compaction other.compaction
  firstGap := mergeFirstGap slot.firstGap other.firstGap
  cacheMode1 := mergeCache slot.cacheMode1 other.cacheMode1
  cacheMode2 := mergeCache slot.cacheMode2 other.cacheMode2
  wellPriced := wellPriced_foldl slot.wellPriced other.priced

structure Agree (a b : FullAggregate) : Prop where
  model : AgreeOn StampedName.ordinal a.model b.model
  thinkingMode : AgreeOn StampedName.ordinal a.thinkingMode b.thinkingMode
  speed : AgreeOn StampedName.ordinal a.speed b.speed
  lastTool : AgreeOn StampedName.ordinal a.lastTool b.lastTool
  compaction : AgreeOn CompactionMark.ordinal a.compaction b.compaction
  firstGap : AgreeOn Prod.fst a.firstGap b.firstGap
  cacheMode1 : a.cacheMode1.Agree b.cacheMode1
  cacheMode2 : a.cacheMode2.Agree b.cacheMode2

def unpriced (slot : FullAggregate) : FullAggregate where
  toSlotAggregate := { slot.toSlotAggregate with priced := [] }
  userPrompts := slot.userPrompts
  subagentLaunches := slot.subagentLaunches
  hasThinking := slot.hasThinking
  model := slot.model
  thinkingMode := slot.thinkingMode
  speed := slot.speed
  lastTool := slot.lastTool
  firstCompactionKey := slot.firstCompactionKey
  compaction := slot.compaction
  firstGap := slot.firstGap
  cacheMode1 := slot.cacheMode1
  cacheMode2 := slot.cacheMode2
  wellPriced := .nil

/-- Equal up to the order of the priced entries. -/
def Same (a b : FullAggregate) : Prop := a.unpriced = b.unpriced ∧ a.priced.Perm b.priced

end FullAggregate

/-! ### Merging is associative, and commutes under agreement -/

lemma saturatingAdd32_comm (a b : Nat) : saturatingAdd32 a b = saturatingAdd32 b a := by
  rw [saturatingAdd32, saturatingAdd32, Nat.add_comm]

lemma saturatingAdd32_assoc (a b c : Nat) :
    saturatingAdd32 (saturatingAdd32 a b) c = saturatingAdd32 a (saturatingAdd32 b c) := by
  unfold saturatingAdd32
  generalize U32_MAX = most
  omega

lemma SlotAggregate.merge_timestamp (a b : SlotAggregate) :
    (a.merge b).timestamp = mergeOption min a.timestamp b.timestamp := by
  unfold merge
  dsimp only
  cases a.timestamp <;> cases b.timestamp <;> rfl

lemma SlotAggregate.merge_assoc (a b c : SlotAggregate) :
    { (a.merge b).merge c with priced := [] } = { a.merge (b.merge c) with priced := [] } := by
  have hfirst := prefer_assoc ranks_keyLt a.firstKey b.firstKey c.firstKey
  ext1
  · exact Nat.min_assoc _ _ _
  · exact Nat.max_assoc _ _ _
  · exact hfirst
  · exact prefer_assoc ranks_keyLt_swap a.lastKey b.lastKey c.lastKey
  · exact congrArg Prod.fst hfirst
  · show ((a.merge b).merge c).timestamp = (a.merge (b.merge c)).timestamp
    simp only [merge_timestamp]
    exact mergeOption_assoc min_assoc _ _ _
  · exact saturatingAdd_assoc _ _ _
  · exact saturatingAdd_assoc _ _ _
  · exact saturatingAdd_assoc _ _ _
  · exact saturatingAdd_assoc _ _ _
  · exact saturatingAdd_assoc _ _ _
  · exact Nat.max_assoc _ _ _
  · rfl

lemma SlotAggregate.merge_comm (a b : SlotAggregate) :
    { a.merge b with priced := [] } = { b.merge a with priced := [] } := by
  -- keys have no ties, so the least one is the same in both orders
  have hfirst : prefer keyLt a.firstKey b.firstKey = prefer keyLt b.firstKey a.firstKey :=
    prefer_comm ranks_keyLt keyLt_ties
  ext1
  · exact Nat.min_comm _ _
  · exact Nat.max_comm _ _
  · exact hfirst
  · exact prefer_comm ranks_keyLt_swap fun h h' => keyLt_ties h' h
  · exact congrArg Prod.fst hfirst
  · show (a.merge b).timestamp = (b.merge a).timestamp
    rw [merge_timestamp, merge_timestamp]
    exact mergeOption_comm fun x _ y _ => min_comm x y
  · exact saturatingAdd_comm _ _
  · exact saturatingAdd_comm _ _
  · exact saturatingAdd_comm _ _
  · exact saturatingAdd_comm _ _
  · exact saturatingAdd_comm _ _
  · exact Nat.max_comm _ _
  · rfl

variable {a b : FullAggregate}

namespace FullAggregate

lemma merge_firstCompactionKey (a b : FullAggregate) : (a.merge b).firstCompactionKey =
    mergeOption (prefer keyLt) a.firstCompactionKey b.firstCompactionKey := by
  unfold merge
  dsimp only
  cases a.firstCompactionKey <;> cases b.firstCompactionKey <;> rfl

lemma ext_unpriced
    (hbase : { a.toSlotAggregate with priced := [] } = { b.toSlotAggregate with priced := [] })
    (huserPrompts : a.userPrompts = b.userPrompts)
    (hsubagentLaunches : a.subagentLaunches = b.subagentLaunches)
    (hhasThinking : a.hasThinking = b.hasThinking) (hmodel : a.model = b.model)
    (hthinkingMode : a.thinkingMode = b.thinkingMode) (hspeed : a.speed = b.speed)
    (hlastTool : a.lastTool = b.lastTool)
    (hfirstCompactionKey : a.firstCompactionKey = b.firstCompactionKey)
    (hcomp : a.compaction = b.compaction) (hfirstGap : a.firstGap = b.firstGap)
    (hcacheMode1 : a.cacheMode1 = b.cacheMode1) (hcacheMode2 : a.cacheMode2 = b.cacheMode2) :
    a.unpriced = b.unpriced := by
  simp only [unpriced, FullAggregate.mk.injEq]
  exact ⟨hbase, huserPrompts, hsubagentLaunches, hhasThinking, hmodel, hthinkingMode, hspeed,
    hlastTool, hfirstCompactionKey, hcomp, hfirstGap, hcacheMode1, hcacheMode2⟩

lemma unpriced_merge_assoc (a b c : FullAggregate) :
    ((a.merge b).merge c).unpriced = (a.merge (b.merge c)).unpriced := by
  refine ext_unpriced (SlotAggregate.merge_assoc _ _ _) (saturatingAdd32_assoc _ _ _)
    (saturatingAdd32_assoc _ _ _) (Bool.or_assoc _ _ _) ?_ ?_ ?_ ?_ ?_ ?_ ?_
    (mergeCache_assoc _ _ _) (mergeCache_assoc _ _ _)
  · exact mergeIf_assoc (ranks_later StampedName.ordinal) _ _ _
  · exact mergeIf_assoc (ranks_later StampedName.ordinal) _ _ _
  · exact mergeIf_assoc (ranks_later StampedName.ordinal) _ _ _
  · exact mergeIf_assoc (ranks_later StampedName.ordinal) _ _ _
  · simp only [merge_firstCompactionKey]
    exact mergeOption_assoc (prefer_assoc ranks_keyLt) _ _ _
  · exact mergeIf_assoc (ranks_later CompactionMark.ordinal) _ _ _
  · exact mergeIf_assoc (ranks_earlier Prod.fst) _ _ _

lemma unpriced_merge_comm (h : a.Agree b) :
    (a.merge b).unpriced = (b.merge a).unpriced := by
  refine ext_unpriced (SlotAggregate.merge_comm _ _) (saturatingAdd32_comm _ _)
    (saturatingAdd32_comm _ _) (Bool.or_comm _ _) h.model.later h.thinkingMode.later h.speed.later
    h.lastTool.later ?_ h.compaction.later h.firstGap.earlier (mergeCache_comm h.cacheMode1)
    (mergeCache_comm h.cacheMode2)
  rw [merge_firstCompactionKey, merge_firstCompactionKey]
  exact mergeOption_comm fun x _ y _ => prefer_comm ranks_keyLt keyLt_ties

lemma pricedAt_merge (a b : FullAggregate) (key : PricedModel × Bool) :
    pricedAt key (a.merge b).priced =
      mergeOption PricedTokens.add (pricedAt key a.priced) (pricedAt key b.priced) :=
  pricedAt_foldl b.wellPriced a.priced key

end FullAggregate

@[ext]
structure Digest where
  slot : FullAggregate
  priced : PricedModel × Bool → Option PricedTokens

namespace Digest

instance : Semigroup Digest where
  mul a b :=
    ⟨(a.slot.merge b.slot).unpriced, fun key => mergeOption PricedTokens.add (a.priced key) (b.priced key)⟩
  mul_assoc a b c :=
    Digest.ext (FullAggregate.unpriced_merge_assoc a.slot b.slot c.slot)
      (funext fun _ => mergeOption_assoc PricedTokens.add_assoc _ _ _)

def of (slot : FullAggregate) : Digest := ⟨slot.unpriced, fun key => pricedAt key slot.priced⟩

lemma of_merge (a b : FullAggregate) : of (a.merge b) = of a * of b :=
  Digest.ext rfl (funext fun key => FullAggregate.pricedAt_merge a b key)

lemma of_comm (h : a.Agree b) : of a * of b = of b * of a := by
  have hunpriced : (of a).slot.Agree (of b).slot :=
    ⟨h.model, h.thinkingMode, h.speed, h.lastTool, h.compaction, h.firstGap, h.cacheMode1,
      h.cacheMode2⟩
  refine Digest.ext (FullAggregate.unpriced_merge_comm hunpriced) (funext fun key => ?_)
  -- both entries were looked up by the same key
  refine mergeOption_comm fun x hx y hy => PricedTokens.add_comm ?_
  exact (key_of_pricedAt hx).2.trans (key_of_pricedAt hy).2.symm

lemma same_of_eq (h : of a = of b) : a.Same b :=
  ⟨congrArg slot h, perm_of_pricedAt a.wellPriced b.wellPriced fun key =>
    congrFun (congrArg priced h) key⟩

end Digest

/-! ### The grid of a list of pushes -/

lemma two_le_slots : 2 ≤ SLOTS := by decide

/-- `ProgressSlots::push`, on slots with all their facts. -/
def pushSlot (grid : Grid FullAggregate) (slot : FullAggregate) (position : Nat) :
    Grid FullAggregate :=
  grid.push FullAggregate.merge SLOTS two_le_slots slot position

def pushSlots (start : Grid FullAggregate) (pushes : List (FullAggregate × Nat)) :
    Grid FullAggregate :=
  pushes.foldl (fun grid x => pushSlot grid x.1 x.2) start

/-! ### The grid of time and tokens -/

def positioned (cell : Cell FullAggregate) : PositionedSlot :=
  ⟨cell.index, cell.value.toSlotAggregate⟩

def toProgressSlots (grid : Grid FullAggregate) : ProgressSlots where
  slots := grid.cells.map positioned
  positioned := List.pairwise_map.mpr grid.sorted
  quantum := grid.quantum
  compactions := grid.doublings

/-- **The slot grid is a function of the set of contributions**, once the first one has set the
quantum: sorted and bounded, at the least power of two that fits, each entry the merge of
exactly its slots; and up to the order of priced entries the same for every order of the
pushes, where slots agree on the facts of one ordinal.  Counters may saturate. -/
theorem slot_grid_of_contributions {start : Grid FullAggregate} (hstart : start.Empty)
    {pushes : List (FullAggregate × Nat)} (hpositions : ∀ x ∈ pushes, x.2 ≤ U64_MAX) :
    let grid := pushSlots start pushes
    Cell.Sorted grid.cells ∧ grid.cells.length ≤ SLOTS ∧
      (pushes ≠ [] → ∃ k, grid.quantum = 2 ^ k ∧
        IsLeast {j | (Grid.quotients pushes (2 ^ j)).card ≤ SLOTS} k) ∧
      (∀ index, Grid.Merges FullAggregate.merge (Grid.group pushes grid.quantum index)
        (Cell.valueAt grid.cells index)) ∧
      ∀ other, pushes.Perm other → (∀ x ∈ pushes, ∀ y ∈ pushes, x.1.Agree y.1) →
        (pushSlots start other).quantum = grid.quantum ∧
        (pushSlots start other).doublings = grid.doublings ∧
        List.Forall₂ (fun entry entry' => entry.index = entry'.index ∧
          entry.value.Same entry'.value) grid.cells (pushSlots start other).cells := by
  obtain ⟨k, hgrid, hquantum⟩ :=
    @Grid.pushAll_canonical _ FullAggregate.merge _ two_le_slots start hstart pushes hpositions
  have hholds := hgrid.holds
  have hfits := hgrid.fits
  rw [Grid.started_cells] at hholds hfits
  refine ⟨hholds.sorted, hfits, fun hne => ⟨k, ?_, hgrid.isLeast⟩, fun index => ?_,
    fun other hperm hagree => ?_⟩
  · rw [← hgrid.quantum, Grid.started_of_ne (hquantum hne)]
    rfl
  · by_cases hne : pushes = []
    · -- no push, no entry
      obtain rfl := hne
      show Grid.Merges FullAggregate.merge [] (Cell.valueAt start.cells index)
      rw [hstart.cells]
      rfl
    · have hmerges := hholds.merges index
      rw [← hgrid.quantum, Grid.started_of_ne (hquantum hne)] at hmerges
      exact hmerges
  · obtain ⟨hsame, hcount, hentries⟩ := Grid.pushAll_perm two_le_slots Digest.of_merge hstart
      hpositions hperm fun x hx y hy => Digest.of_comm (hagree x hx y hy)
    exact ⟨hsame, hcount, hentries.imp fun _ _ h => ⟨h.1, Digest.same_of_eq h.2⟩⟩

/-- Before the first push the quantum of a grid is no power of two. -/
theorem empty_grid_has_no_quantum :
    (pushSlots {} []).quantum = 0 ∧
      ¬∃ k, (pushSlots {} []).quantum = 2 ^ k ∧
        IsLeast {j | (Grid.quotients ([] : List (FullAggregate × Nat)) (2 ^ j)).card ≤ SLOTS} k := by
  refine ⟨rfl, fun ⟨k, hk, _⟩ => ?_⟩
  exact (Nat.pow_pos (by decide)).ne hk

/-- Two prompts in one slot and a third far behind, in two orders. -/
def promptPushes : List (FullAggregate × Nat) :=
  [({ FullAggregate.new 1 10 with userPrompts := 1 }, 3),
    ({ FullAggregate.new 2 20 with userPrompts := 1 }, 3), (FullAggregate.new 3 30, 700)]

theorem slot_grid_of_contributions_prompts :
    (∃ k, (pushSlots {} promptPushes).quantum = 2 ^ k) ∧
      (pushSlots {} promptPushes.reverse).quantum = (pushSlots {} promptPushes).quantum := by
  have hempty : Grid.Empty ({} : Grid FullAggregate) :=
    ⟨rfl, Nat.zero_le 1, Nat.zero_le (2 ^ 32 - 1)⟩
  have hpositions : ∀ x ∈ promptPushes, x.2 ≤ U64_MAX := by decide
  obtain ⟨-, -, hquantum, -, horder⟩ := slot_grid_of_contributions hempty hpositions
  obtain ⟨k, hk, -⟩ := hquantum (List.cons_ne_nil _ _)
  refine ⟨⟨k, hk⟩, (horder _ (List.reverse_perm _).symm fun x hx y hy => ?_).1⟩
  have hplain : ∀ x ∈ promptPushes, x.1.model = none ∧ x.1.thinkingMode = none ∧
      x.1.speed = none ∧ x.1.lastTool = none ∧ x.1.compaction = none ∧ x.1.firstGap = none ∧
      x.1.cacheMode1 = {} ∧ x.1.cacheMode2 = {} := by
    decide
  have hnone : ∀ {α : Type} {stamp : α → Nat} {b : Option α}, AgreeOn stamp none b :=
    fun x hx => by cases hx
  -- nothing is stamped, so nothing can disagree
  obtain ⟨h₁, h₂, h₃, h₄, h₅, h₆, h₇, h₈⟩ := hplain x hx
  constructor
  · rw [h₁]; exact hnone
  · rw [h₂]; exact hnone
  · rw [h₃]; exact hnone
  · rw [h₄]; exact hnone
  · rw [h₅]; exact hnone
  · rw [h₆]; exact hnone
  · rw [h₇]; exact ⟨hnone, hnone⟩
  · rw [h₈]; exact ⟨hnone, hnone⟩

end Antiburn
