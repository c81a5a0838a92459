/-
The two token-burn figures agree.

`share` is what a detector's findings burn, session by session, where that is
measured.  Both loops of `finish`, and the loop over active detectors, sum up the
same shares: the turn detectors by the largest, the unused sources by the sum.
As long as `burnedTokens`, the sum over sessions, is a `u128`, no checked addition
on the way fails, because every partial sum is part of it.
-/
import Antiburn.TokenBurn
import Mathlib

namespace Antiburn

/-! ### Shares -/

/-- Session by session no more. -/
def Within (shares totals : List Nat) : Prop := List.Forall₂ (· ≤ ·) shares totals

namespace Within

lemma refl (shares : List Nat) : Within shares shares := List.forall₂_refl _

lemma trans {a b c : List Nat} (h : Within a b) (h' : Within b c) : Within a c := by
  induction h generalizing c with
  | nil =>
    cases h'
    exact .nil
  | cons hle _ ih =>
    cases h' with
    | cons hle' hrest' => exact .cons (hle.trans hle') (ih hrest')

lemma sum_le {a b : List Nat} (h : Within a b) : a.sum ≤ b.sum := List.Forall₂.sum_le_sum h

lemma forall_le {a b : List Nat} (h : Within a b) {bound : Nat} (hb : ∀ x ∈ b, x ≤ bound) :
    ∀ x ∈ a, x ≤ bound := by
  induction h with
  | nil => exact hb
  | cons hle _ ih =>
    intro x hx
    rcases List.mem_cons.mp hx with rfl | hx
    · exact hle.trans (hb _ List.mem_cons_self)
    · exact ih (fun y hy => hb y (List.mem_cons_of_mem _ hy)) x hx

lemma zipInto_left {f : Nat → Nat → Nat} (hf : ∀ a b, a ≤ f a b) (totals values : List Nat) :
    Within totals (zipInto f totals values) := by
  induction totals generalizing values with
  | nil => cases values <;> exact .nil
  | cons total totals ih =>
    cases values with
    | nil => exact refl _
    | cons value values => exact .cons (hf total value) (ih values)

lemma zipInto_right {f : Nat → Nat → Nat} (hf : ∀ a b, b ≤ f a b) {totals values : List Nat}
    (h : values.length = totals.length) : Within values (zipInto f totals values) := by
  induction totals generalizing values with
  | nil =>
    rw [List.length_eq_zero_iff.mp h]
    exact .nil
  | cons total totals ih =>
    cases values with
    | nil => cases h
    | cons value values => exact .cons (hf total value) (ih (Nat.succ.inj h))

end Within

lemma length_zipInto (f : Nat → Nat → Nat) (totals values : List Nat) :
    (zipInto f totals values).length = totals.length := by
  induction totals generalizing values with
  | nil => cases values <;> rfl
  | cons total totals ih =>
    cases values with
    | nil => rfl
    | cons value values => exact congrArg Nat.succ (ih values)

variable {shares : List Nat} {f : Nat → Nat → Nat}

lemma zipInto_right_comm (hf : ∀ a b c, f (f a b) c = f (f a c) b)
    (totals values others : List Nat) :
    zipInto f (zipInto f totals values) others = zipInto f (zipInto f totals others) values := by
  induction totals generalizing values others with
  | nil => cases values <;> cases others <;> rfl
  | cons total totals ih =>
    cases values with
    | nil => cases others <;> rfl
    | cons value values =>
      cases others with
      | nil => rfl
      | cons other others => exact congrArg₂ List.cons (hf total value other) (ih values others)

def addShare (f : Nat → Nat → Nat) (totals : List Nat) : Option (List Nat) → List Nat
  | some share => zipInto f totals share
  | none => totals

lemma length_addShare (f : Nat → Nat → Nat) (totals : List Nat) (share : Option (List Nat)) :
    (addShare f totals share).length = totals.length := by
  cases share with
  | none => rfl
  | some share => exact length_zipInto f totals share

lemma length_foldl_addShare (f : Nat → Nat → Nat) (shares : List (Option (List Nat)))
    (totals : List Nat) : (shares.foldl (addShare f) totals).length = totals.length := by
  induction shares generalizing totals with
  | nil => rfl
  | cons share rest ih => rw [List.foldl_cons, ih, length_addShare]

lemma within_foldl_addShare (hf : ∀ a b, a ≤ f a b)
    (shares : List (Option (List Nat))) (totals : List Nat) :
    Within totals (shares.foldl (addShare f) totals) := by
  induction shares generalizing totals with
  | nil => exact .refl _
  | cons share rest ih =>
    refine Within.trans ?_ (ih _)
    cases share with
    | none => exact .refl _
    | some share => exact .zipInto_left hf totals share

lemma share_within_foldl (hleft : ∀ a b, a ≤ f a b)
    (hright : ∀ a b, b ≤ f a b) {shares : List (Option (List Nat))} {totals share : List Nat}
    (hmem : some share ∈ shares) (hlen : share.length = totals.length) :
    Within share (shares.foldl (addShare f) totals) := by
  induction shares generalizing totals with
  | nil => cases hmem
  | cons other rest ih =>
    rcases List.mem_cons.mp hmem with rfl | hmem
    · exact (Within.zipInto_right hright hlen).trans (within_foldl_addShare hleft rest _)
    · exact ih hmem (hlen.trans (length_addShare f totals other).symm)

lemma foldl_addShare_perm (hf : ∀ a b c, f (f a b) c = f (f a c) b)
    {shares others : List (Option (List Nat))} (h : shares.Perm others) (totals : List Nat) :
    shares.foldl (addShare f) totals = others.foldl (addShare f) totals := by
  have hcomm : RightCommutative (addShare f) := by
    refine ⟨fun totals share other => ?_⟩
    cases share with
    | none => rfl
    | some share =>
      cases other with
      | none => rfl
      | some other => exact zipInto_right_comm hf totals share other
  exact h.foldl_eq totals

/-! ### Checked sums of shares -/

lemma checkedSum_eq (values : List Nat) : checkedSum values = Checked.cap FitsU128 values.sum := by
  have hsum : ∀ start, FitsU128 start →
      values.foldlM (fun total value => Checked.cap FitsU128 (total + value)) start =
        Checked.cap FitsU128 (start + values.sum) := by
    induction values with
    | nil => exact fun start hstart => (Checked.cap_of_fits hstart).symm
    | cons value rest ih =>
      intro start _
      rw [List.foldlM_cons, List.sum_cons, ← Nat.add_assoc]
      by_cases hfits : FitsU128 (start + value)
      · rw [Checked.cap_of_fits hfits]
        exact ih _ hfits
      · have hover : ¬FitsU128 (start + value + rest.sum) := fun h =>
          hfits (fitsU128_downClosed _ _ h)
        rw [Checked.cap_eq_none.mpr hfits, Checked.cap_eq_none.mpr hover]
        rfl
  rw [checkedSum, hsum 0 (Nat.zero_le _), Nat.zero_add]

lemma checkedSum_of_le {values : List Nat} (h : values.sum ≤ U128_MAX) :
    checkedSum values = some values.sum := by
  rw [checkedSum_eq]
  exact Checked.cap_of_fits h

lemma checkedZipAdd_of_le {totals values : List Nat}
    (h : ∀ x ∈ zipInto (· + ·) totals values, x ≤ U128_MAX) :
    checkedZipAdd totals values = some (zipInto (· + ·) totals values) := by
  induction totals generalizing values with
  | nil => cases values <;> rfl
  | cons total totals ih =>
    cases values with
    | nil => rfl
    | cons value values =>
      have hhead : FitsU128 (total + value) := h _ List.mem_cons_self
      have hrest := @ih values fun x hx => h x (List.mem_cons_of_mem _ hx)
      rw [checkedZipAdd, Checked.cap_of_fits hhead, hrest]
      rfl

def tokensAt (entries : List (Nat × Nat)) (session : Nat) : Nat :=
  ((entries.filter fun entry => entry.1 = session).map Prod.snd).sum

lemma checkedAddAt_of_le {session tokens : Nat}
    (h : ∀ i (hi : i < shares.length), shares[i] + (if session = i then tokens else 0) ≤ U128_MAX) :
    checkedAddAt session tokens shares =
      some (shares.mapIdx fun i share => share + if session = i then tokens else 0) := by
  induction shares generalizing session with
  | nil => cases session <;> rfl
  | cons share rest ih =>
    cases session with
    | zero =>
      have hhead : FitsU128 (share + tokens) := by
        have hfirst := h 0 (Nat.zero_lt_succ _)
        simp only [List.getElem_cons_zero, if_true] at hfirst
        exact hfirst
      have hrest : rest.mapIdx (fun _ share => share) = rest :=
        List.ext_getElem (List.length_mapIdx ..) fun i _ _ => List.getElem_mapIdx ..
      rw [checkedAddAt, Checked.cap_of_fits hhead, List.mapIdx_cons]
      simp [hrest]
    | succ session =>
      have hrest := @ih session fun i hi => by simpa using h (i + 1) (Nat.succ_lt_succ hi)
      rw [checkedAddAt, hrest, List.mapIdx_cons]
      simp

lemma foldlM_checkedAddAt {entries : List (Nat × Nat)}
    (h : ∀ i (hi : i < shares.length), shares[i] + tokensAt entries i ≤ U128_MAX) :
    entries.foldlM (fun shares entry => checkedAddAt entry.1 entry.2 shares) shares =
      some (shares.mapIdx fun i share => share + tokensAt entries i) := by
  induction entries generalizing shares with
  | nil =>
    have hsame : shares.mapIdx (fun i share => share + tokensAt [] i) = shares := by
      refine List.ext_getElem (List.length_mapIdx ..) fun i _ _ => ?_
      rw [List.getElem_mapIdx]
      rfl
    rw [hsame]
    rfl
  | cons entry rest ih =>
    have hsplit : ∀ i, tokensAt (entry :: rest) i =
        (if entry.1 = i then entry.2 else 0) + tokensAt rest i := by
      intro i
      unfold tokensAt
      by_cases heq : entry.1 = i <;> simp [heq]
    rw [List.foldlM_cons, checkedAddAt_of_le fun i hi => by
      have := h i hi
      rw [hsplit] at this
      omega]
    show List.foldlM _ _ rest = _
    rw [ih fun i hi => by
      rw [List.length_mapIdx] at hi
      have := h i hi
      rw [hsplit] at this
      rw [List.getElem_mapIdx]
      omega]
    refine congrArg some (List.ext_getElem (by simp) fun i _ _ => ?_)
    simp only [List.getElem_mapIdx, hsplit]
    omega

lemma foldlM_foldlM_checkedAddAt {α : Type} {items : List α} {entries : α → List (Nat × Nat)}
    (h : ∀ i (hi : i < shares.length),
      shares[i] + (items.map fun item => tokensAt (entries item) i).sum ≤ U128_MAX) :
    items.foldlM (fun shares item =>
        (entries item).foldlM (fun shares entry => checkedAddAt entry.1 entry.2 shares) shares)
        shares =
      some (shares.mapIdx fun i share =>
        share + (items.map fun item => tokensAt (entries item) i).sum) := by
  induction items generalizing shares with
  | nil =>
    have hsame : shares.mapIdx (fun i share =>
        share + (([] : List α).map fun item => tokensAt (entries item) i).sum) = shares := by
      refine List.ext_getElem (List.length_mapIdx ..) fun i _ _ => ?_
      rw [List.getElem_mapIdx]
      rfl
    rw [hsame]
    rfl
  | cons item rest ih =>
    simp only [List.map_cons, List.sum_cons] at h ⊢
    rw [List.foldlM_cons, foldlM_checkedAddAt fun i hi => by
      have := h i hi
      omega]
    show List.foldlM _ _ rest = _
    rw [ih fun i hi => by
      rw [List.length_mapIdx] at hi
      have := h i hi
      rw [List.getElem_mapIdx]
      omega]
    refine congrArg some (List.ext_getElem (by simp) fun i _ _ => ?_)
    simp only [List.getElem_mapIdx]
    omega

/-! ### What is measured -/

namespace TokenBurnAccumulator

variable (accumulator : TokenBurnAccumulator) (statuses : DetectorId → DetectorStatus)

def turnShare (detector : DetectorId) : Option (List Nat) :=
  match statuses detector with
  | .findings _ =>
    if accumulator.denominator.isNone then none
    else if accumulator.sessions.any fun session => (session.valueFor detector).isNone then none
    else some (accumulator.sessions.map fun session => (session.valueFor detector).getD 0)
  | _ => none

def unusedTokens (group : SourceGroup) (session : Nat) : Nat :=
  ((accumulator.unusedSources group).map fun source => tokensAt source.2.bySession session).sum

def sourceShare (group : SourceGroup) : Option (List Nat) :=
  match statuses group.detector with
  | .findings _ =>
    if accumulator.denominator.isNone || !accumulator.sourceComplete group then none
    else if (accumulator.unusedSources group).isEmpty then none
    else some ((List.range accumulator.sessions.length).map (accumulator.unusedTokens group))
  | _ => none

def share : DetectorId → Option (List Nat)
  | .unusedMcpServers => accumulator.sourceShare statuses .mcp
  | .unusedBuiltInTools => accumulator.sourceShare statuses .builtInTools
  | .unusedSkills => accumulator.sourceShare statuses .skills
  | detector => accumulator.turnShare statuses detector

/-- No tokens in any session. -/
def zeros : List Nat := List.replicate accumulator.sessions.length 0

def largestTurnShares : List Nat :=
  (TURN_DETECTORS.map (accumulator.share statuses)).foldl (addShare max) accumulator.zeros

def summedSourceShares : List Nat :=
  (SOURCE_GROUPS.map fun group => accumulator.share statuses group.detector).foldl
    (addShare (· + ·)) accumulator.zeros

def burnedBySession : List Nat :=
  zipInto max (accumulator.largestTurnShares statuses) (accumulator.summedSourceShares statuses)

def burnedTokens : Nat := (accumulator.burnedBySession statuses).sum

def numerator (detector : DetectorId) : Option Nat :=
  match statuses detector with
  | .clean => some 0
  | _ => (accumulator.share statuses detector).map List.sum

variable {values : List Nat} {measuring : Measuring}

variable {detector : DetectorId}

lemma length_share
    (h : accumulator.share statuses detector = some values) :
    values.length = accumulator.sessions.length := by
  have hturn : ∀ detector, accumulator.turnShare statuses detector = some values →
      values.length = accumulator.sessions.length := by
    intro detector h
    unfold turnShare at h
    split at h
    · split_ifs at h
      rw [← Option.some.inj h, List.length_map]
    · cases h
  have hsource : ∀ group, accumulator.sourceShare statuses group = some values →
      values.length = accumulator.sessions.length := by
    intro group h
    unfold sourceShare at h
    split at h
    · split_ifs at h
      rw [← Option.some.inj h, List.length_map, List.length_range]
    · cases h
  cases detector <;> first | exact hturn _ h | exact hsource _ h

lemma length_zeros : accumulator.zeros.length = accumulator.sessions.length :=
  List.length_replicate

lemma length_largestTurnShares :
    (accumulator.largestTurnShares statuses).length = accumulator.sessions.length := by
  rw [largestTurnShares, length_foldl_addShare, length_zeros]

lemma length_summedSourceShares :
    (accumulator.summedSourceShares statuses).length = accumulator.sessions.length := by
  rw [summedSourceShares, length_foldl_addShare, length_zeros]

lemma summed_within_burned :
    Within (accumulator.summedSourceShares statuses) (accumulator.burnedBySession statuses) := by
  refine Within.zipInto_right (fun a b => le_max_right a b) ?_
  rw [length_summedSourceShares, length_largestTurnShares]

lemma share_within_burned
    (h : accumulator.share statuses detector = some values) :
    Within values (accumulator.burnedBySession statuses) := by
  have hlen : values.length = accumulator.zeros.length :=
    (accumulator.length_share statuses h).trans accumulator.length_zeros.symm
  have hplace : detector ∈ TURN_DETECTORS ∨ ∃ group ∈ SOURCE_GROUPS, group.detector = detector := by
    cases detector <;> decide
  rcases hplace with hturn | ⟨group, hgroup, rfl⟩
  · have hmem : some values ∈ TURN_DETECTORS.map (accumulator.share statuses) :=
      List.mem_map.mpr ⟨detector, hturn, h⟩
    have hlarg := share_within_foldl (fun a b => le_max_left a b) (fun a b => le_max_right a b)
      hmem hlen
    exact Within.trans hlarg (.zipInto_left (fun a b => le_max_left a b) _ _)
  · have hmem : some values ∈
        SOURCE_GROUPS.map fun group => accumulator.share statuses group.detector :=
      List.mem_map.mpr ⟨group, hgroup, h⟩
    have hsummed := share_within_foldl (fun a b => Nat.le_add_right a b)
      (fun a b => Nat.le_add_left b a) hmem hlen
    exact Within.trans hsummed (accumulator.summed_within_burned statuses)

/-! ### The loops of `finish` -/

def recordTurn (measuring : Measuring) (detector : DetectorId) : Measuring where
  numerators := Function.update measuring.numerators detector
    (accumulator.numerator statuses detector)
  contributions := Function.update measuring.contributions detector
    (accumulator.share statuses detector)
  combinedBySession := addShare max measuring.combinedBySession
    (accumulator.share statuses detector)
  sourceCombinedBySession := measuring.sourceCombinedBySession

def recordSources (measuring : Measuring) (group : SourceGroup) : Measuring where
  numerators := Function.update measuring.numerators group.detector
    (accumulator.numerator statuses group.detector)
  contributions := Function.update measuring.contributions group.detector
    (accumulator.share statuses group.detector)
  combinedBySession := measuring.combinedBySession
  sourceCombinedBySession := addShare (· + ·) measuring.sourceCombinedBySession
    (accumulator.share statuses group.detector)

variable {accumulator statuses}

structure Fresh (measuring : Measuring) (detector : DetectorId) : Prop where
  numerator : measuring.numerators detector = none
  contribution : measuring.contributions detector = none

lemma Fresh.update_none
    (h : Fresh measuring detector) :
    Function.update measuring.numerators detector none = measuring.numerators ∧
      Function.update measuring.contributions detector none = measuring.contributions := by
  constructor
  · exact h.numerator ▸ Function.update_eq_self detector measuring.numerators
  · exact h.contribution ▸ Function.update_eq_self detector measuring.contributions

section

variable (hfits : accumulator.burnedTokens statuses ≤ U128_MAX)
include hfits

lemma sum_share_le
    (h : accumulator.share statuses detector = some values) : values.sum ≤ U128_MAX :=
  (accumulator.share_within_burned statuses h).sum_le.trans hfits

lemma forall_burned_le :
    ∀ tokens ∈ accumulator.burnedBySession statuses, tokens ≤ U128_MAX := fun _ htokens =>
  (List.single_le_sum (fun _ _ => Nat.zero_le _) _ htokens).trans hfits

lemma measureDetector_eq (hturn : detector ∈ TURN_DETECTORS)
    (hfresh : Fresh measuring detector) :
    accumulator.measureDetector statuses measuring detector =
      some (accumulator.recordTurn statuses measuring detector) := by
  have hshare : accumulator.share statuses detector = accumulator.turnShare statuses detector := by
    cases detector <;> first | rfl | exact absurd hturn (by decide)
  obtain ⟨hnumr, hcontrs⟩ := hfresh.update_none
  unfold measureDetector recordTurn numerator
  rw [hshare]
  unfold turnShare
  cases hstatus : statuses detector with
  | clean =>
    dsimp only
    rw [hcontrs]
    rfl
  | notAssessed =>
    dsimp only
    rw [Option.map_none, hnumr, hcontrs]
    rfl
  | findings findings =>
    dsimp only
    split_ifs with hdenom hmissing
    · rw [Option.map_none, hnumr, hcontrs]
      rfl
    · rw [Option.map_none, hnumr, hcontrs]
      rfl
    · have hmeasured : accumulator.share statuses detector =
          some (accumulator.sessions.map fun session => (session.valueFor detector).getD 0) := by
        rw [hshare, turnShare, hstatus]
        dsimp only
        rw [if_neg hdenom, if_neg hmissing]
      rw [checkedSum_of_le (sum_share_le hfits hmeasured)]
      rfl

lemma foldlM_measureDetector
    {detectors : List DetectorId} (hturns : ∀ detector ∈ detectors, detector ∈ TURN_DETECTORS)
    (hnodup : detectors.Nodup) {measuring : Measuring}
    (hfresh : ∀ detector ∈ detectors, Fresh measuring detector) :
    detectors.foldlM (accumulator.measureDetector statuses) measuring =
      some (detectors.foldl (accumulator.recordTurn statuses) measuring) := by
  induction detectors generalizing measuring with
  | nil => rfl
  | cons detector rest ih =>
    obtain ⟨hnotin, hrest⟩ := List.nodup_cons.mp hnodup
    rw [List.foldlM_cons, measureDetector_eq hfits (hturns detector List.mem_cons_self)
      (hfresh detector List.mem_cons_self)]
    refine ih (fun other hmem => hturns other (List.mem_cons_of_mem _ hmem)) hrest ?_
    intro other hmem
    have hne : other ≠ detector := fun heq => hnotin (heq ▸ hmem)
    have hother := hfresh other (List.mem_cons_of_mem _ hmem)
    refine ⟨?_, ?_⟩
    · exact (Function.update_of_ne hne _ _).trans hother.numerator
    · exact (Function.update_of_ne hne _ _).trans hother.contribution

end

lemma foldlM_unusedSources {group : SourceGroup}
    (hle : ∀ session < accumulator.sessions.length,
      accumulator.unusedTokens group session ≤ U128_MAX) :
    (accumulator.unusedSources group).foldlM (fun shares source =>
        source.2.bySession.foldlM (fun shares entry => checkedAddAt entry.1 entry.2 shares) shares)
        accumulator.zeros =
      some ((List.range accumulator.sessions.length).map (accumulator.unusedTokens group)) := by
  rw [foldlM_foldlM_checkedAddAt fun i hi => by
    rw [length_zeros] at hi
    have hzero : accumulator.zeros[i] = 0 := List.getElem_replicate ..
    rw [hzero, Nat.zero_add]
    exact hle i hi]
  refine congrArg some (List.ext_getElem (by simp [length_zeros]) fun i _ _ => ?_)
  have hzero : accumulator.zeros.length = accumulator.sessions.length := accumulator.length_zeros
  simp [zeros, unusedTokens]

section

variable (hfits : accumulator.burnedTokens statuses ≤ U128_MAX)
include hfits

lemma measureSources_eq {group : SourceGroup} (hfresh : Fresh measuring group.detector)
    (htotals : ∀ tokens ∈ addShare (· + ·) measuring.sourceCombinedBySession
      (accumulator.share statuses group.detector), tokens ≤ U128_MAX) :
    accumulator.measureSources statuses measuring group =
      some (accumulator.recordSources statuses measuring group) := by
  have hshare : accumulator.share statuses group.detector =
      accumulator.sourceShare statuses group := by
    cases group <;> rfl
  obtain ⟨hnumr, hcontrs⟩ := hfresh.update_none
  unfold measureSources recordSources numerator
  rw [hshare] at htotals ⊢
  unfold sourceShare at htotals ⊢
  cases hstatus : statuses group.detector with
  | clean =>
    dsimp only
    rw [hcontrs]
    rfl
  | notAssessed =>
    dsimp only
    rw [Option.map_none, hnumr, hcontrs]
    rfl
  | findings findings =>
    rw [hstatus] at htotals
    dsimp only at htotals ⊢
    split_ifs at htotals ⊢ with hincom hnone
    · rw [Option.map_none, hnumr, hcontrs]
      rfl
    · -- every source of the group was invoked
      have hempty : accumulator.unusedSources group = [] := List.isEmpty_iff.mp hnone
      rw [hempty, Option.map_none, hnumr, hcontrs]
      rfl
    · have hmeasured : accumulator.share statuses group.detector =
          some ((List.range accumulator.sessions.length).map (accumulator.unusedTokens group)) := by
        rw [hshare, sourceShare, hstatus]
        dsimp only
        rw [if_neg hincom, if_neg hnone]
      have hburned := accumulator.share_within_burned statuses hmeasured
      have hents := hburned.forall_le (forall_burned_le hfits)
      have hfold := @foldlM_unusedSources accumulator group fun session hsess =>
        hents _ (List.mem_map_of_mem (List.mem_range.mpr hsess))
      unfold zeros at hfold
      rw [hfold]
      simp only [Option.bind_eq_bind, Option.bind_some]
      rw [checkedSum_of_le (sum_share_le hfits hmeasured)]
      simp only [Option.bind_some]
      rw [checkedZipAdd_of_le htotals]
      rfl

lemma foldlM_measureSources
    {groups : List SourceGroup} (hnodup : (groups.map SourceGroup.detector).Nodup)
    {measuring : Measuring} (hfresh : ∀ group ∈ groups, Fresh measuring group.detector)
    (htotals : ∀ tokens ∈ (groups.map fun group => accumulator.share statuses group.detector).foldl
      (addShare (· + ·)) measuring.sourceCombinedBySession, tokens ≤ U128_MAX) :
    groups.foldlM (accumulator.measureSources statuses) measuring =
      some (groups.foldl (accumulator.recordSources statuses) measuring) := by
  induction groups generalizing measuring with
  | nil => rfl
  | cons group rest ih =>
    obtain ⟨hnotin, hrest⟩ := List.nodup_cons.mp hnodup
    have hnow := within_foldl_addShare (fun a b => Nat.le_add_right a b)
      (rest.map fun group => accumulator.share statuses group.detector)
      (addShare (· + ·) measuring.sourceCombinedBySession
        (accumulator.share statuses group.detector))
    rw [List.foldlM_cons, measureSources_eq hfits (hfresh group List.mem_cons_self)
      (hnow.forall_le htotals)]
    refine ih hrest ?_ htotals
    intro other hmem
    have hne : other.detector ≠ group.detector := fun heq =>
      hnotin (heq ▸ List.mem_map_of_mem hmem)
    have hother := hfresh other (List.mem_cons_of_mem _ hmem)
    refine ⟨?_, ?_⟩
    · exact (Function.update_of_ne hne _ _).trans hother.numerator
    · exact (Function.update_of_ne hne _ _).trans hother.contribution

lemma forall_summed_le :
    ∀ tokens ∈ accumulator.summedSourceShares statuses, tokens ≤ U128_MAX :=
  Within.forall_le (accumulator.summed_within_burned statuses) (forall_burned_le hfits)

lemma measure_eq :
    accumulator.measure statuses = some {
      numerators := accumulator.numerator statuses
      contributions := accumulator.share statuses
      combinedBySession := accumulator.largestTurnShares statuses
      sourceCombinedBySession := accumulator.summedSourceShares statuses } := by
  let start : Measuring :=
    { combinedBySession := accumulator.zeros, sourceCombinedBySession := accumulator.zeros }
  have hturns := @foldlM_measureDetector accumulator statuses hfits TURN_DETECTORS
    (fun _ hmem => hmem) (by decide) start fun _ _ => ⟨rfl, rfl⟩
  show (TURN_DETECTORS.foldlM (accumulator.measureDetector statuses) start).bind
    (fun measuring => SOURCE_GROUPS.foldlM (accumulator.measureSources statuses) measuring) = _
  have hsources := @foldlM_measureSources accumulator statuses hfits SOURCE_GROUPS (by decide)
    (TURN_DETECTORS.foldl (accumulator.recordTurn statuses) start)
    (fun group _ => by cases group <;> exact ⟨rfl, rfl⟩) (forall_summed_le hfits)
  rw [hturns, Option.bind_some, hsources]
  have hnumr : ∀ figures : DetectorId → Option Nat,
      (SOURCE_GROUPS.foldl (fun figures group => Function.update figures group.detector
        (accumulator.numerator statuses group.detector))
        (TURN_DETECTORS.foldl (fun figures detector => Function.update figures detector
          (accumulator.numerator statuses detector)) figures)) =
        accumulator.numerator statuses := by
    intro figures
    funext detector
    cases detector <;> rfl
  have hshares : ∀ shares : DetectorId → Option (List Nat),
      (SOURCE_GROUPS.foldl (fun shares group => Function.update shares group.detector
        (accumulator.share statuses group.detector))
        (TURN_DETECTORS.foldl (fun shares detector => Function.update shares detector
          (accumulator.share statuses detector)) shares)) =
        accumulator.share statuses := by
    intro shares
    funext detector
    cases detector <;> rfl
  exact congrArg some (congrArg₂ (fun numerators contribs => Measuring.mk numerators
    contribs (accumulator.largestTurnShares statuses)
    (accumulator.summedSourceShares statuses)) (hnumr _) (hshares _))

end

end TokenBurnAccumulator

/-! ### The loop over active detectors -/

lemma checkedAddAt_append {pre rest : List Nat} {tokens : Nat} (h : tokens ≤ U128_MAX) :
    checkedAddAt pre.length tokens (pre ++ 0 :: rest) = some (pre ++ tokens :: rest) := by
  induction pre with
  | nil =>
    have hfits : FitsU128 (0 + tokens) := by rwa [Nat.zero_add]
    show (do
      let total ← Checked.cap FitsU128 (0 + tokens)
      return total :: rest) = _
    rw [Checked.cap_of_fits hfits, Nat.zero_add]
    rfl
  | cons value pre ih =>
    show (do return value :: (← checkedAddAt pre.length tokens (pre ++ 0 :: rest))) = _
    rw [ih]
    rfl

lemma resourceContribution_eq {report : EfficiencyReport} {values : List Nat}
    (hlen : values.length = report.assessedSessions) (hle : ∀ x ∈ values, x ≤ U128_MAX) :
    report.resourceContribution (values.zipIdx.map fun (tokens, session) => (session, tokens)) =
      some values := by
  have hread : ∀ pre : List Nat,
      ((values.zipIdx pre.length).map fun (tokens, session) => (session, tokens)).foldlM
        (fun contribution entry =>
          if entry.1 < contribution.length then checkedAddAt entry.1 entry.2 contribution else none)
        (pre ++ List.replicate values.length 0) = some (pre ++ values) := by
    clear hlen
    induction values with
    | nil => exact fun pre => rfl
    | cons value rest ih =>
      intro pre
      have hnext := ih (fun x hx => hle x (List.mem_cons_of_mem _ hx)) (pre ++ [value])
      rw [List.length_append, List.append_assoc, List.append_assoc] at hnext
      rw [List.zipIdx_cons, List.map_cons, List.foldlM_cons, List.length_cons, List.replicate_succ,
        if_pos (by simp), checkedAddAt_append (hle value List.mem_cons_self)]
      exact hnext
  unfold EfficiencyReport.resourceContribution
  rw [← hlen]
  exact hread []

namespace TokenBurnAccumulator

variable (accumulator : TokenBurnAccumulator) (statuses : DetectorId → DetectorStatus)

def unmeasuredFigure (detector : DetectorId) : Option Nat :=
  match statuses detector with
  | .findings findings =>
    fallbackTokenBurnBasisPoints detector findings.findingSessions accumulator.sessions.length
  | .clean => some 0
  | .notAssessed => none

def recordActive (burn : ActiveBurn) (detector : DetectorId) : ActiveBurn :=
  let share := accumulator.share statuses detector
  { nonResourceBySession :=
      match detector with
      | .unusedMcpServers | .unusedBuiltInTools | .unusedSkills => burn.nonResourceBySession
      | _ => addShare max burn.nonResourceBySession share
    resourceBySession :=
      match detector with
      | .unusedMcpServers | .unusedBuiltInTools | .unusedSkills =>
        addShare (· + ·) burn.resourceBySession share
      | _ => burn.resourceBySession
    measuredFinding := burn.measuredFinding || share.isSome
    fallback := greater burn.fallback (accumulator.unmeasuredFigure statuses detector) }

lemma share_eq_none
    (h : ∀ findings, statuses detector ≠ .findings findings) :
    accumulator.share statuses detector = none := by
  have hturn : accumulator.turnShare statuses detector = none := by
    unfold turnShare
    split
    · exact absurd ‹_› (h _)
    · rfl
  have hsource : ∀ group : SourceGroup, group.detector = detector →
      accumulator.sourceShare statuses group = none := by
    rintro group rfl
    unfold sourceShare
    split
    · exact absurd ‹_› (h _)
    · rfl
  cases detector <;>
    first | exact hturn | exact hsource .mcp rfl | exact hsource .builtInTools rfl |
      exact hsource .skills rfl

lemma share_eq_none_of_denominator
    (h : accumulator.denominator = none) : accumulator.share statuses detector = none := by
  have hturn : ∀ detector, accumulator.turnShare statuses detector = none := by
    intro detector
    unfold turnShare
    rw [h]
    split <;> rfl
  have hsource : ∀ group, accumulator.sourceShare statuses group = none := by
    intro group
    unfold sourceShare
    rw [h]
    split <;> rfl
  cases detector <;> first | exact hturn _ | exact hsource _

variable {accumulator statuses}

lemma greater_none (figure : Option Nat) : greater figure none = figure := by
  cases figure <;> rfl

section

variable (hfits : accumulator.burnedTokens statuses ≤ U128_MAX)
include hfits

lemma finish_contributions :
    (accumulator.finish statuses).contributions = accumulator.share statuses := by
  unfold finish
  rw [measure_eq hfits]

lemma activeStep_turn {activeDetectorMask : Nat}
    (hmask : activeDetectorMask.testBit detector.index = true)
    (hturn : detector ∈ TURN_DETECTORS) (burn : ActiveBurn) :
    let report := accumulator.report statuses
    report.activeStep activeDetectorMask report.ownResources burn detector =
      some (accumulator.recordActive statuses burn detector) := by
  have hfind : (accumulator.report statuses).ownResources.find?
      (fun assessment => assessment.detector = detector) = none := by
    cases detector <;> first | rfl | exact absurd hturn (by decide)
  have hcontrs : (accumulator.report statuses).tokenBurnByDetectorBySession =
      accumulator.share statuses := finish_contributions hfits
  have hrecord : accumulator.recordActive statuses burn detector =
      { nonResourceBySession :=
          addShare max burn.nonResourceBySession (accumulator.share statuses detector)
        resourceBySession := burn.resourceBySession
        measuredFinding := burn.measuredFinding || (accumulator.share statuses detector).isSome
        fallback := greater burn.fallback (accumulator.unmeasuredFigure statuses detector) } := by
    cases detector <;> first | rfl | exact absurd hturn (by decide)
  dsimp only
  rw [hrecord]
  unfold EfficiencyReport.activeStep unmeasuredFigure
  rw [hmask, hfind, hcontrs]
  simp only [Bool.not_true, Bool.false_eq_true, if_false, Option.isSome_none]
  have hstatuses : (accumulator.report statuses).detectorStatuses detector = statuses detector := rfl
  have hdenom : (accumulator.report statuses).tokenBurnDenominator = accumulator.denominator :=
    rfl
  rw [hstatuses, hdenom]
  cases hstatus : statuses detector with
  | findings findings =>
    dsimp only
    rw [if_pos findings.positive]
    cases hvalue : accumulator.denominator with
    | none =>
      rw [accumulator.share_eq_none_of_denominator statuses hvalue, Option.isSome_none,
        Bool.or_false]
      rfl
    | some denominator =>
      cases hshare : accumulator.share statuses detector with
      | none =>
        rw [Option.isSome_none, Bool.or_false]
        rfl
      | some values =>
        rw [Option.isSome_some, Bool.or_true]
        rfl
  | clean | notAssessed =>
    rw [accumulator.share_eq_none statuses fun findings => by simp [hstatus]]
    simp [addShare, greater_none]

lemma activeStep_source {activeDetectorMask : Nat} {group : SourceGroup}
    (hmask : activeDetectorMask.testBit group.detector.index = true) (burn : ActiveBurn)
    (htotals : ∀ tokens ∈ addShare (· + ·) burn.resourceBySession
      (accumulator.share statuses group.detector), tokens ≤ U128_MAX) :
    let report := accumulator.report statuses
    report.activeStep activeDetectorMask report.ownResources burn group.detector =
      some (accumulator.recordActive statuses burn group.detector) := by
  have hcontrs : (accumulator.report statuses).tokenBurnByDetectorBySession =
      accumulator.share statuses := finish_contributions hfits
  have hfind : (accumulator.report statuses).ownResources.find?
      (fun assessment => assessment.detector = group.detector) = some
        { detector := group.detector
          findingCount :=
            match statuses group.detector with
            | .findings findings => findings.findingSessions
            | _ => 0
          clean :=
            match statuses group.detector with
            | .clean => true
            | _ => false
          tokensBySession := ((accumulator.report statuses).tokenBurnByDetectorBySession
            group.detector).map fun shares =>
              shares.zipIdx.map fun (tokens, session) => (session, tokens) } := by
    cases group <;> rfl
  have hrecord : accumulator.recordActive statuses burn group.detector =
      { nonResourceBySession := burn.nonResourceBySession
        resourceBySession :=
          addShare (· + ·) burn.resourceBySession (accumulator.share statuses group.detector)
        measuredFinding :=
          burn.measuredFinding || (accumulator.share statuses group.detector).isSome
        fallback :=
          greater burn.fallback (accumulator.unmeasuredFigure statuses group.detector) } := by
    cases group <;> rfl
  dsimp only
  rw [hrecord]
  unfold EfficiencyReport.activeStep unmeasuredFigure
  rw [hmask, hfind, hcontrs]
  simp only [Bool.not_true, Bool.false_eq_true, if_false, Option.isSome_some, if_true]
  have hdenom : (accumulator.report statuses).tokenBurnDenominator = accumulator.denominator :=
    rfl
  rw [hdenom]
  cases hstatus : statuses group.detector with
  | findings findings =>
    dsimp only
    rw [if_pos findings.positive]
    cases hvalue : accumulator.denominator with
    | none =>
      rw [accumulator.share_eq_none_of_denominator statuses hvalue, Option.isSome_none,
        Bool.or_false]
      rfl
    | some denominator =>
      cases hshare : accumulator.share statuses group.detector with
      | none =>
        rw [Option.isSome_none, Bool.or_false]
        rfl
      | some values =>
        rw [hshare] at htotals
        have hlen : values.length = (accumulator.report statuses).assessedSessions :=
          accumulator.length_share statuses hshare
        have hents := Within.forall_le (accumulator.share_within_burned statuses hshare)
          (forall_burned_le hfits)
        rw [Option.map_some, Option.bind_some, resourceContribution_eq hlen hents,
          Option.isSome_some, Bool.or_true]
        dsimp only
        rw [checkedZipAdd_of_le htotals]
        rfl
  | clean | notAssessed =>
    rw [accumulator.share_eq_none statuses fun findings => by simp [hstatus]]
    simp [addShare, greater_none]

end

lemma within_foldl_recordActive (detectors : List DetectorId) (burn : ActiveBurn) :
    Within burn.resourceBySession
      (detectors.foldl (accumulator.recordActive statuses) burn).resourceBySession := by
  induction detectors generalizing burn with
  | nil => exact .refl _
  | cons detector rest ih =>
    refine Within.trans ?_ (ih _)
    have hadd := within_foldl_addShare (fun a b => Nat.le_add_right a b)
      [accumulator.share statuses detector] burn.resourceBySession
    cases detector <;> first | exact .refl _ | exact hadd

lemma foldlM_activeStep (hfits : accumulator.burnedTokens statuses ≤ U128_MAX)
    {activeDetectorMask : Nat}
    (hmask : ∀ detector : DetectorId, activeDetectorMask.testBit detector.index = true)
    (detectors : List DetectorId) {burn : ActiveBurn}
    (htotals : ∀ tokens ∈ (detectors.foldl (accumulator.recordActive statuses)
      burn).resourceBySession, tokens ≤ U128_MAX) :
    let report := accumulator.report statuses
    detectors.foldlM (report.activeStep activeDetectorMask report.ownResources) burn =
      some (detectors.foldl (accumulator.recordActive statuses) burn) := by
  dsimp only
  induction detectors generalizing burn with
  | nil => rfl
  | cons detector rest ih =>
    have hplace : detector ∈ TURN_DETECTORS ∨ ∃ group : SourceGroup, group.detector = detector := by
      cases detector <;>
        first | exact .inl (by decide) | exact .inr ⟨.mcp, rfl⟩ |
          exact .inr ⟨.builtInTools, rfl⟩ | exact .inr ⟨.skills, rfl⟩
    have hstep : (accumulator.report statuses).activeStep activeDetectorMask
        (accumulator.report statuses).ownResources burn detector =
          some (accumulator.recordActive statuses burn detector) := by
      rcases hplace with hturn | ⟨group, rfl⟩
      · exact activeStep_turn hfits (hmask detector) hturn burn
      · refine activeStep_source hfits (hmask _) burn ?_
        have hlater := Within.forall_le (within_foldl_recordActive rest _) htotals
        cases group <;> exact hlater
    rw [List.foldlM_cons, hstep]
    exact ih htotals

lemma foldl_recordActive :
    DetectorId.ALL.foldl (accumulator.recordActive statuses)
      { nonResourceBySession := accumulator.zeros, resourceBySession := accumulator.zeros } =
    { nonResourceBySession := accumulator.largestTurnShares statuses
      resourceBySession := accumulator.summedSourceShares statuses
      measuredFinding := DetectorId.ALL.any fun detector =>
        (accumulator.share statuses detector).isSome
      fallback := (DetectorId.ALL.map (accumulator.unmeasuredFigure statuses)).foldl greater
        none } := by
  -- the two loops visit the turn detectors in different orders
  let inOrder : List DetectorId :=
    [.sessionsOverDepth, .modelOverthinking, .overpoweredSubagents, .oldModelUsage,
      .overuseOfFastMode, .cacheChurn]
  have hperm : inOrder.Perm TURN_DETECTORS := by decide
  have hlarg : (inOrder.map (accumulator.share statuses)).foldl (addShare max) accumulator.zeros =
      accumulator.largestTurnShares statuses :=
    foldl_addShare_perm (fun a b c => max_right_comm a b c) (hperm.map _) _
  have hmeasured : ∀ measured : Bool, DetectorId.ALL.foldl (fun measured detector =>
      measured || (accumulator.share statuses detector).isSome) measured =
        (measured || DetectorId.ALL.any fun detector =>
          (accumulator.share statuses detector).isSome) := by
    intro measured
    simp only [DetectorId.ALL, List.foldl_cons, List.foldl_nil, List.any_cons, List.any_nil,
      Bool.or_false, Bool.or_assoc]
  rw [← hlarg]
  exact congrArg (fun measured => ActiveBurn.mk
    ((inOrder.map (accumulator.share statuses)).foldl (addShare max) accumulator.zeros)
    (accumulator.summedSourceShares statuses) measured
    ((DetectorId.ALL.map (accumulator.unmeasuredFigure statuses)).foldl greater none))
    ((hmeasured false).trans (Bool.false_or _))

lemma finish_combined (hfits : accumulator.burnedTokens statuses ≤ U128_MAX) :
    (accumulator.finish statuses).combined =
      if DetectorId.ALL.any fun detector => (accumulator.share statuses detector).isSome then
        accumulator.percentage (accumulator.burnedTokens statuses)
      else (DetectorId.ALL.map (accumulator.unmeasuredFigure statuses)).foldl greater none := by
  have hsum : checkedSum (zipInto max (accumulator.largestTurnShares statuses)
      (accumulator.summedSourceShares statuses)) = some (accumulator.burnedTokens statuses) :=
    checkedSum_of_le hfits
  have hother : ∀ detector, (∀ findings, statuses detector ≠ .findings findings) →
      accumulator.share statuses detector = none := fun _ => accumulator.share_eq_none statuses
  unfold finish
  rw [measure_eq hfits]
  dsimp only
  have hmeasured : ∀ measuring : Measuring, measuring.numerators = accumulator.numerator statuses →
      measuredFinding statuses measuring = fun detector =>
        (accumulator.share statuses detector).isSome := by
    intro measuring hnumr
    funext detector
    unfold measuredFinding
    rw [hnumr]
    cases hstatus : statuses detector with
    | findings findings => simp [numerator, hstatus]
    | clean | notAssessed => simp [hother detector (by simp [hstatus])]
  rw [hmeasured _ rfl, hsum, Option.bind_some]
  split_ifs with hany
  · rfl
  · -- nothing is measured, so every finding has its fallback
    refine congrArg (List.foldl greater none) (List.map_congr_left fun detector hmem => ?_)
    have hnone : accumulator.share statuses detector = none := by
      rw [Bool.not_eq_true, List.any_eq_false] at hany
      exact Option.not_isSome_iff_eq_none.mp (hany detector hmem)
    unfold estimate unmeasuredFigure
    cases hstatus : statuses detector with
    | findings findings => simp [numerator, hstatus, hnone]
    | clean | notAssessed => rfl

end TokenBurnAccumulator

open TokenBurnAccumulator

/-- **The two ways of combining token burn agree and do not double count.** -/
theorem token_burn_figures_agree (observations : List TokenBurnObservation)
    (statuses : DetectorId → DetectorStatus)
    (hfits : (observations.foldl observe {}).burnedTokens statuses ≤ U128_MAX) :
    let accumulator := observations.foldl observe {}
    let result := accumulator.finish statuses
    result.contributions = accumulator.share statuses ∧
      ((∃ detector, (result.contributions detector).isSome = true) →
        result.combined = accumulator.percentage (accumulator.burnedTokens statuses)) ∧
      ((∀ detector, result.contributions detector = none) →
        result.combined =
          (DetectorId.ALL.map (accumulator.unmeasuredFigure statuses)).foldl greater none) ∧
      (∀ detector values, result.contributions detector = some values →
        values.sum ≤ accumulator.burnedTokens statuses) ∧
      ∀ activeDetectorMask : Nat,
        (∀ detector : DetectorId, activeDetectorMask.testBit detector.index = true) →
        (accumulator.report statuses).estimatedTokenBurnForActiveDetectors activeDetectorMask
          (accumulator.report statuses).ownResources = result.combined := by
  dsimp only
  generalize observations.foldl observe {} = accumulator at hfits ⊢
  have hall : ∀ detector : DetectorId, detector ∈ DetectorId.ALL := by
    intro detector
    cases detector <;> decide
  rw [finish_contributions hfits, finish_combined hfits]
  refine ⟨rfl, ?_, ?_, ?_, ?_⟩
  · rintro ⟨detector, hmeasured⟩
    rw [if_pos (List.any_eq_true.mpr ⟨detector, hall detector, hmeasured⟩)]
  · intro hnone
    rw [if_neg (by simp [hnone])]
  · exact fun detector values h => (accumulator.share_within_burned statuses h).sum_le
  · intro activeDetectorMask hmask
    have hrounds := @foldlM_activeStep accumulator statuses hfits activeDetectorMask hmask
      DetectorId.ALL
      { nonResourceBySession := accumulator.zeros, resourceBySession := accumulator.zeros } (by
        rw [foldl_recordActive]
        exact forall_summed_le hfits)
    dsimp only at hrounds
    rw [foldl_recordActive] at hrounds
    unfold EfficiencyReport.estimatedTokenBurnForActiveDetectors
    have hzeros : List.replicate (accumulator.report statuses).assessedSessions 0 =
        accumulator.zeros := rfl
    dsimp only
    rw [hzeros, hrounds]
    simp only [Option.bind_eq_bind, Option.bind_some]
    have hsum : checkedSum (zipInto max (accumulator.largestTurnShares statuses)
        (accumulator.summedSourceShares statuses)) = some (accumulator.burnedTokens statuses) :=
      checkedSum_of_le hfits
    rw [hsum]
    cases DetectorId.ALL.any fun detector => (accumulator.share statuses detector).isSome <;> rfl

def overthinkingSession (measured : Option Nat) : TokenBurnObservation where
  tokenEvidence := {
    totalTokens := some 1000
    overdepthAvoidableTokens := none
    repeatedContextAvoidableTokens := none
    modelOverthinking := measured
    overpoweredSubagents := none
    oldModel := none
    fastMode := none
    mcpSources := some [⟨"parent", "github", 300, false⟩]
    builtInToolSources := none
    skillSources := none }
  findings := fun detector => detector = .modelOverthinking || detector = .unusedMcpServers
  sourceEligible := fun _ => measured.isSome
  cacheAssessed := true

def findingsOf (detectors : List DetectorId) (detector : DetectorId) : DetectorStatus :=
  if detector ∈ detectors then .findings ⟨1, Nat.one_pos⟩ else .clean

theorem token_burn_figures_agree_session :
    let report := ([overthinkingSession (some 200)].foldl observe {}).report
      (findingsOf [.modelOverthinking, .unusedMcpServers])
    report.estimatedTokenBurnBasisPoints = some 3000 ∧
      report.estimatedTokenBurnForActiveDetectors 511 report.ownResources = some 3000 := by
  obtain ⟨-, -, -, -, hactive⟩ := token_burn_figures_agree [overthinkingSession (some 200)]
    (findingsOf [.modelOverthinking, .unusedMcpServers]) (by decide)
  refine ⟨by decide, (hactive 511 fun detector => ?_).trans (by decide)⟩
  cases detector <;> rfl

/-- A finding without evidence is estimated from how many sessions have it, not
from tokens: the figure is not the percentage of what is burned. -/
theorem unmeasured_finding_has_a_fallback :
    let accumulator := [overthinkingSession none].foldl observe {}
    let statuses := findingsOf [.modelOverthinking]
    (accumulator.finish statuses).combined = some 2000 ∧
      accumulator.percentage (accumulator.burnedTokens statuses) = some 0 := by
  decide

end Antiburn
