/-
The rolling window of a message activation over whole runs.

Seen from one branch, a call either drops identities from the window, and
deselects exactly those, or lets one identity enter that had no terminal
observation before.  `Windowed.change` derives this from `selector_cases`;
everything else follows from the two kinds of change, through `FifoWindow`.
-/
import Antiburn.Selector

namespace Antiburn

open SelectionState

section Windowed

variable {act : EffectiveActivation} {s t : SelectionState} {b : BranchId}
  {label : SelectionLabel} {log extra : List String}

def SelectionOp.Named : SelectionOp → Prop
  | .apply identity _ observation =>
    ∀ message, observation.kind.message? = some message → message.id = identity
  | _ => True

def SelectionLabel.terminalApplication (b : BranchId) : SelectionLabel → List String
  | (.apply identity _ observation, .applied .accepted _) =>
    if observation.branch = b ∧ observation.kind.isOther = false then [identity] else []
  | _ => []

def terminalApplications (b : BranchId) (labels : List SelectionLabel) : List String :=
  labels.flatMap (SelectionLabel.terminalApplication b)

/-! ### The two kinds of change -/

inductive WindowChange (size : Nat) (s : SelectionState) (b : BranchId) (extra : List String)
    (t : SelectionState) : Prop
  /-- Some identities leave; exactly these are no longer selected. -/
  | drop (out : String → Bool)
      (hwindow : t.window b = (s.window b).filter (!out ·))
      (hselected : ∀ id, t.selected ⟨b, id⟩ = (s.selected ⟨b, id⟩ && !out id))
  /-- A fresh identity enters and evicts the oldest ones beyond the size. -/
  | enter (id : String) (hextra : extra = [id]) (hfresh : s.terminal ⟨b, id⟩ = false)
      (hwindow : t.window b = FifoWindow.push size (s.window b) id)
      (hentered : t.selected ⟨b, id⟩ = true)
      (hselected : ∀ id', id' ≠ id → t.selected ⟨b, id'⟩ =
        if id' ∈ FifoWindow.evicted size (s.window b) id then false else s.selected ⟨b, id'⟩)

namespace WindowChange

variable {size : Nat}

lemma unchanged (hwindow : t.window b = s.window b)
    (hselected : ∀ id, t.selected ⟨b, id⟩ = s.selected ⟨b, id⟩) :
    WindowChange size s b extra t := by
  refine .drop (fun _ => false) ?_ ?_
  · rw [hwindow]
    exact (List.filter_eq_self.mpr fun _ _ => rfl).symm
  · intro id
    rw [hselected, Bool.not_false, Bool.and_true]

lemma discard (key : ResultKey)
    (hwindow : t.window b =
      if key.branch = b then (s.window b).filter (· != key.identity) else s.window b)
    (hselected : ∀ id, t.selected ⟨b, id⟩ = (s.selected ⟨b, id⟩ && key != ⟨b, id⟩)) :
    WindowChange size s b extra t := by
  obtain ⟨b', identity⟩ := key
  by_cases hb : b' = b
  · subst hb
    refine .drop (· == identity) ?_ ?_
    · rw [hwindow, if_pos rfl]
      rfl
    · intro id
      rw [hselected]
      congr 1
      rw [bne, Bool.eq_iff_iff, Bool.not_eq_true', Bool.not_eq_true', beq_eq_false_iff_ne,
        beq_eq_false_iff_ne, ne_eq, ne_eq, ResultKey.mk.injEq]
      constructor
      · exact fun hne hid => hne ⟨rfl, hid.symm⟩
      · exact fun hne hid => hne hid.2.symm
  · refine unchanged (by rw [hwindow, if_neg hb]) ?_
    intro id
    have hne : (⟨b', identity⟩ : ResultKey) ≠ ⟨b, id⟩ := by
      intro heq
      rw [ResultKey.mk.injEq] at heq
      exact hb heq.1
    rw [hselected, bne_iff_ne.mpr hne, Bool.and_true]

lemma deselect (key : ResultKey) (hout : key.branch = b → key.identity ∉ s.window b)
    (hwindow : t.window b = s.window b)
    (hselected : ∀ id, t.selected ⟨b, id⟩ = (s.selected ⟨b, id⟩ && key != ⟨b, id⟩)) :
    WindowChange size s b extra t := by
  refine discard key ?_ hselected
  rw [hwindow]
  split_ifs with hb
  · symm
    rw [List.filter_eq_self]
    intro id hid
    rw [bne_iff_ne]
    rintro rfl
    exact hout hb hid
  · rfl

lemma retire (b' : BranchId)
    (hterminal : ∀ id, s.selected ⟨b, id⟩ = true → s.terminal ⟨b, id⟩ = true)
    (hwindow : t.window b = if b' = b then [] else s.window b)
    (hselected : ∀ id, t.selected ⟨b, id⟩ =
      if b = b' then s.selected ⟨b, id⟩ && !s.terminal ⟨b, id⟩ else s.selected ⟨b, id⟩) :
    WindowChange size s b extra t := by
  by_cases hb : b' = b
  · subst hb
    refine .drop (fun _ => true) ?_ ?_
    · rw [hwindow, if_pos rfl]
      exact (List.filter_eq_nil_iff.mpr fun _ _ => by simp).symm
    · intro id
      rw [hselected, if_pos rfl]
      cases hid : s.selected ⟨b', id⟩ with
      | true => rw [hterminal id hid]
      | false => rfl
  · exact unchanged (by rw [hwindow, if_neg hb]) fun id => by rw [hselected, if_neg (Ne.symm hb)]

end WindowChange

structure Windowed (size : Nat) (b : BranchId) (log : List String) (s : SelectionState) :
    Prop where
  valid : FifoWindow.Valid size ⟨s.window b, log⟩
  selected_iff : ∀ id, s.selected ⟨b, id⟩ = true ↔ id ∈ s.window b
  logged_terminal : ∀ id ∈ log, s.terminal ⟨b, id⟩ = true

lemma windowed_empty (size : Nat) (b : BranchId) : Windowed size b [] {} where
  valid := FifoWindow.valid_empty size []
  selected_iff := by
    intro id
    have hwindow : ({} : SelectionState).window b = [] := rfl
    have hselected : ({} : SelectionState).selected ⟨b, id⟩ = false := rfl
    rw [hwindow, hselected]
    simp
  logged_terminal := by simp

namespace Windowed

variable {size : Nat}

lemma terminal_of_selected (h : Windowed size b log s) {id : String}
    (hid : s.selected ⟨b, id⟩ = true) : s.terminal ⟨b, id⟩ = true :=
  h.logged_terminal id (h.valid.offered id ((h.selected_iff id).mp hid))

/-- **A change keeps window and record in step.** -/
lemma of_change (h : Windowed size b log s) (hsize : 0 < size)
    (hchange : WindowChange size s b extra t)
    (hkeep : ∀ id, s.terminal ⟨b, id⟩ = true → t.terminal ⟨b, id⟩ = true)
    (hextra : ∀ id ∈ extra, t.terminal ⟨b, id⟩ = true) : Windowed size b (log ++ extra) t := by
  have hlogged : ∀ id ∈ log ++ extra, t.terminal ⟨b, id⟩ = true := by
    intro id hid
    rcases List.mem_append.mp hid with hid | hid
    · exact hkeep id (h.logged_terminal id hid)
    · exact hextra id hid
  cases hchange with
  | drop out hwindow hselected =>
    refine ⟨?_, ?_, hlogged⟩
    · rw [hwindow]
      exact h.valid.shrink List.filter_sublist extra
    · intro id
      rw [hwindow, hselected, Bool.and_eq_true, h.selected_iff, List.mem_filter]
  | enter id hids hfresh hwindow hentered hselected =>
    subst hids
    have hnew : id ∉ log := by
      intro hid
      rw [h.logged_terminal id hid] at hfresh
      cases hfresh
    refine ⟨by rw [hwindow]; exact h.valid.enter hnew, ?_, hlogged⟩
    intro id'
    rw [hwindow]
    by_cases hid : id' = id
    · subst hid
      exact iff_of_true hentered (FifoWindow.mem_push_self hsize _ _)
    · rw [hselected id' hid, FifoWindow.mem_push_iff (h.valid.nodup_append hnew)]
      have hmem : id' ∈ s.window b ++ [id] ↔ id' ∈ s.window b := by simp [hid]
      rw [hmem, ← h.selected_iff id']
      split_ifs with hout
      · simp [hout]
      · simp [hout]

lemma stays_out (hchange : WindowChange size s b extra t) {id : String}
    (hterminal : s.terminal ⟨b, id⟩ = true) (hout : id ∉ s.window b) : id ∉ t.window b := by
  cases hchange with
  | drop out hwindow hselected =>
    rw [hwindow]
    exact fun hid => hout (List.mem_filter.mp hid).1
  | enter fresh hids hfresh hwindow hentered hselected =>
    rw [hwindow]
    intro hid
    rcases List.mem_append.mp ((FifoWindow.push_sublist size (s.window b) fresh).subset hid)
      with hid | hid
    · exact hout hid
    · rw [List.mem_singleton.mp hid, hfresh] at hterminal
      cases hterminal

end Windowed

/-! ### Every call is such a change -/

variable [Platform]

namespace Windowed

omit [Platform] in
lemma change_enter (h : Windowed act.windowCapacity b log s) {obs : Observation}
    {msg : Message} {rev : Nat} {identity : String} {outcome : SelectionOutcome}
    (hid : msg.id = identity)
    (hfresh : s.terminal ⟨obs.branch, identity⟩ = false)
    (hmemb : outcome.firstMembership = .selected)
    (hextra : obs.branch = b → extra = [identity]) :
    WindowChange act.windowCapacity s b extra
      (((s.recordSeen ⟨obs.branch, identity⟩ rev obs).selectMessage act
        obs msg).setMembership ⟨obs.branch, identity⟩
          outcome.firstMembership) := by
  subst hid
  have hselected : ∀ key, (((s.recordSeen ⟨obs.branch, msg.id⟩ rev
      obs).selectMessage act obs msg).setMembership
        ⟨obs.branch, msg.id⟩ outcome.firstMembership).selected key =
      if (⟨obs.branch, msg.id⟩ : ResultKey) = key then true
      else if key.branch = obs.branch ∧ key.identity ∈
        FifoWindow.evicted act.windowCapacity (s.window obs.branch) msg.id
      then false else s.selected key := by
    intro key
    rw [selected_setMembership, selected_selectMessage, hmemb, window_recordSeen,
      selected_recordSeen]
    by_cases hkey : (⟨obs.branch, msg.id⟩ : ResultKey) = key
    · rw [if_pos hkey, if_pos hkey, ← hkey, isSome_selectMessage]
      simp
    · rw [if_neg hkey, if_neg hkey]
  by_cases hb : obs.branch = b
  · subst hb
    refine .enter msg.id (hextra rfl) hfresh ?_ ?_ ?_
    · rw [window_setMembership, window_selectMessage, if_pos rfl, window_recordSeen]
    · rw [hselected, if_pos rfl]
    · intro id' hid'
      rw [hselected, if_neg fun heq => hid' (congrArg ResultKey.identity heq).symm]
      simp only [true_and]
  · refine .unchanged ?_ ?_
    · rw [window_setMembership, window_selectMessage, if_neg hb, window_recordSeen]
    · intro id
      rw [hselected, if_neg fun heq => hb (congrArg ResultKey.branch heq),
        if_neg fun hout => hb hout.1.symm]

omit [Platform] in
/-- A membership other than `Selected` deselects its identity and no other. -/
lemma selected_deselect {u : SelectionState} (hu : ∀ key, u.selected key = s.selected key)
    {membership : ResultMembership} (hmemb : membership ≠ .selected) (key key' : ResultKey) :
    (u.setMembership key membership).selected key' = (s.selected key' && key != key') := by
  rw [selected_setMembership, hu]
  split_ifs with heq
  · rw [heq, bne_self_eq_false, Bool.and_false, beq_eq_false_iff_ne.mpr hmemb,
      Bool.and_false]
  · rw [bne_iff_ne.mpr heq, Bool.and_true]

omit [Platform] in
/-- A later version of a terminal identity never enters. -/
lemma change_correction (h : Windowed size b log s) {identity : String}
    {prev : SeenResult} {obs : Observation} {rev : Nat}
    {outcome : SelectionOutcome}
    (hnamed : ∀ msg, obs.kind.message? = some msg → msg.id = identity)
    (hcase : CorrectionCase (s.recordSeen ⟨obs.branch, identity⟩ rev obs)
      ⟨obs.branch, identity⟩ prev obs outcome t) :
    WindowChange size s b extra t := by
  cases hcase with
  | settled _ => exact .unchanged (by simp) (by simp)
  | excluded _ =>
    refine .discard ⟨obs.branch, identity⟩ (by simp) fun id => ?_
    exact selected_deselect (by simp) (by simp) _ _
  | unknown hout =>
    -- the membership was not `Selected`, for the window does not hold the identity
    refine .deselect ⟨obs.branch, identity⟩ ?_ (by simp) fun id => ?_
    · intro hb
      exact hb ▸ hout
    · exact selected_deselect (by simp) (by simp) _ _
  | invalidated =>
    refine .retire obs.branch (fun id => h.terminal_of_selected) (by simp) ?_
    intro id
    rw [selected_setMembership]
    by_cases hkey : (⟨obs.branch, identity⟩ : ResultKey) = ⟨b, id⟩
    · obtain ⟨rfl, rfl⟩ := ResultKey.mk.injEq .. ▸ hkey
      cases hid : s.selected ⟨obs.branch, identity⟩ with
      | true => simp [h.terminal_of_selected hid]
      | false => simp
    · rw [if_neg hkey]
      simp [selected_retireWindow, hkey]
  | replaced hkind hin =>
    refine .unchanged ?_ ?_
    · rw [window_setMembership, window_replaceResult _ _ _ _ _ (hnamed _ hkind)]
      simp
    · intro id
      rw [selected_setMembership]
      by_cases hkey : (⟨obs.branch, identity⟩ : ResultKey) = ⟨b, id⟩
      · -- the identity is in the window, so its membership was `Selected` before
        obtain ⟨rfl, rfl⟩ := ResultKey.mk.injEq .. ▸ hkey
        have hselected := (h.selected_iff identity).mpr hin
        rw [if_pos rfl, hselected]
        show (((s.recordSeen _ rev obs).seen? _).isSome && true) = true
        simp
      · rw [if_neg hkey]
        simp

section

variable (hfamily : act.compiled.trigger.family.isMessages = true)
include hfamily

/-- **Every call changes the window of a branch in one of the two ways.** -/
lemma change (h : Windowed act.windowCapacity b log s) (hnamed : label.1.Named)
    (hcase : SelectorCase s act label t) :
    WindowChange act.windowCapacity s b (label.terminalApplication b) t := by
  have hterminal : ∀ id, s.selected ⟨b, id⟩ = true → s.terminal ⟨b, id⟩ = true :=
    fun _ => h.terminal_of_selected
  cases hcase with
  | @apply identity rev obs admission outcome t _ happly =>
    cases happly with
    | refused => exact .unchanged rfl fun _ => rfl
    | limit _ _ => exact .unchanged (by simp) (by simp)
    | historical _ _ =>
      refine .discard ⟨obs.branch, identity⟩ (by simp) fun id => ?_
      exact selected_deselect (by simp) (by simp) _ _
    | pending _ _ => exact .unchanged (by simp) (by simp)
    | first hkind _ hfresh happly =>
      have hout : obs.branch = b → identity ∉ s.window b := by
        rintro rfl hid
        have hid := h.terminal_of_selected ((h.selected_iff identity).mpr hid)
        rw [terminal, hfresh] at hid
        cases hid
      have hextra : obs.branch = b → SelectionLabel.terminalApplication b
          (.apply identity rev obs, .applied .accepted outcome) = [identity] :=
        fun hb => if_pos ⟨hb, hkind⟩
      cases happly with
      | rejected hupdated hcand hstate =>
        have hmemb : outcome.firstMembership ≠ .selected := by
          cases outcome <;> simp_all [SelectionOutcome.firstMembership, SelectionOutcome.candidate?]
        refine .deselect ⟨obs.branch, identity⟩ hout ?_ ?_
        · rcases hstate with rfl | ⟨diagnostic, rfl⟩ <;> simp
        · intro id
          refine selected_deselect ?_ hmemb _ _
          rcases hstate with rfl | ⟨diagnostic, rfl⟩ <;> simp
      | event hmsg hfilters _ =>
        have hsome := message?_of_filters hfamily hfilters
        rw [hmsg] at hsome
        cases hsome
      | collected hmsg | window hmsg _ => exact h.change_enter (hnamed _ hmsg) hfresh rfl hextra
    | repeated _ _ hother =>
      rw [hfamily] at hother
      cases hother
    | correction _ _ hcorr => exact h.change_correction hnamed hcorr
  | removeStale => exact .unchanged rfl fun _ => rfl
  | @removeLimit branch identity _ hunseen _ =>
    refine .discard ⟨branch, identity⟩ (by simp) fun id => ?_
    rw [selected_discardResult, selected_markIdentityLimit]
    by_cases hkey : (⟨branch, identity⟩ : ResultKey) = ⟨b, id⟩
    · have hselected : s.selected ⟨branch, identity⟩ = false := by rw [selected, hunseen]; rfl
      rw [← hkey, hselected, Bool.false_and]
    · rw [bne_iff_ne.mpr hkey, Bool.and_true]
  | @remove branch identity _ =>
    refine .discard ⟨branch, identity⟩ (by simp) fun id => ?_
    rw [selected_discardResult, selected_recordRemoval, Bool.and_comm]
  | markGap => exact .unchanged (by simp) (by simp)
  | @reset branch =>
    exact .retire branch hterminal (by simp) fun id => s.selected_resetSegment branch _
  | @restore branch =>
    exact .retire branch hterminal (by simp) fun id => s.selected_restoreCoverage branch _

lemma step (h : Windowed act.windowCapacity b log s) (hnamed : label.1.Named)
    (hstep : (selector act).step s label t) :
    Windowed act.windowCapacity b (log ++ label.terminalApplication b) t := by
  have hcase := selector_cases hstep
  refine h.of_change (windowCapacity_pos act) (h.change hfamily hnamed hcase)
    (fun id => hcase.terminal_mono) ?_
  intro id hid
  cases hcase with
  | @apply identity rev obs admission outcome t _ happly =>
    cases admission with
    | refused | limit => cases hid
    | accepted =>
      simp only [SelectionLabel.terminalApplication] at hid
      split_ifs at hid with hterminal
      · obtain ⟨rfl, hkind⟩ := hterminal
        rw [List.mem_singleton.mp hid]
        exact happly.terminal_of_accepted hkind
      · cases hid
  | _ => cases hid

/-- **Every run keeps the window and the record of a branch in step.** -/
lemma run {labels : List SelectionLabel} (hnamed : ∀ label ∈ labels, label.1.Named)
    (h : Windowed act.windowCapacity b log s)
    (hrun : (selector act).Run s labels t) :
    Windowed act.windowCapacity b (log ++ terminalApplications b labels) t := by
  induction hrun generalizing log with
  | nil s => simpa [terminalApplications] using h
  | @cons s label t labels u hstep _ ih =>
    have hmid := h.step hfamily (hnamed label (.head _)) hstep
    have hend := ih (fun label hlabel => hnamed label (.tail _ hlabel)) hmid
    rw [List.append_assoc] at hend
    exact hend

/-- **What left the window of a branch stays outside.** -/
lemma run_stays_out {labels : List SelectionLabel} (hnamed : ∀ label ∈ labels, label.1.Named)
    (h : Windowed act.windowCapacity b log s) {id : String}
    (hterminal : s.terminal ⟨b, id⟩ = true) (hout : id ∉ s.window b)
    (hrun : (selector act).Run s labels t) : id ∉ t.window b := by
  induction hrun generalizing log with
  | nil s => exact hout
  | @cons s label t labels u hstep _ ih =>
    have hnamed_label := hnamed label (.head _)
    have hcase := selector_cases hstep
    exact ih (fun label hlabel => hnamed label (.tail _ hlabel))
      (h.step hfamily hnamed_label hstep) (hcase.terminal_mono hterminal)
      (stays_out (h.change hfamily hnamed_label hcase) hterminal hout)

end

end Windowed

/-- **The window invariant over whole runs.**  The order is that of the first
terminal applications; the last part says that what was in the window at some
point and outside at a later one is outside for the rest of the run. -/
theorem window_invariant (hfamily : act.compiled.trigger.family.isMessages = true)
    {labels : List SelectionLabel} (hnamed : ∀ label ∈ labels, label.1.Named)
    (hrun : (selector act).Run {} labels s) (b : BranchId) :
    (s.window b).length ≤
        min (act.compiled.trigger.window.getD .single).size 40 ∧
      (s.window b).Nodup ∧
      (∀ id ∈ s.window b, id ∈ terminalApplications b labels) ∧
      ((s.window b).Pairwise fun id id' =>
        (terminalApplications b labels).idxOf id < (terminalApplications b labels).idxOf id') ∧
      (∀ id, id ∈ s.window b ↔
        (s.seen? ⟨b, id⟩).map (·.membership) = some ResultMembership.selected) ∧
      ∀ (first second third : List SelectionLabel) (u v : SelectionState) (id : String),
        labels = first ++ second ++ third → (selector act).Run {} first u →
        (selector act).Run u second v → (selector act).Run v third s →
        id ∈ u.window b → id ∉ v.window b → id ∉ s.window b := by
  have h := (windowed_empty act.windowCapacity b).run hfamily hnamed hrun
  rw [List.nil_append] at h
  refine ⟨h.valid.bounded, h.valid.nodup, h.valid.offered, h.valid.ordered, ?_, ?_⟩
  · intro id
    rw [← h.selected_iff, selected_iff]
  · intro first second third u v id hlabels hfirst hsecond hthird hin hout
    subst hlabels
    have hu := (windowed_empty act.windowCapacity b).run hfamily
      (fun label hlabel => hnamed label (by simp [hlabel])) hfirst
    have hv := hu.run hfamily (fun label hlabel => hnamed label (by simp [hlabel])) hsecond
    refine hv.run_stays_out hfamily (fun label hlabel => hnamed label (by simp [hlabel])) ?_ hout
      hthird
    have hterminal := hu.terminal_of_selected ((hu.selected_iff id).mpr hin)
    exact hsecond.invariant (I := fun s => s.terminal ⟨b, id⟩ = true)
      (fun _ _ _ hstep hid => (selector_cases hstep).terminal_mono hid) hterminal

end Windowed

/-- Two messages pass through a window of one; a gap does not disturb it. -/
def twoMessages : List SelectionOp :=
  [.apply "a" 1 (mainObservation (userMessage "a") 1),
    .apply "b" 2 (mainObservation (userMessage "b") 2), .markGap "main"]

theorem window_invariant_twoMessages :
    ∃ (labels : List SelectionLabel) (s : SelectionState),
      labels.map Prod.fst = twoMessages ∧ s.window "main" = ["b"] ∧
      (s.window "main").length ≤ min 1 40 ∧ (s.window "main").Nodup := by
  let act := userMessageActivation 1 (by decide) (by decide)
  obtain ⟨labels, s, hrun, hops, hwindow⟩ := @SelectionOp.exists_run asciiPlatform act
    twoMessages {} (fun result => result.2.window "main" == ["b"]) (by decide +kernel)
  have hnamed : ∀ label ∈ labels, label.1.Named := by
    intro label hlabel
    have hop : label.1 ∈ twoMessages := hops ▸ List.mem_map_of_mem hlabel
    simp only [twoMessages, List.mem_cons, List.not_mem_nil, or_false] at hop
    rcases hop with hop | hop | hop <;> rw [hop]
    · rintro _ ⟨⟩; rfl
    · rintro _ ⟨⟩; rfl
    · trivial
  have h := @window_invariant act s asciiPlatform rfl labels hnamed hrun "main"
  exact ⟨labels, s, hops, beq_iff_eq.mp hwindow, h.1, h.2.1⟩

end Antiburn
