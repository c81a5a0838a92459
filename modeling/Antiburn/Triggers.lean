/-
One trigger per identity.

A candidate needs a fresh identity and leaves a terminal record of it.  An
identity is barred once it has a terminal record, or once a branch at its limit
rejects it unseen; barred identities never trigger again.
-/
import Antiburn.IdentityLimit

namespace Antiburn

open SelectionState

/-! ### What a label says about an identity -/

def SelectionLabel.Triggers (key : ResultKey) : SelectionLabel → Prop
  | (.apply identity _ observation, .applied _ outcome) =>
    key = ⟨observation.branch, identity⟩ ∧ outcome.candidate?.isSome = true
  | _ => False

def SelectionLabel.Observes (key : ResultKey) : SelectionLabel → Prop
  | (.apply identity _ observation, _) =>
    key = ⟨observation.branch, identity⟩ ∧ observation.kind.isOther = false
  | _ => False

def SelectionLabel.Terminates (key : ResultKey) : SelectionLabel → Prop
  | (.apply identity _ observation, .applied admission _) =>
    key = ⟨observation.branch, identity⟩ ∧ observation.kind.isOther = false ∧
      admission = .accepted
  | _ => False

def SelectionLabel.Historical (activation : EffectiveActivation) : SelectionLabel → Prop
  | (.apply _ _ observation, _) => isHistorical activation observation = true
  | _ => False

def SelectionLabel.Removes (key : ResultKey) : SelectionLabel → Prop
  | (.remove branch identity _, .removed changed) =>
    key = ⟨branch, identity⟩ ∧ changed = true
  | _ => False

section Runs

variable [Platform] {activation : EffectiveActivation} {s t : SelectionState}
  {label : SelectionLabel} {key : ResultKey}

/-! ### Step lemmas -/

lemma SelectorCase.of_triggers (h : SelectorCase s activation label t)
    (htriggers : label.Triggers key) :
    s.terminal key = false ∧ t.terminal key = true ∧ label.Terminates key ∧
      ¬ label.Historical activation := by
  cases h with
  | apply _ happly =>
    obtain ⟨rfl, hcand⟩ := htriggers
    cases happly with
    | first hterm hhistorical hprev happly =>
      refine ⟨hprev, ?_, ⟨rfl, hterm, rfl⟩, ?_⟩
      · exact (PublishedCase.first hterm hhistorical hprev happly).terminal_of_accepted
          hterm
      · intro h
        rw [SelectionLabel.Historical, hhistorical] at h
        cases h
    | correction _ _ hcorr =>
      cases hcorr with
      | excluded hnone => rw [hnone] at hcand; cases hcand
      | _ => cases hcand
    | _ => cases hcand
  | _ => cases htriggers

lemma SelectorCase.terminal_of_terminates (h : SelectorCase s activation label t)
    (hterminates : label.Terminates key) : t.terminal key = true := by
  cases h with
  | apply _ happly =>
    obtain ⟨rfl, hterm, rfl⟩ := hterminates
    exact happly.terminal_of_accepted hterm
  | _ => cases hterminates

/-- An identity that cannot trigger any more. -/
def Barred (key : ResultKey) (s : SelectionState) : Prop :=
  s.terminal key = true ∨ (s.seen? key = none ∧ s.limited key.branch = true)

lemma SelectorCase.barred_of_removes (h : SelectorCase s activation label t)
    (hremoves : label.Removes key) : Barred key t := by
  cases h with
  | removeStale =>
    obtain ⟨-, hchanged⟩ := hremoves
    cases hchanged
  | @removeLimit branch identity _ hunseen _ =>
    obtain ⟨rfl, -⟩ := hremoves
    refine .inr ⟨hunseen, ?_⟩
    have hflags := flags_discardResult (s.markIdentityLimit branch) branch branch identity
    rw [flags_markIdentityLimit, if_pos rfl] at hflags
    exact congrArg Prod.fst hflags
  | remove =>
    obtain ⟨rfl, -⟩ := hremoves
    left
    simp
  | _ => cases hremoves

omit [Platform] in
lemma admission_of_limited {rev : Nat} {version : EvidenceVersion}
    (hunseen : s.seen? key = none) (hlim : s.limited key.branch = true) :
    s.admission key rev version = .refused := by
  have hlim : (s.branch key.branch).identityLimitReached = true := hlim
  rw [admission, hunseen, hlim]
  rfl

section

variable (h : SelectorCase s activation label t)
include h

lemma SelectorCase.unseen (hunseen : s.seen? key = none)
    (hlim : s.limited key.branch = true) : t.seen? key = none ∨ t.terminal key = true := by
  cases h with
  | @apply identity rev observation admission outcome t hadmn happly =>
    left
    by_cases hkey : (⟨observation.branch, identity⟩ : ResultKey) = key
    · subst hkey
      rw [admission_of_limited hunseen hlim] at hadmn
      subst hadmn
      cases happly
      exact hunseen
    · cases happly with
      | refused | limit => exact hunseen
      | historical | pending => simp [hkey, hunseen]
      | first _ _ _ happly =>
        cases happly with
        | rejected _ _ hstate =>
          rcases hstate with rfl | ⟨diagnostic, rfl⟩ <;> simp [hkey, hunseen]
        | event => simp [hkey, hunseen]
        | collected | window =>
          rw [← Option.not_isSome_iff_eq_none, seen?_setMembership, if_neg hkey,
            isSome_selectMessage]
          simp [hkey, hunseen]
      | repeated _ _ _ => simp [hkey, hunseen]
      | correction _ _ hcorr =>
        cases hcorr with
        | settled | excluded => simp [hkey, hunseen]
        | unknown _ | invalidated => simp [hkey, hunseen, markCoverageGap]
        | replaced _ _ => simp [hkey, hunseen, replaceResult]
  | removeStale | removeLimit => exact .inl hunseen
  | @remove branch identity _ =>
    by_cases hkey : (⟨branch, identity⟩ : ResultKey) = key
    · right
      simp [hkey]
    · left
      simp [seen?_recordRemoval, hkey, hunseen]
  | markGap => exact .inl hunseen
  | reset => left; simp [resetSegment, markCoverageGap, hunseen]
  | restore => left; simp [restoreCoverage, hunseen]

lemma SelectorCase.barred_mono (hbarred : Barred key s) : Barred key t := by
  rcases hbarred with hterm | ⟨hunseen, hlim⟩
  · exact .inl (h.terminal_mono hterm)
  · rcases h.unseen hunseen hlim with hunseen | hterm
    · exact .inr ⟨hunseen, h.limited_mono hlim⟩
    · exact .inl hterm

lemma SelectorCase.not_triggers (hbarred : Barred key s) : ¬ label.Triggers key := by
  intro htriggers
  obtain ⟨hfresh, -, hterminates, -⟩ := h.of_triggers htriggers
  rcases hbarred with hterm | ⟨hunseen, hlim⟩
  · rw [hfresh] at hterm
    cases hterm
  · cases h with
    | apply hadmn _ =>
      -- the branch refuses the identity, and a cand is taken up
      obtain ⟨rfl, -, rfl⟩ := hterminates
      rw [admission_of_limited hunseen hlim] at hadmn
      cases hadmn
    | _ => cases htriggers

end

lemma never_triggers {labels : List SelectionLabel} (hrun : (selector activation).Run s labels t)
    (hbarred : Barred key s) : ∀ label ∈ labels, ¬ label.Triggers key :=
  hrun.never (P := fun label => label.Triggers key)
    (fun _ _ _ hstep => (selector_cases hstep).barred_mono)
    (fun _ _ _ hstep => (selector_cases hstep).not_triggers) hbarred

/-! ### Runs -/

/-- **One trigger per identity.**  In every run an identity triggers at most
once; never, if the first of its terminal observations that was taken up is
historical; and never after a removal that changed the source state. -/
theorem one_trigger_per_identity {labels : List SelectionLabel}
    (hrun : (selector activation).Run {} labels s) (key : ResultKey) :
    labels.Pairwise (fun label label' => label.Triggers key → ¬ label'.Triggers key) ∧
      (∀ (before after : List SelectionLabel) (label : SelectionLabel),
        labels = before ++ label :: after → label.Terminates key →
        (∀ label' ∈ before, ¬ label'.Terminates key) → label.Historical activation →
        ∀ label' ∈ labels, ¬ label'.Triggers key) ∧
      ∀ (before after : List SelectionLabel) (label : SelectionLabel),
        labels = before ++ label :: after → label.Removes key →
        ∀ label' ∈ after, ¬ label'.Triggers key := by
  refine ⟨?_, ?_, ?_⟩
  · exact hrun.at_most_once (D := Barred key) (P := fun label => label.Triggers key)
      (fun _ _ _ hstep htriggers => .inl ((selector_cases hstep).of_triggers htriggers).2.1)
      (fun _ _ _ hstep => (selector_cases hstep).barred_mono)
      (fun _ _ _ hstep => (selector_cases hstep).not_triggers)
  · intro before after label hlabels hterminates hfirst hhistorical label' hlabel'
    rw [hlabels] at hrun hlabel'
    obtain ⟨u, hbefore, hrest⟩ := hrun.of_append
    obtain ⟨v, hstep, hafter⟩ := hrest.of_cons
    have hcase := selector_cases hstep
    rcases List.mem_append.mp hlabel' with hmem | hmem
    · -- a candidate before would be an earlier terminal observation
      intro htriggers
      obtain ⟨first, second, rfl⟩ := List.append_of_mem hmem
      obtain ⟨w, -, hrest⟩ := hbefore.of_append
      obtain ⟨x, hstep', -⟩ := hrest.of_cons
      exact hfirst label' hmem ((selector_cases hstep').of_triggers htriggers).2.2.1
    · rcases List.mem_cons.mp hmem with rfl | hmem
      · exact fun htriggers => (hcase.of_triggers htriggers).2.2.2 hhistorical
      · exact never_triggers hafter (.inl (hcase.terminal_of_terminates hterminates)) label' hmem
  · intro before after label hlabels hremoves
    rw [hlabels] at hrun
    obtain ⟨u, -, hrest⟩ := hrun.of_append
    obtain ⟨v, hstep, hafter⟩ := hrest.of_cons
    exact never_triggers hafter ((selector_cases hstep).barred_of_removes hremoves)

end Runs

/-- A pending update, then a terminal one from before the activation under an
older revision, then a terminal one under a newer revision. -/
def staleHistory : List SelectionOp :=
  [.apply "x" 5 (mainObservation .other 1), .apply "x" 3 (mainObservation (userMessage "x") 0),
    .apply "x" 6 (mainObservation (userMessage "x") 2)]

/-- The first terminal observation is historical and refused; the identity triggers. -/
def lastHasCandidate : List SelectionLabel → Bool
  | [_, _, (_, .applied _ outcome)] => outcome.candidate?.isSome
  | _ => false

theorem triggers_after_stale_history :
    ∃ (pending stale final : SelectionLabel) (s : SelectionState),
      [pending, stale, final].map Prod.fst = staleHistory ∧
      (@selector asciiPlatform (userMessageActivation 1 (by decide) (by decide))).Run {}
        [pending, stale, final] s ∧
      ¬ pending.Observes ⟨"main", "x"⟩ ∧ stale.Observes ⟨"main", "x"⟩ ∧
      stale.Historical (userMessageActivation 1 (by decide) (by decide)) ∧
      final.Triggers ⟨"main", "x"⟩ := by
  obtain ⟨labels, s, hrun, hops, hfinal⟩ := @SelectionOp.exists_run asciiPlatform
    (userMessageActivation 1 (by decide) (by decide)) staleHistory {}
    (fun result => lastHasCandidate result.1) (by decide)
  obtain ⟨pending, stale, final, rfl⟩ : ∃ pending stale final, labels = [pending, stale, final] := by
    have hlength : labels.length = 3 := by
      rw [← List.length_map, hops]
      rfl
    exact List.length_eq_three.mp hlength
  obtain ⟨op₁, result₁⟩ := pending
  obtain ⟨op₂, result₂⟩ := stale
  obtain ⟨op₃, result₃⟩ := final
  refine ⟨_, _, _, s, hops, hrun, ?_⟩
  cases hops
  refine ⟨?_, ⟨rfl, rfl⟩, ?_, ?_⟩
  · rintro ⟨-, hkind⟩
    cases hkind
  · show isHistorical _ (mainObservation (userMessage "x") 0) = true
    decide
  · cases result₃ with
    | applied admission outcome => exact ⟨rfl, hfinal⟩
    | _ => cases hfinal

theorem one_trigger_per_identity_staleHistory :
    ∃ labels : List SelectionLabel, labels.map Prod.fst = staleHistory ∧
      labels.Pairwise fun label label' =>
        label.Triggers ⟨"main", "x"⟩ → ¬ label'.Triggers ⟨"main", "x"⟩ := by
  obtain ⟨labels, s, hrun, hops, -⟩ := @SelectionOp.exists_run asciiPlatform
    (userMessageActivation 1 (by decide) (by decide)) staleHistory {} (fun _ => true)
    (by decide)
  exact ⟨labels, hops, (@one_trigger_per_identity asciiPlatform
    (userMessageActivation 1 (by decide) (by decide)) s labels hrun ⟨"main", "x"⟩).1⟩

end Antiburn
