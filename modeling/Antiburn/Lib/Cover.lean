/-
Time covered by marks that each last for a while.

Every mark of a list covers the integers from itself up to a fixed width behind
it.  The number of covered integers is a property of the set of marks, and for
sorted marks it is a sum over neighbours:

* `card_cover` — the gaps, each clamped to the width, and the width of the last
  mark;
* `card_cover_below` — the same for the marks up to one of them, which count what
  is covered before it.

Intervals that stand apart measure a set by parts (`sum_le_card`, `card_le_sum`).
-/
import Mathlib

namespace Cover

open Finset

/-! ### Marks -/

noncomputable def cover (width : ℤ) (marks : List ℤ) : Finset ℤ :=
  marks.toFinset.biUnion fun t => Ico t (t + width)

def clampedGaps (width : ℤ) : List ℤ → ℤ
  | a :: b :: rest => min (b - a) width + clampedGaps width (b :: rest)
  | _ => 0

variable {width : ℤ}

@[simp] lemma mem_cover {marks : List ℤ} {x : ℤ} :
    x ∈ cover width marks ↔ ∃ t ∈ marks, t ≤ x ∧ x < t + width := by
  simp [cover]

lemma cover_congr {marks marks' : List ℤ} (h : ∀ t, t ∈ marks ↔ t ∈ marks') :
    cover width marks = cover width marks' := by
  ext x
  simp only [mem_cover, h]

lemma cover_subset {marks marks' : List ℤ} (h : marks ⊆ marks') :
    cover width marks ⊆ cover width marks' := by
  intro x hx
  obtain ⟨t, ht, hbounds⟩ := mem_cover.mp hx
  exact mem_cover.mpr ⟨t, h ht, hbounds⟩

lemma card_cover_cons {a b : ℤ} {rest : List ℤ} (hab : a ≤ b) (hrest : ∀ t ∈ rest, b ≤ t)
    (hwidth : 0 ≤ width) :
    ((cover width (a :: b :: rest)).card : ℤ) =
      min (b - a) width + (cover width (b :: rest)).card := by
  have hsplit : cover width (a :: b :: rest) =
      Ico a (min b (a + width)) ∪ cover width (b :: rest) := by
    ext x
    simp only [mem_union, mem_cover, mem_Ico, List.mem_cons]
    constructor
    · rintro ⟨t, rfl | ht, hle, hlt⟩
      · -- behind the second mark, that mark covers as much
        by_cases hx : x < b
        · exact .inl ⟨hle, lt_min hx hlt⟩
        · exact .inr ⟨b, .inl rfl, by omega, by omega⟩
      · exact .inr ⟨t, ht, hle, hlt⟩
    · rintro (⟨hle, hlt⟩ | ⟨t, ht, hle, hlt⟩)
      · exact ⟨a, .inl rfl, hle, lt_of_lt_of_le hlt (min_le_right _ _)⟩
      · exact ⟨t, .inr ht, hle, hlt⟩
  have hdisj : Disjoint (Ico a (min b (a + width))) (cover width (b :: rest)) := by
    rw [Finset.disjoint_left]
    intro x hx hcover
    obtain ⟨t, ht, hle, -⟩ := mem_cover.mp hcover
    have hxb : x < b := lt_of_lt_of_le (mem_Ico.mp hx).2 (min_le_left _ _)
    rcases List.mem_cons.mp ht with rfl | ht
    · omega
    · have := hrest t ht
      omega
  rw [hsplit, card_union_of_disjoint hdisj, Int.card_Ico]
  omega

lemma card_cover (hwidth : 0 ≤ width) : ∀ {marks : List ℤ}, marks.Pairwise (· ≤ ·) →
    marks ≠ [] → ((cover width marks).card : ℤ) = clampedGaps width marks + width
  | [a], _, _ => by
    have hsingle : cover width [a] = Ico a (a + width) := by
      ext x
      simp
    have hgaps : clampedGaps width [a] = 0 := rfl
    rw [hsingle, Int.card_Ico, hgaps]
    omega
  | a :: b :: rest, h, _ => by
    obtain ⟨ha, hrest⟩ := List.pairwise_cons.mp h
    have ih := card_cover hwidth hrest (List.cons_ne_nil _ _)
    rw [card_cover_cons (ha b List.mem_cons_self) (List.pairwise_cons.mp hrest).1 hwidth, ih,
      clampedGaps]
    omega

lemma card_cover_below (hwidth : 0 ≤ width) {marks sorted : List ℤ} {t : ℤ} (ht : t ∈ marks)
    (hsorted : sorted.Pairwise (· ≤ ·)) (hmem : ∀ x, x ∈ sorted ↔ x ∈ marks ∧ x ≤ t) :
    ((cover width marks).filter (· < t)).card = clampedGaps width sorted := by
  have htsorted : t ∈ sorted := (hmem t).mpr ⟨ht, le_refl t⟩
  have hsplit : cover width sorted = (cover width marks).filter (· < t) ∪ Ico t (t + width) := by
    ext x
    simp only [mem_union, mem_filter, mem_cover, mem_Ico, hmem]
    constructor
    · rintro ⟨s, ⟨hs, hst⟩, hle, hlt⟩
      by_cases hx : x < t
      · exact .inl ⟨⟨s, hs, hle, hlt⟩, hx⟩
      · exact .inr ⟨by omega, by omega⟩
    · rintro (⟨⟨s, hs, hle, hlt⟩, hx⟩ | ⟨hle, hlt⟩)
      · exact ⟨s, ⟨hs, by omega⟩, hle, hlt⟩
      · exact ⟨t, ⟨ht, le_refl t⟩, hle, hlt⟩
  have hdisj : Disjoint ((cover width marks).filter (· < t)) (Ico t (t + width)) := by
    rw [Finset.disjoint_left]
    intro x hx hIco
    have := (mem_filter.mp hx).2
    have := (mem_Ico.mp hIco).1
    omega
  have hcard := card_cover hwidth hsorted (List.ne_nil_of_mem htsorted)
  rw [hsplit, card_union_of_disjoint hdisj, Int.card_Ico] at hcard
  omega

/-! ### Intervals that stand apart -/

section Apart

variable {α : Type*} {lo hi : α → ℤ}

lemma sum_le_card {weight : α → ℤ} {l : List α} (hapart : l.Pairwise fun a b => hi a ≤ lo b)
    (S : Finset ℤ) (h : ∀ a ∈ l, weight a ≤ (S.filter fun x => lo a ≤ x ∧ x < hi a).card) :
    (l.map weight).sum ≤ S.card := by
  induction l generalizing S with
  | nil => simp
  | cons a l ih =>
    obtain ⟨ha, hrest⟩ := List.pairwise_cons.mp hapart
    have hl : (l.map weight).sum ≤ (S.filter fun x => ¬(lo a ≤ x ∧ x < hi a)).card := by
      refine ih hrest _ fun b hb => ?_
      refine (h b (List.mem_cons_of_mem _ hb)).trans (Int.ofNat_le.mpr (card_le_card ?_))
      intro x hx
      obtain ⟨hS, hlo, hhi⟩ := mem_filter.mp hx
      have := ha b hb
      exact mem_filter.mpr ⟨mem_filter.mpr ⟨hS, by omega⟩, hlo, hhi⟩
    have hsplit := card_filter_add_card_filter_not (s := S) (fun x => lo a ≤ x ∧ x < hi a)
    have hhead := h a List.mem_cons_self
    rw [List.map_cons, List.sum_cons]
    omega

lemma card_le_sum {l : List α} (hle : ∀ a ∈ l, lo a ≤ hi a) (S : Finset ℤ)
    (h : ∀ x ∈ S, ∃ a ∈ l, lo a ≤ x ∧ x < hi a) :
    (S.card : ℤ) ≤ (l.map fun a => hi a - lo a).sum := by
  induction l generalizing S with
  | nil =>
    have hempty : S = ∅ := by
      rw [eq_empty_iff_forall_notMem]
      intro x hx
      obtain ⟨a, ha, -⟩ := h x hx
      cases ha
    rw [hempty]
    simp
  | cons a l ih =>
    have hrest := ih (fun b hb => hle b (List.mem_cons_of_mem _ hb))
      (S.filter fun x => ¬(lo a ≤ x ∧ x < hi a)) (by
        intro x hx
        obtain ⟨hS, hout⟩ := mem_filter.mp hx
        obtain ⟨b, hb, hin⟩ := h x hS
        rcases List.mem_cons.mp hb with rfl | hb
        · exact absurd hin hout
        · exact ⟨b, hb, hin⟩)
    have hhead : (S.filter fun x => lo a ≤ x ∧ x < hi a).card ≤ (Ico (lo a) (hi a)).card := by
      refine card_le_card fun x hx => ?_
      exact mem_Ico.mpr (mem_filter.mp hx).2
    have hsplit := card_filter_add_card_filter_not (s := S) (fun x => lo a ≤ x ∧ x < hi a)
    have ha := hle a List.mem_cons_self
    rw [Int.card_Ico] at hhead
    rw [List.map_cons, List.sum_cons]
    omega

end Apart

end Cover
