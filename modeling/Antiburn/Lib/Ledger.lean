/-
Computations over a state that only moves up.

A `Ledger σ ε α` is a function `σ → Except ε α × σ` bundled with the proof
that no run of it lowers the state, in an order the client picks.  Sequencing
keeps the bundle, so a program assembled from such computations needs no
separate induction to know that its final state dominates every earlier one.
A failing computation still returns its state, as code that holds `&mut` does.
-/
import Mathlib

namespace Antiburn

universe u v w

variable {σ : Type w} [Preorder σ] {ε : Type v} {α β γ δ : Type u}

structure Ledger (σ : Type w) [Preorder σ] (ε : Type v) (α : Type u) where
  /-- Result and final state from a given state. -/
  run : σ → Except ε α × σ
  /-- No run lowers the state. -/
  le_run : ∀ s, s ≤ (run s).2

namespace Ledger

/-- Return without touching the state. -/
def pure (a : α) : Ledger σ ε α where
  run s := (.ok a, s)
  le_run _ := le_rfl

def fail (e : ε) : Ledger σ ε α where
  run s := (.error e, s)
  le_run _ := le_rfl

/-- Sequence two computations; a failure stops the run where it is. -/
def bind (x : Ledger σ ε α) (f : α → Ledger σ ε β) : Ledger σ ε β where
  run s := match x.run s with
    | (.ok a, s') => (f a).run s'
    | (.error e, s') => (.error e, s')
  le_run s := by
    have hx := x.le_run s
    rcases h : x.run s with ⟨_ | a, s'⟩
    · simpa [h] using hx
    · rw [h] at hx
      exact le_trans hx ((f a).le_run s')

instance : Monad (Ledger σ ε) where
  pure := Ledger.pure
  bind := Ledger.bind

lemma run_bind (x : Ledger σ ε α) (f : α → Ledger σ ε β) (s : σ) :
    (x >>= f).run s = match x.run s with
      | (.ok a, s') => (f a).run s'
      | (.error e, s') => (.error e, s') := rfl

section

variable {x : Ledger σ ε α} {f : α → Ledger σ ε β}

lemma run_bind_ok {s s' : σ} {a : α}
    (h : x.run s = (.ok a, s')) : (x >>= f).run s = (f a).run s' := by
  rw [run_bind, h]

lemma run_bind_error {s s' : σ} {e : ε}
    (h : x.run s = (.error e, s')) : (x >>= f).run s = (.error e, s') := by
  rw [run_bind, h]

lemma run_bind_eq_ok {s t : σ} {b : β}
    (h : (x >>= f).run s = (.ok b, t)) :
    ∃ a s', x.run s = (.ok a, s') ∧ (f a).run s' = (.ok b, t) := by
  rw [run_bind] at h
  rcases hx : x.run s with ⟨_ | a, s'⟩
  · rw [hx] at h; cases h
  · rw [hx] at h; exact ⟨a, s', rfl, h⟩

end

/-! ### What a computation returns -/

/-- Some run of the computation returns the value. -/
def Returns (x : Ledger σ ε α) (a : α) : Prop := ∃ s t, x.run s = (.ok a, t)

lemma Returns.of_pure {a b : α} (h : Returns (Pure.pure a : Ledger σ ε α) b) : b = a := by
  obtain ⟨s, t, h⟩ := h
  cases h
  rfl

lemma Returns.of_fail {e : ε} {a : α} (h : Returns (fail e : Ledger σ ε α) a) : False := by
  obtain ⟨s, t, h⟩ := h
  cases h

variable {x : Ledger σ ε α} {f : α → Ledger σ ε β}

lemma Returns.of_bind {b : β}
    (h : Returns (x >>= f) b) : ∃ a, Returns x a ∧ Returns (f a) b := by
  obtain ⟨s, t, h⟩ := h
  obtain ⟨a, s', hx, hf⟩ := run_bind_eq_ok h
  exact ⟨a, ⟨s, s', hx⟩, s', t, hf⟩

/-- Every value that the computation returns satisfies the postcondition. -/
def Ensures (x : Ledger σ ε α) (Post : α → Prop) : Prop := ∀ a, Returns x a → Post a

section Ensures

variable {Post : α → Prop} {PostB : β → Prop}

lemma Ensures.pure {a : α} (h : Post a) : Ensures (Pure.pure a : Ledger σ ε α) Post := by
  intro b hb
  rw [hb.of_pure]
  exact h

lemma Ensures.fail {e : ε} : Ensures (Ledger.fail e : Ledger σ ε α) Post := fun _ h => h.of_fail.elim

/-- **Sequencing rule** for postconditions. -/
lemma Ensures.bind {Mid : α → Prop}
    (hx : Ensures x Mid) (hf : ∀ a, Mid a → Ensures (f a) PostB) : Ensures (x >>= f) PostB := by
  intro b hb
  obtain ⟨a, ha, hb⟩ := hb.of_bind
  exact hf a (hx a ha) b hb

lemma Ensures.of_last (hf : ∀ a, Ensures (f a) PostB) : Ensures (x >>= f) PostB :=
  Ensures.bind (fun _ _ => trivial) fun a (_ : True) => hf a

end Ensures

/-- Every run keeps `Inv`; one that returns keeps `Live`, so it was not cut off, and returns
a value with `Post`; one that fails does so with no error that is bad where it started. -/
structure Keeps (Inv Live : σ → Prop) (Bad : σ → ε → Prop) (x : Ledger σ ε α)
    (Post : α → Prop) : Prop where
  inv : ∀ s, Inv s → Inv (x.run s).2
  live : ∀ s, Live s → ∀ a, (x.run s).1 = .ok a → Live (x.run s).2
  ensures : Ensures x Post
  errors : ∀ s e, (x.run s).1 = .error e → ¬Bad s e

section Keeps

variable {Inv Live : σ → Prop} {Bad : σ → ε → Prop} {Post : α → Prop} {PostB : β → Prop}

lemma Keeps.pure {a : α} (h : Post a) :
    Keeps Inv Live Bad (Pure.pure a : Ledger σ ε α) Post :=
  ⟨fun _ h => h, fun _ h _ _ => h, Ensures.pure h, fun _ _ he => by cases he⟩

lemma Keeps.fail {e : ε} (h : ∀ s, ¬Bad s e) :
    Keeps Inv Live Bad (Ledger.fail e : Ledger σ ε α) Post :=
  ⟨fun _ h => h, fun _ _ _ ha => (by cases ha), Ensures.fail,
    fun s _ he => by cases he; exact h s⟩

/-- **Sequencing rule**: the second half starts where the first one returned, and what is bad
at the start is bad there. -/
lemma Keeps.bind (hBad : ∀ s t e, s ≤ t → Bad s e → Bad t e)
    (hx : Keeps Inv Live Bad x Post) (hf : ∀ a, Post a → Keeps Inv Live Bad (f a) PostB) :
    Keeps Inv Live Bad (x >>= f) PostB := by
  refine ⟨fun s hs => ?_, fun s hs b hb => ?_,
    hx.ensures.bind fun a ha => (hf a ha).ensures, fun s e' he => ?_⟩
  · have hinv := hx.inv s hs
    rw [run_bind]
    rcases h : x.run s with ⟨e | a, t⟩
    · rw [h] at hinv
      exact hinv
    · rw [h] at hinv
      exact (hf a (hx.ensures a ⟨s, t, h⟩)).inv t hinv
  · have hlive := hx.live s hs
    rw [run_bind] at hb ⊢
    rcases h : x.run s with ⟨e | a, t⟩
    · rw [h] at hb
      cases hb
    · rw [h] at hb hlive
      exact (hf a (hx.ensures a ⟨s, t, h⟩)).live t (hlive a rfl) b hb
  · have hle := x.le_run s
    rw [run_bind] at he
    rcases h : x.run s with ⟨e | a, t⟩
    · rw [h] at he
      cases he
      exact hx.errors s _ (congrArg Prod.fst h)
    · rw [h] at he hle
      exact fun hbad => (hf a (hx.ensures a ⟨s, t, h⟩)).errors t e' he (hBad s t e' hle hbad)

end Keeps

/-! ### Two runs side by side -/

/-- Outcomes of two runs that agree up to `Post` on results and `Err` on errors. -/
def OutcomesRelated {ε' : Type v} (Post : α → β → Prop) (Err : ε → ε' → Prop) :
    Except ε α → Except ε' β → Prop
  | .ok a, .ok b => Post a b
  | .error e, .error e' => Err e e'
  | _, _ => False

/-- From `Q`-related states, the two runs end `Q`-related with related
outcomes, or one of them has escaped. -/
def Coupled (Q : σ → σ → Prop) (Esc : σ → Prop) (Post : α → β → Prop)
    (x : Ledger σ ε α) (y : Ledger σ ε β) : Prop :=
  ∀ s t, Q s t →
    Esc (x.run s).2 ∨ Esc (y.run t).2 ∨
      (Q (x.run s).2 (y.run t).2 ∧ OutcomesRelated Post Eq (x.run s).1 (y.run t).1)

section Coupled

variable {Q : σ → σ → Prop} {Esc : σ → Prop}
variable {Post Post' : α → β → Prop} {PostB : γ → δ → Prop}

lemma Coupled.pure {a : α} {b : β} (h : Post a b) :
    Coupled Q Esc Post (Pure.pure a : Ledger σ ε α) (Pure.pure b) :=
  fun _ _ hQ => .inr (.inr ⟨hQ, h⟩)

lemma Coupled.fail (e : ε) :
    Coupled Q Esc Post (Ledger.fail e : Ledger σ ε α) (Ledger.fail e : Ledger σ ε β) :=
  fun _ _ hQ => .inr (.inr ⟨hQ, rfl⟩)

lemma Coupled.mono {y : Ledger σ ε β}
    (h : Coupled Q Esc Post x y) (hpost : ∀ a b, Post a b → Post' a b) :
    Coupled Q Esc Post' x y := by
  intro s t hQ
  rcases h s t hQ with hx | hy | ⟨hQ', hout⟩
  · exact .inl hx
  · exact .inr (.inl hy)
  · refine .inr (.inr ⟨hQ', ?_⟩)
    rcases hx : (x.run s).1 with e | a <;> rcases hy : (y.run t).1 with e' | b <;>
      rw [hx, hy] at hout
    · exact hout
    · exact hout.elim
    · exact hout.elim
    · exact hpost _ _ hout

/-- **Sequencing rule.**  An escape in the first halves survives to the end
because escape states are closed under `≤`. -/
lemma Coupled.bind (hEsc : ∀ s t : σ, s ≤ t → Esc s → Esc t) {y : Ledger σ ε β} {f : α → Ledger σ ε γ} {g : β → Ledger σ ε δ}
    (hxy : Coupled Q Esc Post x y)
    (hfg : ∀ a b, Post a b → Coupled Q Esc PostB (f a) (g b)) :
    Coupled Q Esc PostB (x >>= f) (y >>= g) := by
  intro s t hQ
  have final_x : ∀ s', (x.run s).2 = s' → s' ≤ ((x >>= f).run s).2 := by
    rintro s' rfl
    rw [run_bind]
    rcases h : x.run s with ⟨_ | a, u⟩
    · exact le_rfl
    · exact (f a).le_run u
  have final_y : ∀ t', (y.run t).2 = t' → t' ≤ ((y >>= g).run t).2 := by
    rintro t' rfl
    rw [run_bind]
    rcases h : y.run t with ⟨_ | b, u⟩
    · exact le_rfl
    · exact (g b).le_run u
  rcases hxy s t hQ with hx | hy | ⟨hQ', hout⟩
  · exact .inl (hEsc _ _ (final_x _ rfl) hx)
  · exact .inr (.inl (hEsc _ _ (final_y _ rfl) hy))
  · rw [run_bind, run_bind]
    rcases hx : x.run s with ⟨e | a, s'⟩ <;> rcases hy : y.run t with ⟨e' | b, t'⟩ <;>
      rw [hx, hy] at hout hQ'
    · exact .inr (.inr ⟨hQ', hout⟩)
    · exact hout.elim
    · exact hout.elim
    · exact hfg a b hout s' t' hQ'

end Coupled

end Ledger

end Antiburn
