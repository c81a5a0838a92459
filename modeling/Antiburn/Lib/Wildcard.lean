/-
Patterns of wildcards, and the row of reachable prefixes that decides them.

A pattern is a list of tokens.  A wild token takes any run of letters, every other
token takes one letter that it accepts.  The decision keeps one row: whether the
pattern so far takes the first `i` letters, for each `i`.
-/
import Mathlib

namespace Wildcard

variable {τ α : Type} (wild : τ → Bool) (accepts : τ → α → Bool)

/-! ### What a pattern takes -/

inductive Takes : List τ → List α → Prop
  | nil : Takes [] []
  | run {token : τ} {tokens : List τ} (skipped : List α) {rest : List α}
      (hwild : wild token = true) (h : Takes tokens rest) :
      Takes (token :: tokens) (skipped ++ rest)
  | letter {token : τ} {tokens : List τ} {a : α} {rest : List α} (hwild : wild token = false)
      (haccepts : accepts token a = true) (h : Takes tokens rest) :
      Takes (token :: tokens) (a :: rest)

variable {wild accepts}

lemma Takes.append {tokens tokens' : List τ} {before after : List α}
    (h : Takes wild accepts tokens before) (h' : Takes wild accepts tokens' after) :
    Takes wild accepts (tokens ++ tokens') (before ++ after) := by
  induction h with
  | nil => exact h'
  | run skipped hwild _ ih =>
    rw [List.cons_append, List.append_assoc]
    exact .run skipped hwild ih
  | letter hwild haccepts _ ih => exact .letter hwild haccepts ih

variable {letters : List α}

lemma takes_append {tokens tokens' : List τ} :
    Takes wild accepts (tokens ++ tokens') letters ↔
      ∃ before after, letters = before ++ after ∧ Takes wild accepts tokens before ∧
        Takes wild accepts tokens' after := by
  constructor
  · intro h
    induction tokens generalizing letters with
    | nil => exact ⟨[], letters, rfl, .nil, h⟩
    | cons token tokens ih =>
      cases h with
      | run skipped hwild h =>
        obtain ⟨before, after, rfl, hbefore, hafter⟩ := ih h
        exact ⟨skipped ++ before, after, (List.append_assoc ..).symm, .run skipped hwild hbefore,
          hafter⟩
      | letter hwild haccepts h =>
        obtain ⟨before, after, rfl, hbefore, hafter⟩ := ih h
        exact ⟨_ :: before, after, rfl, .letter hwild haccepts hbefore, hafter⟩
  · rintro ⟨before, after, rfl, hbefore, hafter⟩
    exact hbefore.append hafter

lemma takes_nil : Takes wild accepts [] letters ↔ letters = [] := by
  constructor
  · intro h
    cases h
    rfl
  · rintro rfl
    exact .nil

lemma takes_wild {token : τ} (hwild : wild token = true) (letters : List α) :
    Takes wild accepts [token] letters := by
  rw [← List.append_nil letters]
  exact .run letters hwild .nil

lemma takes_letter {token : τ} (hwild : wild token = false) :
    Takes wild accepts [token] letters ↔ ∃ a, letters = [a] ∧ accepts token a = true := by
  constructor
  · intro h
    cases h with
    | run skipped hrun _ => rw [hwild] at hrun; cases hrun
    | letter _ haccepts h =>
      rw [takes_nil] at h
      exact ⟨_, by rw [h], haccepts⟩
  · rintro ⟨a, rfl, haccepts⟩
    exact .letter hwild haccepts .nil

lemma takes_snoc_wild {tokens : List τ} {token : τ} (hwild : wild token = true) :
    Takes wild accepts (tokens ++ [token]) letters ↔
      ∃ j ≤ letters.length, Takes wild accepts tokens (letters.take j) := by
  rw [takes_append]
  constructor
  · rintro ⟨before, after, rfl, hbefore, -⟩
    refine ⟨before.length, ?_, ?_⟩
    · rw [List.length_append]
      exact Nat.le_add_right _ _
    · rwa [List.take_left]
  · rintro ⟨j, -, h⟩
    exact ⟨letters.take j, letters.drop j, (List.take_append_drop j letters).symm, h,
      takes_wild hwild _⟩

lemma takes_snoc_letter {tokens : List τ} {token : τ} (hwild : wild token = false) :
    Takes wild accepts (tokens ++ [token]) letters ↔
      ∃ before a, letters = before ++ [a] ∧ Takes wild accepts tokens before ∧
        accepts token a = true := by
  rw [takes_append]
  constructor
  · rintro ⟨before, after, rfl, hbefore, hafter⟩
    obtain ⟨a, rfl, haccepts⟩ := (takes_letter hwild).mp hafter
    exact ⟨before, a, rfl, hbefore, haccepts⟩
  · rintro ⟨before, a, rfl, hbefore, haccepts⟩
    exact ⟨before, [a], rfl, hbefore, (takes_letter hwild).mpr ⟨a, rfl, haccepts⟩⟩

/-! ### Rows -/

/-- Carries every reached place to all later ones. -/
def spread (row : List Bool) : List Bool :=
  (row.foldl (fun (acc : List Bool × Bool) here =>
    let here := here || acc.2
    (acc.1 ++ [here], here)) ([], false)).1

/-- The same from a place on; `seen` says that an earlier one is reached. -/
def spreadFrom (seen : Bool) : List Bool → List Bool
  | [] => []
  | here :: rest => (here || seen) :: spreadFrom (here || seen) rest

@[simp] lemma spreadFrom_cons (seen here : Bool) (rest : List Bool) :
    spreadFrom seen (here :: rest) = (here || seen) :: spreadFrom (here || seen) rest := rfl

lemma spread_eq (row : List Bool) : spread row = spreadFrom false row := by
  have hfold : ∀ (row done : List Bool) (seen : Bool),
      (row.foldl (fun (acc : List Bool × Bool) here =>
        let here := here || acc.2
        (acc.1 ++ [here], here)) (done, seen)).1 = done ++ spreadFrom seen row := by
    intro row
    induction row with
    | nil => exact fun done _ => (List.append_nil done).symm
    | cons here rest ih => intro done seen; simp [ih]
  exact hfold row [] false

lemma length_spreadFrom (seen : Bool) (row : List Bool) :
    (spreadFrom seen row).length = row.length := by
  induction row generalizing seen with
  | nil => rfl
  | cons here rest ih => simp [ih]

lemma getElem?_spreadFrom {seen : Bool} {row : List Bool} {i : Nat} (hi : i < row.length) :
    (spreadFrom seen row)[i]? = some true ↔ seen = true ∨ ∃ j ≤ i, row[j]? = some true := by
  induction row generalizing seen i with
  | nil => cases hi
  | cons here rest ih =>
    cases i with
    | zero => cases here <;> cases seen <;> simp
    | succ i =>
      have hrest : i < rest.length := by simpa using hi
      rw [spreadFrom_cons, List.getElem?_cons_succ, ih hrest]
      constructor
      · rintro (h | ⟨j, hj, h⟩)
        · rcases Bool.or_eq_true_iff.mp h with h | h
          · exact .inr ⟨0, Nat.zero_le _, by simp [h]⟩
          · exact .inl h
        · exact .inr ⟨j + 1, Nat.succ_le_succ hj, by simpa using h⟩
      · rintro (h | ⟨j, hj, h⟩)
        · exact .inl (by simp [h])
        · cases j with
          | zero => exact .inl (by simp at h; simp [h])
          | succ j => exact .inr ⟨j, Nat.le_of_succ_le_succ hj, by simpa using h⟩

variable (wild accepts)

def rowStep (letters : List α) (token : τ) (row : List Bool) : List Bool :=
  if wild token then spread row
  else false :: (row.zip letters).map fun (here, a) => here && accepts token a

structure Row (tokens : List τ) (letters : List α) (row : List Bool) : Prop where
  length : row.length = letters.length + 1
  reaches : ∀ i ≤ letters.length, row[i]? = some true ↔ Takes wild accepts tokens (letters.take i)

variable {wild accepts} {tokens : List τ} {letters : List α} {row : List Bool} {token : τ}

lemma row_nil (letters : List α) :
    Row wild accepts [] letters (true :: letters.map fun _ => false) := by
  refine ⟨by simp, fun i hi => ?_⟩
  rw [takes_nil]
  cases i with
  | zero => simp
  | succ i =>
    have hlen : i < letters.length := hi
    have hne : letters ≠ [] := List.ne_nil_of_length_pos (Nat.zero_lt_of_lt hlen)
    simp [hlen, hne]

section

variable (h : Row wild accepts tokens letters row)
include h

lemma row_wild (hwild : wild token = true) :
    Row wild accepts (tokens ++ [token]) letters (spread row) := by
  rw [spread_eq]
  refine ⟨(length_spreadFrom _ _).trans h.length, fun i hi => ?_⟩
  have hrow : i < row.length := by rw [h.length]; exact Nat.lt_succ_of_le hi
  have hlen : (letters.take i).length = i := by rw [List.length_take, Nat.min_eq_left hi]
  rw [getElem?_spreadFrom hrow, takes_snoc_wild hwild, hlen]
  constructor
  · rintro (hfalse | ⟨j, hj, htrue⟩)
    · cases hfalse
    · refine ⟨j, hj, ?_⟩
      rw [List.take_take, Nat.min_eq_left hj]
      exact (h.reaches j (Nat.le_trans hj hi)).mp htrue
  · rintro ⟨j, hj, htakes⟩
    rw [List.take_take, Nat.min_eq_left hj] at htakes
    exact .inr ⟨j, hj, (h.reaches j (Nat.le_trans hj hi)).mpr htakes⟩

lemma row_letter (hwild : wild token = false) :
    Row wild accepts (tokens ++ [token]) letters
      (false :: (row.zip letters).map fun (here, a) => here && accepts token a) := by
  have hlen := h.length
  refine ⟨?_, fun i hi => ?_⟩
  · rw [List.length_cons, List.length_map, List.length_zip, hlen]
    omega
  rw [takes_snoc_letter hwild]
  cases i with
  | zero => simp
  | succ i =>
    -- the last letter of the prefix is the letter before the place
    have hletter : i < letters.length := hi
    have hrow : i < row.length := by omega
    have htake : letters.take (i + 1) = letters.take i ++ [letters[i]] :=
      List.take_succ_eq_append_getElem hletter
    have hreac := h.reaches i (Nat.le_of_lt hletter)
    rw [List.getElem?_eq_getElem hrow] at hreac
    have hplace : (false :: (row.zip letters).map fun (here, a) => here && accepts token a)[i + 1]? =
        some (row[i] && accepts token letters[i]) := by
      have hzip : (row.zip letters)[i]? = some (row[i], letters[i]) := by
        rw [List.getElem?_eq_getElem (by rw [List.length_zip]; omega), List.getElem_zip]
      rw [List.getElem?_cons_succ, List.getElem?_map, hzip]
      rfl
    rw [hplace, htake, Option.some.injEq, Bool.and_eq_true]
    constructor
    · rintro ⟨hhere, haccepts⟩
      exact ⟨_, _, rfl, hreac.mp (congrArg some hhere), haccepts⟩
    · rintro ⟨before, a, hsplit, htakes, haccepts⟩
      obtain ⟨rfl, hlast⟩ := List.append_inj' hsplit rfl
      obtain rfl : letters[i] = a := List.singleton_inj.mp hlast
      exact ⟨Option.some.inj (hreac.mpr htakes), haccepts⟩

/-- **One token** makes the row of the longer pattern. -/
lemma row_step (token : τ) :
    Row wild accepts (tokens ++ [token]) letters (rowStep wild accepts letters token row) := by
  unfold rowStep
  cases hwild : wild token with
  | true => exact row_wild h hwild
  | false => exact row_letter h hwild

/-- **All tokens** make the row of the whole pattern. -/
lemma row_foldl (more : List τ) :
    Row wild accepts (tokens ++ more) letters
      (more.foldl (fun row token => rowStep wild accepts letters token row) row) := by
  induction more generalizing tokens row with
  | nil => rwa [List.append_nil]
  | cons token more ih =>
    have hstep := ih (row_step h token)
    rwa [List.append_assoc] at hstep

lemma Row.getLastD_eq_true :
    row.getLastD false = true ↔ Takes wild accepts tokens letters := by
  have hlast := h.reaches letters.length (Nat.le_refl _)
  rw [List.take_length] at hlast
  rw [← hlast, List.getLastD_eq_getLast?, List.getLast?_eq_getElem?, h.length, Nat.add_sub_cancel]
  cases row[letters.length]? with
  | none | some => simp

end

end Wildcard
