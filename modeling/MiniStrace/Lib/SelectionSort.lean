/-
  Lib/SelectionSort.lean --- selection sort by swapping, largest key first.

  THE LOOPS.  Round `i` looks for the first largest key from position `i` on and swaps
  the element found with the one at `i`.  The rounds for all positions but the last sort
  the list.

  THE INVARIANT.  After `i` rounds, each of the first `i` positions holds a key that is
  not smaller than any behind it.  A round only permutes the positions from `i` on, so
  it keeps what the rounds before it have settled.
-/
import Mathlib

set_option autoImplicit false

namespace CLib

section SelectionSort

variable {α β : Type} [LinearOrder β] (key : α → β)

/-- The key at position `a` is smaller than the one at `b`. -/
def keyLt (xs : List α) (a b : Nat) : Bool :=
  match xs[a]?, xs[b]? with
  | some x, some y => decide (key x < key y)
  | _, _ => false

/-- The inner loop of round `i`: the position of the first largest key. -/
def maxIdx (xs : List α) (i : Nat) : Nat :=
  (List.range' (i + 1) (xs.length - (i + 1))).foldl
    (fun maxIdx j => if keyLt key xs maxIdx j then j else maxIdx) i

/-- Exchanges two elements. -/
def swapAt (xs : List α) (i j : Nat) : List α :=
  match xs[i]?, xs[j]? with
  | some x, some y => (xs.set i y).set j x
  | _, _ => xs

/-- Round `i`. -/
def sortRound (xs : List α) (i : Nat) : List α :=
  let m := maxIdx key xs i
  if m ≠ i then swapAt xs i m else xs

/-- All rounds. -/
def selectionSort (xs : List α) : List α := (List.range (xs.length - 1)).foldl (sortRound key) xs

/-! ## Swapping -/

theorem swapAt_eq {xs : List α} {i j : Nat} (hi : i < xs.length) (hj : j < xs.length) :
    swapAt xs i j = (xs.set i xs[j]).set j xs[i] := by
  simp only [swapAt, List.getElem?_eq_getElem hi, List.getElem?_eq_getElem hj]

theorem swapAt_perm {xs : List α} {i j : Nat} (hi : i < xs.length) (hj : j < xs.length) :
    (swapAt xs i j).Perm xs := by
  rw [swapAt_eq hi hj]
  exact List.set_set_perm hi hj

/-- Where the element at a position comes from. -/
theorem getElem_swapAt {xs : List α} {i j a : Nat} (hi : i < xs.length) (hj : j < xs.length)
    (ha : a < (swapAt xs i j).length) (ha' : a < xs.length) :
    (swapAt xs i j)[a] = if a = j then xs[i] else if a = i then xs[j] else xs[a] := by
  simp only [swapAt_eq hi hj, List.getElem_set, eq_comm (a := a)]

/-! ## The inner loop -/

/-- `m` holds the largest key from position `i` up to `n`. -/
def IsMaxUpTo (xs : List α) (i n m : Nat) : Prop :=
  i ≤ m ∧ ∃ hm : m < xs.length, ∀ j (hj : j < xs.length), i ≤ j → j < n → key xs[j] ≤ key xs[m]

theorem isMaxUpTo_step {xs : List α} {i n m : Nat} (h : IsMaxUpTo key xs i n m) (hin : i ≤ n)
    (hn : n < xs.length) :
    IsMaxUpTo key xs i (n + 1) (if keyLt key xs m n then n else m) := by
  obtain ⟨him, hm, hmax⟩ := h
  have hlt : keyLt key xs m n = decide (key xs[m] < key xs[n]) := by
    simp only [keyLt, List.getElem?_eq_getElem hm, List.getElem?_eq_getElem hn]
  rw [hlt]
  by_cases hbig : key xs[m] < key xs[n]
  · rw [decide_eq_true hbig, if_pos rfl]
    refine ⟨hin, hn, fun j hj hij hjn => ?_⟩
    rcases Nat.lt_succ_iff_lt_or_eq.mp hjn with hjn | rfl
    · exact le_trans (hmax j hj hij hjn) hbig.le
    · exact le_rfl
  · rw [decide_eq_false hbig, if_neg (by simp)]
    refine ⟨him, hm, fun j hj hij hjn => ?_⟩
    rcases Nat.lt_succ_iff_lt_or_eq.mp hjn with hjn | rfl
    · exact hmax j hj hij hjn
    · exact not_lt.mp hbig

theorem isMaxUpTo_foldl {xs : List α} {i : Nat} (k n m : Nat) (h : IsMaxUpTo key xs i n m)
    (hin : i ≤ n) (hk : n + k ≤ xs.length) :
    IsMaxUpTo key xs i (n + k)
      ((List.range' n k).foldl (fun maxIdx j => if keyLt key xs maxIdx j then j else maxIdx) m) := by
  induction k generalizing n m with
  | zero => exact h
  | succ k ih =>
      rw [List.range'_succ, List.foldl_cons, Nat.add_comm k 1, ← Nat.add_assoc]
      exact ih (n + 1) _ (isMaxUpTo_step key h hin (by omega)) (by omega) (by omega)

/-- The inner loop finds a largest key. -/
theorem maxIdx_spec {xs : List α} {i : Nat} (hi : i < xs.length) :
    IsMaxUpTo key xs i xs.length (maxIdx key xs i) := by
  have hone : IsMaxUpTo key xs i (i + 1) i := by
    refine ⟨le_rfl, hi, fun j hj hij hjn => ?_⟩
    obtain rfl : j = i := by omega
    exact le_rfl
  have h := isMaxUpTo_foldl key (xs.length - (i + 1)) (i + 1) i hone (by omega) (by omega)
  rwa [show i + 1 + (xs.length - (i + 1)) = xs.length by omega] at h

/-! ## The rounds -/

theorem sortRound_eq {xs : List α} {i : Nat} (hi : i < xs.length) :
    sortRound key xs i = swapAt xs i (maxIdx key xs i) := by
  obtain ⟨-, hm, -⟩ := maxIdx_spec key hi
  unfold sortRound
  dsimp only
  split_ifs with hne
  · rfl
  · -- a swap of a position with itself changes nothing
    rw [not_not.mp hne, swapAt_eq hi hi, List.set_getElem_self, List.set_getElem_self]

theorem sortRound_perm {xs : List α} {i : Nat} (hi : i < xs.length) :
    (sortRound key xs i).Perm xs := by
  obtain ⟨-, hm, -⟩ := maxIdx_spec key hi
  rw [sortRound_eq key hi]
  exact swapAt_perm hi hm

/-- The first `i` positions are settled: no larger key stands behind them. -/
def Settled (xs : List α) (i : Nat) : Prop :=
  ∀ a b (ha : a < xs.length) (hb : b < xs.length), a < i → a < b → key xs[b] ≤ key xs[a]

theorem settled_round {xs : List α} {i : Nat} (h : Settled key xs i) (hi : i < xs.length) :
    Settled key (sortRound key xs i) (i + 1) := by
  obtain ⟨him, hm, hmax⟩ := maxIdx_spec key hi
  have hlen : (sortRound key xs i).length = xs.length := (sortRound_perm key hi).length_eq
  -- every element from position `i` on stood there before the round
  have hfrom : ∀ b (hb : b < (sortRound key xs i).length), i ≤ b →
      ∃ c, ∃ hc : c < xs.length, i ≤ c ∧ (sortRound key xs i)[b] = xs[c] := by
    intro b hb hib
    have hget := getElem_swapAt hi hm (a := b) (by rw [← sortRound_eq key hi]; exact hb) (by omega)
    simp only [sortRound_eq key hi, hget]
    split_ifs
    · exact ⟨i, hi, le_rfl, rfl⟩
    · exact ⟨_, hm, him, rfl⟩
    · exact ⟨b, by omega, hib, rfl⟩
  intro a b ha hb hai hab
  rcases Nat.lt_succ_iff_lt_or_eq.mp hai with hlt | rfl
  · -- a position settled before is not touched
    have hkeep : (sortRound key xs i)[a] = xs[a] := by
      have hget := getElem_swapAt hi hm (a := a) (by rw [← sortRound_eq key hi]; exact ha)
        (by omega)
      simp only [sortRound_eq key hi, hget]
      rw [if_neg (by omega), if_neg (by omega)]
    rw [hkeep]
    by_cases hib : i ≤ b
    · obtain ⟨c, hc, hic, heq⟩ := hfrom b hb hib
      rw [heq]
      exact h a c (by omega) hc hlt (by omega)
    · have hget := getElem_swapAt hi hm (a := b) (by rw [← sortRound_eq key hi]; exact hb)
        (by omega)
      simp only [sortRound_eq key hi, hget]
      rw [if_neg (by omega), if_neg (by omega)]
      exact h a b (by omega) (by omega) hlt hab
  · -- the position of this round holds the largest key
    have htop : key (sortRound key xs a)[a] = key xs[maxIdx key xs a] := by
      have hget := getElem_swapAt hi hm (a := a) (by rw [← sortRound_eq key hi]; exact ha)
        (by omega)
      simp only [sortRound_eq key hi, hget]
      split_ifs with heq
      · simp only [← heq]
      · rfl
    obtain ⟨c, hc, hic, heq⟩ := hfrom b hb hab.le
    rw [htop, heq]
    exact hmax c hc hic hc

/-- The rounds from `i` on. -/
theorem foldl_sortRound (k i : Nat) {xs : List α} (h : Settled key xs i) (hk : i + k ≤ xs.length) :
    ((List.range' i k).foldl (sortRound key) xs).Perm xs ∧
      Settled key ((List.range' i k).foldl (sortRound key) xs) (i + k) := by
  induction k generalizing i xs with
  | zero => exact ⟨List.Perm.refl xs, h⟩
  | succ k ih =>
      have hperm : (sortRound key xs i).Perm xs := sortRound_perm key (by omega)
      obtain ⟨hp, hs⟩ := ih (i + 1) (settled_round key h (by omega)) (by rw [hperm.length_eq]; omega)
      rw [List.range'_succ, List.foldl_cons, Nat.add_comm k 1, ← Nat.add_assoc]
      exact ⟨hp.trans hperm, hs⟩

theorem selectionSort_perm_settled (xs : List α) :
    (selectionSort key xs).Perm xs ∧ Settled key (selectionSort key xs) (xs.length - 1) := by
  have hnone : Settled key xs 0 := fun a _ _ _ ha => absurd ha (Nat.not_lt_zero a)
  have h := foldl_sortRound key (xs.length - 1) 0 hnone (by omega)
  rwa [Nat.zero_add, ← List.range_eq_range'] at h

/-- The result is a permutation. -/
theorem selectionSort_perm (xs : List α) : (selectionSort key xs).Perm xs :=
  (selectionSort_perm_settled key xs).1

/-- The keys of the result do not increase. -/
theorem selectionSort_pairwise (xs : List α) :
    (selectionSort key xs).Pairwise fun x y => key y ≤ key x := by
  obtain ⟨hperm, hsettled⟩ := selectionSort_perm_settled key xs
  have hlen := hperm.length_eq
  rw [List.pairwise_iff_getElem]
  intro a b ha hb hab
  exact hsettled a b ha hb (by omega) hab

end SelectionSort

end CLib
