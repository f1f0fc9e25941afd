/-
  Lib/Scratch.lean --- a local array that nobody has written to yet.

  A cell is `none` until something is stored in it.  A store past the end, a load past the
  end and a load of a cell nothing was stored in are faults: these operations return `none`.
  A function over such arrays that returns a value has made no such access.

  `Holds` is the invariant of an array that is filled from the front.
-/
import MiniStrace.Lib.Text

set_option autoImplicit false

namespace CLib

/-- An array of `size` bytes. -/
structure Scratch where
  size : Nat
  cells : Nat → Option Byte

namespace Scratch

/-- The array as it is declared. -/
def new (size : Nat) : Scratch := ⟨size, fun _ => none⟩

/-- `memcpy(a + i, s, n)`. -/
def store (a : Scratch) (i : Nat) (s : Text) : Option Scratch :=
  if i + s.length ≤ a.size then
    some { a with cells := fun j => if i ≤ j ∧ j < i + s.length then s[j - i]? else a.cells j }
  else none

/-- `a[i]`. -/
def load (a : Scratch) (i : Nat) : Option Byte := if i < a.size then a.cells i else none

/-- The first cells of the array, of which there are `n`, hold `bytes`. -/
structure Holds (n : Nat) (a : Scratch) (bytes : Text) : Prop where
  size_eq : a.size = n
  room : bytes.length ≤ n
  shown : ∀ i, i < bytes.length → a.cells i = bytes[i]?

variable {n : Nat} {a : Scratch} {bytes s : Text}

theorem holds_new (n : Nat) : Holds n (new n) [] where
  size_eq := rfl
  room := Nat.zero_le n
  shown := fun _ h => absurd h (Nat.not_lt_zero _)

/-- Bytes that fit are stored behind those that are there. -/
theorem Holds.store (h : Holds n a bytes) (hroom : bytes.length + s.length ≤ n) :
    ∃ a', a.store bytes.length s = some a' ∧ Holds n a' (bytes ++ s) := by
  refine ⟨_, if_pos (by rw [h.size_eq]; exact hroom), h.size_eq, ?_, ?_⟩
  · rw [List.length_append]
    exact hroom
  · intro i hi
    dsimp only
    by_cases hold : i < bytes.length
    · rw [if_neg (by omega), List.getElem?_append_left hold]
      exact h.shown i hold
    · rw [List.length_append] at hi
      rw [if_pos (by omega), List.getElem?_append_right (by omega)]

/-- What was stored can be loaded. -/
theorem Holds.load (h : Holds n a bytes) {i : Nat} (hi : i < bytes.length) :
    a.load i = some bytes[i] := by
  have hroom := h.room
  rw [Scratch.load, if_pos (by rw [h.size_eq]; omega), h.shown i hi, List.getElem?_eq_getElem hi]

end Scratch

end CLib
