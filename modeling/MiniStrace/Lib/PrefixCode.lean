/-
  Lib/PrefixCode.lean --- lists written as the words of their items, one item after the other.

  THE POINT.  If no item's words are the beginning of another's, and what may follow the list
  never looks like an item, then a sequence of words is such a list in one way only.
-/
import Mathlib.Data.List.Basic

set_option autoImplicit false

namespace CLib

/-- Items with the words they are written in, and the words with which a list of items can be
over. -/
structure PrefixCode (α W : Type) where
  words : α → List W
  Stops : List W → Prop
  apart : ∀ a b r r', words a ++ r = words b ++ r' → a = b
  going : ∀ a r, ¬Stops (words a ++ r)

namespace PrefixCode

variable {α W : Type} (C : PrefixCode α W)

/-- A list of items in words. -/
def encode (items : List α) : List W := items.flatMap C.words

@[simp] theorem encode_nil : C.encode [] = [] := rfl

@[simp] theorem encode_cons (a : α) (items : List α) :
    C.encode (a :: items) = C.words a ++ C.encode items := List.flatMap_cons

/-- One list of items and one rest. -/
theorem encode_append_inj {items items' : List α} {rest rest' : List W}
    (h : C.encode items ++ rest = C.encode items' ++ rest') (hstop : C.Stops rest)
    (hstop' : C.Stops rest') : items = items' ∧ rest = rest' := by
  induction items generalizing items' with
  | nil =>
      cases items' with
      | nil => exact ⟨rfl, h⟩
      | cons b items' =>
          rw [encode_nil, List.nil_append, encode_cons, List.append_assoc] at h
          rw [h] at hstop
          exact absurd hstop (C.going b _)
  | cons a items ih =>
      cases items' with
      | nil =>
          rw [encode_nil, List.nil_append, encode_cons, List.append_assoc] at h
          rw [← h] at hstop'
          exact absurd hstop' (C.going a _)
      | cons b items' =>
          simp only [encode_cons, List.append_assoc] at h
          obtain rfl := C.apart a b _ _ h
          obtain ⟨rfl, rfl⟩ := ih (List.append_cancel_left h)
          exact ⟨rfl, rfl⟩

end PrefixCode

end CLib
