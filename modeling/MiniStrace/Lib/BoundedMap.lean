/-
  Lib/BoundedMap.lean --- what a table of slots is for: a finite map with room for `n` keys.

  THE MAP.  The bound is a field, so that a map with more keys cannot be built, and
  registering a key is the one operation that may have no result.

  THE TABLE AGAINST THE MAP.  `Represents r t m` says that the table and the map know the
  same keys, with values related by `r`.  Which slot holds a key, and what a free slot
  still holds, is nothing the map can see.  Every operation of the table follows the
  operation of the map.
-/
import Mathlib.Data.Finmap
import MiniStrace.Lib.SlotTable

set_option autoImplicit false

namespace CLib

/-- A finite map with at most `n` keys. -/
structure BoundedMap (κ α : Type) [DecidableEq κ] (n : Nat) where
  entries : Finmap fun _ : κ => α
  card_le : entries.keys.card ≤ n

namespace BoundedMap

variable {κ α : Type} [DecidableEq κ] {n : Nat}

def lookup (m : BoundedMap κ α n) (k : κ) : Option α := m.entries.lookup k

def keys (m : BoundedMap κ α n) : Finset κ := m.entries.keys

theorem mem_keys_iff (m : BoundedMap κ α n) (k : κ) : k ∈ m.keys ↔ (m.lookup k).isSome := by
  rw [keys, Finmap.mem_keys, lookup, Finmap.lookup_isSome]

theorem keys_insert (m : Finmap fun _ : κ => α) (k : κ) (a : α) :
    (m.insert k a).keys = insert k m.keys := by
  ext j
  rw [Finmap.mem_keys, Finmap.mem_insert, Finset.mem_insert, Finmap.mem_keys]

def empty (n : Nat) : BoundedMap κ α n := ⟨∅, by simp⟩

/-- Registers `k` with the value `fresh`, unless it is there; no result without room. -/
def register (m : BoundedMap κ α n) (k : κ) (fresh : α) : Option (BoundedMap κ α n) :=
  if k ∈ m.keys then some m
  else if hroom : m.keys.card < n then
    some ⟨m.entries.insert k fresh, by
      rw [keys_insert]
      exact (Finset.card_insert_le _ _).trans hroom⟩
  else none

/-- Gives a registered key another value. -/
def set (m : BoundedMap κ α n) (k : κ) (a : α) : BoundedMap κ α n :=
  if hk : k ∈ m.keys then
    ⟨m.entries.insert k a, by
      rw [keys_insert, Finset.insert_eq_of_mem (show k ∈ m.entries.keys from hk)]
      exact m.card_le⟩
  else m

def erase (m : BoundedMap κ α n) (k : κ) : BoundedMap κ α n where
  entries := m.entries.erase k
  card_le := by
    rw [Finmap.keys_erase]
    exact (Finset.card_erase_le).trans m.card_le

@[simp] theorem lookup_empty (k : κ) : (empty n : BoundedMap κ α n).lookup k = none :=
  Finmap.lookup_empty k

theorem lookup_set (m : BoundedMap κ α n) (k j : κ) (a : α) :
    (m.set k a).lookup j = if j = k then (m.lookup k).map fun _ => a else m.lookup j := by
  unfold set
  split_ifs with hk hj hj
  · subst hj
    obtain ⟨b, hb⟩ := Option.isSome_iff_exists.mp ((m.mem_keys_iff j).mp hk)
    rw [hb, Option.map_some]
    exact Finmap.lookup_insert _
  · exact Finmap.lookup_insert_of_ne _ hj
  · subst hj
    rw [mem_keys_iff, Option.not_isSome_iff_eq_none] at hk
    rw [hk, Option.map_none]
  · rfl

theorem lookup_erase (m : BoundedMap κ α n) (k j : κ) :
    (m.erase k).lookup j = if j = k then none else m.lookup j := by
  split_ifs with hj
  · subst hj
    exact Finmap.lookup_erase _ _
  · exact Finmap.lookup_erase_ne hj

theorem register_eq_none_iff {m : BoundedMap κ α n} {k : κ} {fresh : α} :
    m.register k fresh = none ↔ k ∉ m.keys ∧ m.keys.card = n := by
  have hle : m.keys.card ≤ n := m.card_le
  unfold register
  split_ifs with hk hroom
  · simp [hk]
  · simp only [hk, not_false_eq_true, true_and, false_iff]
    omega
  · simp only [hk, not_false_eq_true, true_and, true_iff]
    omega

theorem lookup_of_register {m m' : BoundedMap κ α n} {k : κ} {fresh : α}
    (h : m.register k fresh = some m') (j : κ) :
    m'.lookup j = if j = k then some ((m.lookup k).getD fresh) else m.lookup j := by
  unfold register at h
  split_ifs at h with hk hroom
  · injection h with h
    subst h
    obtain ⟨b, hb⟩ := Option.isSome_iff_exists.mp ((m.mem_keys_iff k).mp hk)
    split_ifs with hj
    · rw [hj, hb, Option.getD_some]
    · rfl
  · injection h with h
    subst h
    rw [mem_keys_iff, Option.not_isSome_iff_eq_none] at hk
    split_ifs with hj
    · subst hj
      rw [hk, Option.getD_none]
      exact Finmap.lookup_insert _
    · exact Finmap.lookup_insert_of_ne _ hj

end BoundedMap

/-! ## Tables as maps -/

namespace SlotTable

variable {κ α β : Type} [DecidableEq κ] {n : Nat} {r : α → β → Prop}

/-- The table and the map know the same keys, with related values. -/
def Represents (r : α → β → Prop) (t : SlotTable κ α n) (m : BoundedMap κ β n) : Prop :=
  ∀ k, Option.Rel r (t.find k) (m.lookup k)

namespace Represents

variable {t : SlotTable κ α n} {m : BoundedMap κ β n}

/-- A key is unknown to both, or known to both with related values. -/
theorem cases (h : t.Represents r m) (k : κ) :
    (t.find k = none ∧ m.lookup k = none) ∨
      ∃ a b, t.find k = some a ∧ m.lookup k = some b ∧ r a b := by
  have hk := h k
  generalize t.find k = x, m.lookup k = y at hk
  cases hk with
  | none => exact Or.inl ⟨rfl, rfl⟩
  | some hab => exact Or.inr ⟨_, _, rfl, rfl, hab⟩

theorem mem_iff (h : t.Represents r m) (k : κ) : k ∈ t.keys ↔ k ∈ m.keys := by
  rw [SlotTable.mem_keys_iff, BoundedMap.mem_keys_iff]
  rcases h.cases k with ⟨ht, hm⟩ | ⟨a, b, ht, hm, -⟩ <;> simp [ht, hm]

/-- Both are full at the same time. -/
theorem card_eq (h : t.Represents r m) : t.keys.length = m.keys.card := by
  rw [← List.toFinset_card_of_nodup t.nodup_keys]
  congr 1
  ext k
  rw [List.mem_toFinset, h.mem_iff]

theorem empty (k : κ) (a : α) : (SlotTable.empty n k a).Represents r (BoundedMap.empty n) := by
  intro j
  rw [SlotTable.find_empty, BoundedMap.lookup_empty]
  exact .none

/-- Registering succeeds in both or in neither. -/
theorem add (h : t.Represents r m) (k : κ) {a : α} {b : β} (hab : r a b) :
    Option.Rel (Represents r) (t.add k a) (m.register k b) := by
  cases ht : t.add k a with
  | none =>
      have hm : m.register k b = none := by
        rw [BoundedMap.register_eq_none_iff, ← h.card_eq, ← h.mem_iff]
        exact SlotTable.add_eq_none_iff.mp ht
      rw [hm]
      exact .none
  | some t' =>
      cases hm : m.register k b with
      | none =>
          have hnone : t.add k a = none := by
            rw [SlotTable.add_eq_none_iff, h.card_eq, h.mem_iff]
            exact BoundedMap.register_eq_none_iff.mp hm
          exact absurd (ht.symm.trans hnone) (by simp)
      | some m' =>
          refine .some fun j => ?_
          rw [SlotTable.find_of_add ht, BoundedMap.lookup_of_register hm]
          split_ifs
          · rcases h.cases k with ⟨hf, hl⟩ | ⟨v, w, hf, hl, hvw⟩ <;> rw [hf, hl]
            · exact .some hab
            · exact .some hvw
          · exact h j

theorem remove (h : t.Represents r m) (k : κ) : (t.remove k).Represents r (m.erase k) := by
  intro j
  rw [SlotTable.find_remove, BoundedMap.lookup_erase]
  split_ifs
  · exact .none
  · exact h j

/-- A value of a key is replaced in both. -/
theorem modify (h : t.Represents r m) (k : κ) {g : α → α} {b : β}
    (hg : ∀ a, t.find k = some a → r (g a) b) : (t.modify k g).Represents r (m.set k b) := by
  intro j
  rw [SlotTable.find_modify, BoundedMap.lookup_set]
  split_ifs
  · rcases h.cases k with ⟨hf, hl⟩ | ⟨v, w, hf, hl, -⟩ <;> rw [hf, hl]
    · exact .none
    · exact .some (hg v hf)
  · exact h j

end Represents

end SlotTable

end CLib
