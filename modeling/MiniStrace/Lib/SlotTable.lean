/-
  Lib/SlotTable.lean --- a table of a fixed number of slots, searched from the front.

  A slot is either free or active and owned by a key.  Looking a key up scans for the
  first active slot it owns; registering it takes the first free slot, unless it owns
  one already; releasing it only marks its slot free, so a free slot keeps the value
  it had.

  NO KEY OWNS TWO SLOTS.  That is a field of the table, so every operation is a
  function on tables, and what it does is stated through `find` and `keys` alone.
-/
import Mathlib.Data.List.Perm.Basic
import Mathlib.Data.List.Nodup
import Mathlib.Tactic.SplitIfs

set_option autoImplicit false

namespace CLib

/-- One slot; the value of a free slot is whatever its last owner left. -/
structure Slot (κ α : Type) where
  key : κ
  active : Bool
  val : α

namespace Slot

variable {κ α : Type} [DecidableEq κ]

/-- The slot is active and owned by `k`. -/
def owns (k : κ) (s : Slot κ α) : Bool := s.active && s.key == k

/-- The first value owned by `k`. -/
def find (k : κ) : List (Slot κ α) → Option α
  | [] => none
  | s :: ss => if s.owns k then some s.val else find k ss

/-- Changes the first slot that satisfies `p`, if there is one. -/
def updateFirst (p : Slot κ α → Bool) (f : Slot κ α → Slot κ α) :
    List (Slot κ α) → List (Slot κ α)
  | [] => []
  | s :: ss => if p s then f s :: ss else s :: updateFirst p f ss

/-- The keys that own a slot. -/
def keys (ss : List (Slot κ α)) : List κ := (ss.filter (·.active)).map (·.key)

/-- Some slot is free. -/
def hasFree (ss : List (Slot κ α)) : Bool := ss.any (!·.active)

omit [DecidableEq κ] in
theorem keys_cons (s : Slot κ α) (ss : List (Slot κ α)) :
    keys (s :: ss) = if s.active then s.key :: keys ss else keys ss := by
  unfold keys
  rw [List.filter_cons]
  split_ifs <;> rfl

omit [DecidableEq κ] in
theorem length_updateFirst (p : Slot κ α → Bool) (f : Slot κ α → Slot κ α)
    (ss : List (Slot κ α)) : (updateFirst p f ss).length = ss.length := by
  induction ss with
  | nil => rfl
  | cons s ss ih =>
      rw [updateFirst]
      split_ifs <;> simp [ih]

omit [DecidableEq κ] in
theorem length_keys_le (ss : List (Slot κ α)) : (keys ss).length ≤ ss.length := by
  unfold keys
  rw [List.length_map]
  exact List.length_filter_le _ _

omit [DecidableEq κ] in
/-- There is a free slot exactly when not every slot has an owner. -/
theorem hasFree_iff (ss : List (Slot κ α)) : hasFree ss = true ↔ (keys ss).length < ss.length := by
  induction ss with
  | nil => simp [hasFree, keys]
  | cons s ss ih =>
      have hle := length_keys_le ss
      have hcons : hasFree (s :: ss) = (!s.active || hasFree ss) := rfl
      rw [hcons, keys_cons]
      cases hs : s.active with
      | true => simp [ih]
      | false => simp; omega

theorem mem_keys_iff (k : κ) (ss : List (Slot κ α)) : k ∈ keys ss ↔ (find k ss).isSome := by
  induction ss with
  | nil => simp [keys, find]
  | cons s ss ih =>
      rw [keys_cons, find]
      by_cases hs : s.active = true
      · by_cases hk : s.key = k
        · simp [owns, hs, hk]
        · simp [owns, hs, hk, Ne.symm hk, ih]
      · simp [owns, hs, ih]

/-! ### Taking a slot -/

omit [DecidableEq κ] in
theorem keys_take (k : κ) (a : α) {ss : List (Slot κ α)} (h : hasFree ss = true) :
    (keys (updateFirst (!·.active) (fun _ => ⟨k, true, a⟩) ss)).Perm (k :: keys ss) := by
  induction ss with
  | nil => simp [hasFree] at h
  | cons s ss ih =>
      rw [updateFirst]
      by_cases hs : s.active = true
      · have hfree : hasFree ss = true := by simpa [hasFree, hs] using h
        rw [if_neg (by simp [hs]), keys_cons, keys_cons, if_pos hs, if_pos hs]
        exact ((ih hfree).cons _).trans (List.Perm.swap _ _ _)
      · rw [if_pos (by simpa using hs), keys_cons, keys_cons, if_pos rfl, if_neg hs]

theorem find_take (k j : κ) (a : α) {ss : List (Slot κ α)} (h : hasFree ss = true)
    (hk : k ∉ keys ss) :
    find j (updateFirst (!·.active) (fun _ => ⟨k, true, a⟩) ss) =
      if j = k then some a else find j ss := by
  induction ss with
  | nil => simp [hasFree] at h
  | cons s ss ih =>
      rw [updateFirst]
      by_cases hs : s.active = true
      · have hfree : hasFree ss = true := by simpa [hasFree, hs] using h
        rw [keys_cons, if_pos hs, List.mem_cons, not_or] at hk
        rw [if_neg (by simp [hs]), find, find, ih hfree hk.2]
        by_cases hj : j = k
        · subst hj
          simp [owns, hs, Ne.symm hk.1]
        · simp [hj]
      · rw [if_pos (by simpa using hs), find, find]
        by_cases hj : j = k
        · simp [owns, hj]
        · simp [owns, hs, hj, Ne.symm hj]

/-! ### Changing an owned slot -/

theorem keys_set (k : κ) (g : α → α) (ss : List (Slot κ α)) :
    keys (updateFirst (owns k) (fun s => { s with val := g s.val }) ss) = keys ss := by
  induction ss with
  | nil => rfl
  | cons s ss ih =>
      rw [updateFirst]
      by_cases ho : owns k s = true
      · rw [if_pos ho, keys_cons, keys_cons]
      · rw [if_neg ho, keys_cons, keys_cons, ih]

theorem find_set (k j : κ) (g : α → α) (ss : List (Slot κ α)) :
    find j (updateFirst (owns k) (fun s => { s with val := g s.val }) ss) =
      if j = k then (find k ss).map g else find j ss := by
  induction ss with
  | nil => simp [updateFirst, find]
  | cons s ss ih =>
      rw [updateFirst]
      by_cases ho : owns k s = true
      · rw [if_pos ho, find, find, find, if_pos ho]
        by_cases hj : j = k
        · subst hj
          have ho' : owns j { s with val := g s.val } = true := ho
          rw [if_pos ho', if_pos rfl, Option.map_some]
        · have hne : ∀ v : α, ¬ owns j { s with val := v } = true := by
            simp only [owns, Bool.and_eq_true, beq_iff_eq] at ho ⊢
            rintro v ⟨_, rfl⟩
            exact hj ho.2
          rw [if_neg (hne _), if_neg hj, if_neg (hne s.val)]
      · rw [if_neg ho, find, find, find, ih, if_neg ho]
        by_cases hj : j = k
        · subst hj
          rw [if_neg ho, if_pos rfl]
          simp
        · simp [hj]

theorem keys_release (k : κ) (ss : List (Slot κ α)) :
    keys (updateFirst (owns k) (fun s => { s with active := false }) ss) = (keys ss).erase k := by
  induction ss with
  | nil => rfl
  | cons s ss ih =>
      rw [updateFirst]
      by_cases ho : owns k s = true
      · rw [if_pos ho, keys_cons, keys_cons, if_neg (by simp)]
        simp only [owns, Bool.and_eq_true, beq_iff_eq] at ho
        rw [if_pos ho.1, ho.2, List.erase_cons_head]
      · rw [if_neg ho, keys_cons, keys_cons, ih]
        by_cases hs : s.active = true
        · have hne : s.key ≠ k := fun hk => ho (by simp [owns, hs, hk])
          rw [if_pos hs, if_pos hs, List.erase_cons_tail (by simpa using hne)]
        · rw [if_neg hs, if_neg hs]

theorem find_release (k j : κ) {ss : List (Slot κ α)} (hn : (keys ss).Nodup) :
    find j (updateFirst (owns k) (fun s => { s with active := false }) ss) =
      if j = k then none else find j ss := by
  by_cases hj : j = k
  · subst hj
    rw [if_pos rfl, ← Option.not_isSome_iff_eq_none, ← mem_keys_iff, keys_release]
    exact hn.not_mem_erase
  · rw [if_neg hj]
    induction ss with
    | nil => rfl
    | cons s ss ih =>
        rw [updateFirst]
        by_cases ho : owns k s = true
        · rw [if_pos ho, find, find, if_neg (by simp [owns])]
          have hne : ¬ owns j s = true := by
            simp only [owns, Bool.and_eq_true, beq_iff_eq] at ho ⊢
            rintro ⟨_, rfl⟩
            exact hj ho.2
          rw [if_neg hne]
        · have hn' : (keys ss).Nodup := by
            rw [keys_cons] at hn
            split_ifs at hn
            · exact hn.of_cons
            · exact hn
          rw [if_neg ho, find, find, ih hn']

end Slot

/-! ## The table -/

/-- A table of `n` slots in which no key owns two. -/
structure SlotTable (κ α : Type) (n : Nat) where
  slots : List (Slot κ α)
  size : slots.length = n
  distinct : (Slot.keys slots).Nodup

namespace SlotTable

variable {κ α : Type} [DecidableEq κ] {n : Nat}

/-- The keys that own a slot. -/
def keys (t : SlotTable κ α n) : List κ := Slot.keys t.slots

def find (t : SlotTable κ α n) (k : κ) : Option α := Slot.find k t.slots

omit [DecidableEq κ] in
/-- No more keys than slots. -/
theorem length_keys_le (t : SlotTable κ α n) : t.keys.length ≤ n := by
  have h := Slot.length_keys_le t.slots
  rwa [t.size] at h

theorem mem_keys_iff (t : SlotTable κ α n) (k : κ) : k ∈ t.keys ↔ (t.find k).isSome :=
  Slot.mem_keys_iff k t.slots

omit [DecidableEq κ] in
theorem nodup_keys (t : SlotTable κ α n) : t.keys.Nodup := t.distinct

/-- Every slot is free. -/
def empty (n : Nat) (k : κ) (a : α) : SlotTable κ α n where
  slots := List.replicate n ⟨k, false, a⟩
  size := List.length_replicate
  distinct := by
    have h : Slot.keys (List.replicate n (⟨k, false, a⟩ : Slot κ α)) = [] := by
      simp [Slot.keys]
    rw [h]
    exact List.nodup_nil

omit [DecidableEq κ] in
@[simp] theorem keys_empty (k : κ) (a : α) : (empty n k a).keys = [] := by
  simp [keys, empty, Slot.keys]

/-- Registers `k`: the table is unchanged if `k` owns a slot, `k` takes the first free
slot with value `fresh` otherwise, and there is no result when no slot is free. -/
def add (t : SlotTable κ α n) (k : κ) (fresh : α) : Option (SlotTable κ α n) :=
  if hk : (t.find k).isSome then some t
  else if hfree : Slot.hasFree t.slots then
    some
      { slots := Slot.updateFirst (!·.active) (fun _ => ⟨k, true, fresh⟩) t.slots
        size := by rw [Slot.length_updateFirst, t.size]
        distinct := by
          rw [(Slot.keys_take k fresh hfree).nodup_iff, List.nodup_cons]
          exact ⟨fun hm => hk ((t.mem_keys_iff k).mp hm), t.distinct⟩ }
  else none

/-- Frees the slot of `k`. -/
def remove (t : SlotTable κ α n) (k : κ) : SlotTable κ α n where
  slots := Slot.updateFirst (Slot.owns k) (fun s => { s with active := false }) t.slots
  size := by rw [Slot.length_updateFirst, t.size]
  distinct := by
    rw [Slot.keys_release]
    exact t.distinct.erase k

/-- Changes the value of the slot of `k`. -/
def modify (t : SlotTable κ α n) (k : κ) (g : α → α) : SlotTable κ α n where
  slots := Slot.updateFirst (Slot.owns k) (fun s => { s with val := g s.val }) t.slots
  size := by rw [Slot.length_updateFirst, t.size]
  distinct := by
    rw [Slot.keys_set]
    exact t.distinct

/-! ### What the operations do -/

theorem find_empty (j k : κ) (a : α) : (empty n k a).find j = none := by
  rw [← Option.not_isSome_iff_eq_none, ← mem_keys_iff, keys_empty]
  exact List.not_mem_nil

theorem find_remove (t : SlotTable κ α n) (k j : κ) :
    (t.remove k).find j = if j = k then none else t.find j :=
  Slot.find_release k j t.distinct

theorem keys_remove (t : SlotTable κ α n) (k : κ) : (t.remove k).keys = t.keys.erase k :=
  Slot.keys_release k t.slots

theorem find_modify (t : SlotTable κ α n) (k j : κ) (g : α → α) :
    (t.modify k g).find j = if j = k then (t.find k).map g else t.find j :=
  Slot.find_set k j g t.slots

@[simp] theorem keys_modify (t : SlotTable κ α n) (k : κ) (g : α → α) :
    (t.modify k g).keys = t.keys :=
  Slot.keys_set k g t.slots

/-- A table with all its slots owned registers no new key. -/
theorem add_eq_none_iff {t : SlotTable κ α n} {k : κ} {fresh : α} :
    t.add k fresh = none ↔ k ∉ t.keys ∧ t.keys.length = n := by
  have hle := t.length_keys_le
  have hfree := Slot.hasFree_iff t.slots
  rw [t.size] at hfree
  have hkeys : t.keys = Slot.keys t.slots := rfl
  unfold add
  by_cases hk : (t.find k).isSome
  · simp [hk, mem_keys_iff]
  · rw [dif_neg hk, mem_keys_iff]
    by_cases hf : Slot.hasFree t.slots = true
    · rw [dif_pos hf]
      have := hfree.mp hf
      simp only [reduceCtorEq, false_iff]
      rintro ⟨_, hn⟩
      rw [hkeys] at hn
      omega
    · rw [dif_neg hf]
      have : ¬ (Slot.keys t.slots).length < n := fun h => hf (hfree.mpr h)
      rw [hkeys] at hle ⊢
      exact iff_of_true rfl ⟨hk, by omega⟩

/-- What a successful registration leaves. -/
theorem add_eq_some {t t' : SlotTable κ α n} {k : κ} {fresh : α} (h : t.add k fresh = some t') :
    (k ∈ t.keys ∧ t' = t) ∨
      (k ∉ t.keys ∧ t'.keys.Perm (k :: t.keys) ∧
        ∀ j, t'.find j = if j = k then some fresh else t.find j) := by
  unfold add at h
  split_ifs at h with hk hfree
  · injection h with h
    exact Or.inl ⟨(t.mem_keys_iff k).mpr hk, h.symm⟩
  · injection h with h
    have hmem : k ∉ t.keys := fun hm => hk ((t.mem_keys_iff k).mp hm)
    subst h
    exact Or.inr ⟨hmem, Slot.keys_take k fresh hfree,
      fun j => Slot.find_take k j fresh hfree hmem⟩

/-- After a successful registration `k` has its old value, or the fresh one, and every
other key is where it was. -/
theorem find_of_add {t t' : SlotTable κ α n} {k : κ} {fresh : α} (h : t.add k fresh = some t')
    (j : κ) : t'.find j = if j = k then some ((t.find k).getD fresh) else t.find j := by
  rcases add_eq_some h with ⟨hmem, rfl⟩ | ⟨hmem, -, hfind⟩
  · obtain ⟨v, hv⟩ := Option.isSome_iff_exists.mp ((t'.mem_keys_iff k).mp hmem)
    by_cases hj : j = k
    · rw [if_pos hj, hj, hv, Option.getD_some]
    · rw [if_neg hj]
  · rw [hfind j]
    have hnone : t.find k = none := by
      rw [← Option.not_isSome_iff_eq_none, ← mem_keys_iff]
      exact hmem
    rw [hnone, Option.getD_none]

end SlotTable

end CLib
