/-
  Lib/Dict.lean --- a dictionary that keeps the order of insertion.

  TWO WAYS TO WRITE.  `assign` gives a key its newest value and leaves the key where it
  stood; `setDefault` keeps the value a key already has.  So a list of pairs written by
  `assign` gives each key the last of its values, and written by `setDefault` the first.

  ORDER.  The keys stand in the order in which they first occur (`assignAll_ordered`).
-/
import Mathlib.Data.List.Induction
import Mathlib.Data.List.Nodup
import Mathlib.Data.List.Pairwise

set_option autoImplicit false

namespace CLib

/-- Keys with their values, each key once, in the order of insertion. -/
structure Dict (κ α : Type) where
  entries : List (κ × α)
  nodup : (entries.map Prod.fst).Nodup

namespace Dict

variable {κ α : Type}

/-- The keys, in order. -/
def keys (d : Dict κ α) : List κ := d.entries.map Prod.fst

/-- The dictionary without entries. -/
def empty : Dict κ α := ⟨[], List.nodup_nil⟩

/-- One more entry, at the end. -/
def push (d : Dict κ α) (k : κ) (v : α) (h : k ∉ d.keys) : Dict κ α :=
  ⟨d.entries ++ [(k, v)], by
    rw [List.map_append]
    exact d.nodup.append (List.nodup_singleton k) (List.disjoint_singleton.mpr h)⟩

@[simp] theorem keys_push (d : Dict κ α) (k : κ) (v : α) (h : k ∉ d.keys) :
    (d.push k v h).keys = d.keys ++ [k] := by
  rw [keys, push, List.map_append]
  rfl

variable [DecidableEq κ]

/-- The value of a key. -/
def get? (d : Dict κ α) (k : κ) : Option α := d.entries.lookup k

/-- A new value for a key, which keeps its place. -/
def assign (d : Dict κ α) (k : κ) (v : α) : Dict κ α :=
  if h : k ∈ d.keys then
    ⟨d.entries.map fun e => if e.1 = k then (e.1, v) else e, by
      have hfst : Prod.fst ∘ (fun e : κ × α => if e.1 = k then (e.1, v) else e) = Prod.fst := by
        funext e
        rw [Function.comp_apply]
        split_ifs <;> rfl
      rw [List.map_map, hfst]
      exact d.nodup⟩
  else d.push k v h

/-- A value for a key that has none. -/
def setDefault (d : Dict κ α) (k : κ) (v : α) : Dict κ α :=
  if h : k ∈ d.keys then d else d.push k v h

/-! ## Values -/

theorem lookup_cons_eq_ite (e : κ × α) (entries : List (κ × α)) (k : κ) :
    (e :: entries).lookup k = if k = e.1 then some e.2 else entries.lookup k := by
  by_cases hk : k = e.1
  · rw [if_pos hk, List.lookup_cons, beq_iff_eq.mpr hk]
  · rw [if_neg hk, List.lookup_cons, beq_eq_false_iff_ne.mpr hk]

theorem get?_isSome_iff (d : Dict κ α) (k : κ) : (d.get? k).isSome ↔ k ∈ d.keys := by
  rw [get?, keys]
  induction d.entries with
  | nil => simp
  | cons e entries ih =>
      rw [lookup_cons_eq_ite, List.map_cons, List.mem_cons, ← ih]
      by_cases hk : k = e.1 <;> simp [hk]

theorem get?_eq_none {d : Dict κ α} {k : κ} (h : k ∉ d.keys) : d.get? k = none :=
  Option.not_isSome_iff_eq_none.mp fun hs => h ((d.get?_isSome_iff k).mp hs)

theorem get?_push (d : Dict κ α) {k : κ} (v : α) (h : k ∉ d.keys) (j : κ) :
    (d.push k v h).get? j = (d.get? j).or (if j = k then some v else none) := by
  rw [get?, get?, push, List.lookup_append, lookup_cons_eq_ite]
  rfl

theorem lookup_map_assign (entries : List (κ × α)) (k : κ) (v : α) (j : κ) :
    (entries.map fun e => if e.1 = k then (e.1, v) else e).lookup j =
      if j = k then (entries.lookup k).map fun _ => v else entries.lookup j := by
  induction entries with
  | nil => simp
  | cons e entries ih =>
      rw [List.map_cons, lookup_cons_eq_ite, ih, lookup_cons_eq_ite, lookup_cons_eq_ite]
      grind

theorem get?_assign (d : Dict κ α) (k : κ) (v : α) (j : κ) :
    (d.assign k v).get? j = if j = k then some v else d.get? j := by
  unfold assign
  split_ifs with h hj hj
  · obtain ⟨old, hold⟩ := Option.isSome_iff_exists.mp ((d.get?_isSome_iff k).mpr h)
    rw [get?] at hold ⊢
    rw [lookup_map_assign, if_pos hj, hold]
    rfl
  · rw [get?, lookup_map_assign, if_neg hj]
    rfl
  · rw [get?_push, hj, get?_eq_none h, if_pos rfl]
    rfl
  · rw [get?_push, if_neg hj, Option.or_none]

theorem get?_setDefault (d : Dict κ α) (k : κ) (v : α) (j : κ) :
    (d.setDefault k v).get? j = (d.get? j).or (if j = k then some v else none) := by
  unfold setDefault
  split_ifs with h hj hj
  · obtain ⟨old, hold⟩ := Option.isSome_iff_exists.mp ((d.get?_isSome_iff k).mpr h)
    rw [hj, hold]
    rfl
  · rw [Option.or_none]
  · rw [get?_push, if_pos hj]
  · rw [get?_push, if_neg hj]

/-! ## Keys -/

theorem keys_assign (d : Dict κ α) (k : κ) (v : α) :
    (d.assign k v).keys = if k ∈ d.keys then d.keys else d.keys ++ [k] := by
  unfold assign
  split_ifs with h
  · rw [keys, keys, List.map_map]
    refine List.map_congr_left fun e _ => ?_
    rw [Function.comp_apply]
    split_ifs <;> rfl
  · rw [keys_push]

/-! ## Whole lists of pairs -/

section Lists

variable {β : Type}

/-- What `assign` makes of the pairs that `f` reads off a list. -/
def assignAll (f : β → Option (κ × α)) (xs : List β) : Dict κ α :=
  xs.foldl (fun d x => match f x with | some (k, v) => d.assign k v | none => d) empty

/-- What `setDefault` makes of them. -/
def setDefaults (f : β → Option (κ × α)) (xs : List β) : Dict κ α :=
  xs.foldl (fun d x => match f x with | some (k, v) => d.setDefault k v | none => d) empty

/-- The value that `x` gives to `k`. -/
def valueFor (f : β → Option (κ × α)) (k : κ) (x : β) : Option α :=
  (f x).bind fun e => if k = e.1 then some e.2 else none

theorem assignAll_concat (f : β → Option (κ × α)) (xs : List β) (x : β) :
    assignAll f (xs ++ [x]) =
      match f x with
      | some (k, v) => (assignAll f xs).assign k v
      | none => assignAll f xs := by
  rw [assignAll, List.foldl_append]
  rfl

theorem setDefaults_concat (f : β → Option (κ × α)) (xs : List β) (x : β) :
    setDefaults f (xs ++ [x]) =
      match f x with
      | some (k, v) => (setDefaults f xs).setDefault k v
      | none => setDefaults f xs := by
  rw [setDefaults, List.foldl_append]
  rfl

/-- By `assign`, a key has the last value it was given. -/
theorem assignAll_get? (f : β → Option (κ × α)) (xs : List β) (k : κ) :
    (assignAll f xs).get? k = xs.reverse.findSome? (valueFor f k) := by
  induction xs using List.reverseRecOn with
  | nil => rfl
  | append_singleton xs x ih =>
      rw [assignAll_concat, List.reverse_append, List.reverse_singleton, List.singleton_append,
        List.findSome?_cons, ← ih, valueFor]
      cases f x with
      | none => rfl
      | some e =>
          rw [get?_assign, Option.bind_some]
          split_ifs <;> rfl

/-- By `setDefault`, a key has the first. -/
theorem setDefaults_get? (f : β → Option (κ × α)) (xs : List β) (k : κ) :
    (setDefaults f xs).get? k = xs.findSome? (valueFor f k) := by
  induction xs using List.reverseRecOn with
  | nil => rfl
  | append_singleton xs x ih =>
      rw [setDefaults_concat, List.findSome?_append, ← ih, List.findSome?_singleton, valueFor]
      cases f x with
      | none => exact (Option.or_none).symm
      | some e => rw [get?_setDefault, Option.bind_some]

/-- Where `k` is first given a value; the length of the list if nowhere. -/
def firstAt (f : β → Option (κ × α)) (xs : List β) (k : κ) : Nat :=
  xs.findIdx fun x => (valueFor f k x).isSome

theorem firstAt_lt_iff (f : β → Option (κ × α)) (xs : List β) (k : κ) :
    firstAt f xs k < xs.length ↔ k ∈ (assignAll f xs).keys := by
  rw [← get?_isSome_iff, assignAll_get?, List.findSome?_isSome_iff, firstAt, List.findIdx_lt_length]
  simp

theorem firstAt_concat (f : β → Option (κ × α)) (xs : List β) (x : β) {k : κ}
    (hk : k ∈ (assignAll f xs).keys) : firstAt f (xs ++ [x]) k = firstAt f xs k := by
  have hlt := (firstAt_lt_iff f xs k).mpr hk
  unfold firstAt at hlt ⊢
  rw [List.findIdx_append, if_pos hlt]

theorem le_firstAt_concat (f : β → Option (κ × α)) (xs : List β) (x : β) {k : κ}
    (hk : k ∉ (assignAll f xs).keys) : xs.length ≤ firstAt f (xs ++ [x]) k := by
  have hlt := fun h => hk ((firstAt_lt_iff f xs k).mp h)
  unfold firstAt at hlt ⊢
  rw [List.findIdx_append, if_neg hlt]
  exact Nat.le_add_left _ _

/-- The keys stand in the order in which they are first given a value. -/
theorem assignAll_ordered (f : β → Option (κ × α)) (xs : List β) :
    (assignAll f xs).keys.Pairwise fun j k => firstAt f xs j < firstAt f xs k := by
  induction xs using List.reverseRecOn with
  | nil => exact List.Pairwise.nil
  | append_singleton xs x ih =>
      have hkeep : (assignAll f xs).keys.Pairwise fun j k =>
          firstAt f (xs ++ [x]) j < firstAt f (xs ++ [x]) k := by
        refine ih.imp_of_mem fun hj hk h => ?_
        rwa [firstAt_concat f xs x hj, firstAt_concat f xs x hk]
      rw [assignAll_concat]
      cases f x with
      | none => exact hkeep
      | some e =>
          rw [keys_assign]
          split_ifs with hmem
          · exact hkeep
          · refine List.pairwise_append.mpr ⟨hkeep, List.pairwise_singleton _ _, ?_⟩
            intro j hj k hk
            rw [List.mem_singleton.mp hk, firstAt_concat f xs x hj]
            exact Nat.lt_of_lt_of_le ((firstAt_lt_iff f xs j).mpr hj) (le_firstAt_concat f xs x hmem)

/-- No two keys are first given a value in one place. -/
theorem firstAt_inj (f : β → Option (κ × α)) (xs : List β) {j k : κ}
    (hj : j ∈ (assignAll f xs).keys) (hk : k ∈ (assignAll f xs).keys)
    (h : firstAt f xs j = firstAt f xs k) : j = k := by
  by_contra hne
  have hapart : (assignAll f xs).keys.Pairwise fun j k => firstAt f xs j ≠ firstAt f xs k :=
    (assignAll_ordered f xs).imp Nat.ne_of_lt
  have : Std.Symm fun j k => firstAt f xs j ≠ firstAt f xs k := ⟨fun _ _ => Ne.symm⟩
  exact hapart.forall hj hk hne h

end Lists

end Dict

end CLib
