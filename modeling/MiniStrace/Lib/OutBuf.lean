/-
  Lib/OutBuf.lean --- a caller-supplied `char` array filled by a chain of
  `snprintf(out + oi, out_size - oi, ...)` calls.

  WHAT IS MODELLED.  `snprintf` writes at most `size - 1` characters and a NUL,
  writes nothing when `size` is zero, and returns the length of the untruncated
  text; `oi` accumulates those lengths, so it may run past `out_size`.  The
  subtraction `out_size - oi` is `size_t` arithmetic: once `oi` exceeds
  `out_size` it wraps to a huge value and the next `snprintf` writes outside the
  array.  Cells past `size` are part of the model for that reason.

  THE TWO LAYERS.  The array is a function on indices.  `Shows b t` relates it to
  the text `t` that the same calls would have produced with unlimited room: the
  array holds the first `size - 1` characters of `t`.  Every call keeps that
  relation, guarded or not.  What a missing guard loses is `Bounded`, and with it
  the bound on the writes: a chain whose calls all start at or before `out_size`
  writes no cell from `out_size` on.

  `Filled b t` is the stronger relation of the code that stores character by
  character and checks its room first: nothing has been cut so far.
-/
import MiniStrace.Lib.Text

set_option autoImplicit false

namespace CLib

/-- `a - b` on `size_t`. -/
def sizeSub (a b : Nat) : Nat := (a + (2 ^ 64 - b % 2 ^ 64)) % 2 ^ 64

theorem sizeSub_of_le {a b : Nat} (ha : a < 2 ^ 64) (h : b ≤ a) : sizeSub a b = a - b := by
  unfold sizeSub
  omega

/-- Overwrite the cells from index `start` on with the bytes of `s`. -/
def store (cells : Nat → Byte) (start : Nat) (s : Text) : Nat → Byte :=
  fun j => if start ≤ j ∧ j < start + s.length then s.getD (j - start) 0 else cells j

theorem store_of_lt {cells : Nat → Byte} {start : Nat} {s : Text} {j : Nat}
    (h : j < start ∨ start + s.length ≤ j) : store cells start s j = cells j := by
  unfold store
  rw [if_neg]
  omega

theorem store_at {cells : Nat → Byte} {start : Nat} {s : Text} {i : Nat}
    (h : i < s.length) : store cells start s (start + i) = s.getD i 0 := by
  unfold store
  rw [if_pos ⟨by omega, by omega⟩, Nat.add_sub_cancel_left]

/-- The array `out` of `size` characters and the running offset.  Two fields only
observe: the offsets at which `snprintf` was called so far, and one more than the
highest index written so far. -/
structure OutBuf where
  size : Nat
  cells : Nat → Byte
  oi : Nat
  calls : List Nat
  hi : Nat

namespace OutBuf

/-- An array nothing has been written to. -/
def new (size : Nat) (cells : Nat → Byte) : OutBuf := ⟨size, cells, 0, [], 0⟩

/-- Store the bytes of `s` from index `i` on. -/
def write (b : OutBuf) (i : Nat) (s : Text) : OutBuf :=
  { b with cells := store b.cells i s, hi := max b.hi (i + s.length) }

/-- `oi += snprintf(out + oi, out_size - oi, s)`. -/
def snprintf (b : OutBuf) (s : Text) : OutBuf :=
  let n := sizeSub b.size b.oi
  let b' := if n = 0 then b else b.write b.oi (s.take (n - 1) ++ [0])
  { b' with oi := b.oi + s.length, calls := b.oi :: b.calls }

/-- `if (oi < out_size) oi += snprintf(out + oi, out_size - oi, s)`. -/
def append (b : OutBuf) (s : Text) : OutBuf :=
  if b.oi < b.size then b.snprintf s else b

/-- `memcpy(out + oi, s, n); oi += n`. -/
def memcpy (b : OutBuf) (s : Text) : OutBuf :=
  { b.write b.oi s with oi := b.oi + s.length }

/-- `out[oi++] = c`. -/
def putc (b : OutBuf) (c : Byte) : OutBuf := b.memcpy [c]

/-- `if (oi < out_size) out[oi] = 0; else out[out_size - 1] = 0`. -/
def terminate (b : OutBuf) : OutBuf :=
  if b.oi < b.size then b.write b.oi [0] else b.write (b.size - 1) [0]

/-- What an array of `n` cells keeps of a text. -/
def cut (n : Nat) (t : Text) : Text := cstr (t.take (n - 1))

theorem clean_cut {t : Text} (h : Clean t) (n : Nat) : Clean (cut n t) := (h.take _).cstr

theorem cut_of_lt {n : Nat} {t : Text} (hz : ∀ c ∈ t, c ≠ 0) (hlen : t.length < n) :
    cut n t = t := by
  rw [cut, List.take_of_length_le (by omega), cstr_of_forall_ne_zero hz]

/-- A first part that fits is kept whole. -/
theorem cut_append {n : Nat} {s : Text} (hs : ∀ c ∈ s, c ≠ 0) (hlen : s.length ≤ n - 1)
    (t : Text) : cut n (s ++ t) = s ++ cut (n - s.length) t := by
  unfold cut cstr
  rw [List.take_append, List.take_of_length_le hlen,
    List.takeWhile_append_of_pos (by simpa using hs), Nat.sub_right_comm]

/-- The C string the array holds. -/
def str (b : OutBuf) : Text := cstr ((List.range b.size).map b.cells)

theorem str_ne_zero {b : OutBuf} {c : Byte} (h : c ∈ b.str) : c ≠ 0 := cstr_ne_zero h

@[simp] theorem new_size (n : Nat) (c : Nat → Byte) : (new n c).size = n := rfl
@[simp] theorem new_oi (n : Nat) (c : Nat → Byte) : (new n c).oi = 0 := rfl
@[simp] theorem new_calls (n : Nat) (c : Nat → Byte) : (new n c).calls = [] := rfl
@[simp] theorem new_cells (n : Nat) (c : Nat → Byte) : (new n c).cells = c := rfl
@[simp] theorem new_hi (n : Nat) (c : Nat → Byte) : (new n c).hi = 0 := rfl
@[simp] theorem snprintf_oi (b : OutBuf) (s : Text) :
    (b.snprintf s).oi = b.oi + s.length := rfl
@[simp] theorem snprintf_calls (b : OutBuf) (s : Text) :
    (b.snprintf s).calls = b.oi :: b.calls := rfl

@[simp] theorem snprintf_size (b : OutBuf) (s : Text) : (b.snprintf s).size = b.size := by
  unfold snprintf
  dsimp only
  split <;> rfl

@[simp] theorem append_size (b : OutBuf) (s : Text) : (b.append s).size = b.size := by
  unfold append
  split
  · exact snprintf_size b s
  · rfl

/-- Where there is room after an append there was room before it. -/
theorem lt_of_append {b : OutBuf} {s : Text} (h : (b.append s).oi < b.size) : b.oi < b.size := by
  unfold append at h
  split at h
  · assumption
  · exact h

/-- Every `snprintf` started at an offset no greater than `out_size`. -/
def Bounded (b : OutBuf) : Prop := ∀ o ∈ b.calls, o ≤ b.size

@[simp] theorem bounded_new (n : Nat) (c : Nat → Byte) : (new n c).Bounded := by
  simp [Bounded]

theorem bounded_snprintf {b : OutBuf} {s : Text} :
    (b.snprintf s).Bounded ↔ b.oi ≤ b.size ∧ b.Bounded := by
  simp [Bounded]

@[simp] theorem bounded_append {b : OutBuf} {s : Text} : (b.append s).Bounded ↔ b.Bounded := by
  unfold append
  split
  · rename_i h
    rw [bounded_snprintf]
    exact ⟨And.right, fun hb => ⟨h.le, hb⟩⟩
  · rfl

/-- The array holds the first `size - 1` characters of `t` and a NUL, and the
offset is the length of `t` or both have run past the end. -/
structure Shows (init : Nat → Byte) (b : OutBuf) (t : Text) : Prop where
  small : b.size < 2 ^ 64
  shown : ∀ j, j < t.length → j + 1 < b.size → b.cells j = t.getD j 0
  nul : t ≠ [] → 0 < b.size → b.cells (min t.length (b.size - 1)) = 0
  off : b.oi = t.length ∨ (b.size ≤ b.oi ∧ b.size ≤ t.length)
  high : b.Bounded → b.hi ≤ b.size
  framed : ∀ j, b.hi ≤ j → b.cells j = init j

variable {init : Nat → Byte} {b : OutBuf} {t s : Text}

theorem shows_new {n : Nat} (h : n < 2 ^ 64) (init : Nat → Byte) :
    Shows init (new n init) [] where
  small := h
  shown := by simp
  nul := by simp
  off := Or.inl rfl
  high := fun _ => Nat.zero_le _
  framed := fun _ _ => rfl

namespace Shows

theorem oi_eq (h : Shows init b t) (hlt : b.oi < b.size) : b.oi = t.length := by
  rcases h.off with h | h
  · exact h
  · omega

/-- A text that runs past the end can be extended without touching the array. -/
theorem extend (h : Shows init b t) (hfull : b.size ≤ b.oi) (s : Text) :
    Shows init b (t ++ s) where
  small := h.small
  shown := by
    intro j _ hj
    have hlen : b.size ≤ t.length := by rcases h.off with h | h <;> omega
    rw [h.shown j (by omega) hj, List.getD_append _ _ _ _ (by omega)]
  nul := by
    intro _ hpos
    have hlen : b.size ≤ t.length := by rcases h.off with h | h <;> omega
    have hne : t ≠ [] := List.ne_nil_of_length_pos (by omega)
    have hmin : min (t ++ s).length (b.size - 1) = min t.length (b.size - 1) := by
      rw [List.length_append]; omega
    rw [hmin]
    exact h.nul hne hpos
  off := by
    rw [List.length_append]
    rcases h.off with h | h <;> omega
  high := h.high
  framed := h.framed

/-- An array without cells shows every text. -/
theorem of_size_zero (h : Shows init b t) (hsize : b.size = 0) (s : Text) : Shows init b s where
  small := h.small
  shown := fun j _ hj => absurd hj (by omega)
  nul := fun _ hpos => absurd hpos (by omega)
  off := Or.inr (by omega)
  high := h.high
  framed := h.framed

/-- The store of one `snprintf` that still finds room. -/
theorem snprintf_eq (h : Shows init b t) (hlt : b.oi < b.size) :
    b.snprintf s =
      { b.write t.length (s.take (b.size - t.length - 1) ++ [0]) with
        oi := t.length + s.length, calls := t.length :: b.calls } := by
  have hoi := h.oi_eq hlt
  have hn : sizeSub b.size t.length = b.size - t.length :=
    sizeSub_of_le h.small (by omega)
  simp only [OutBuf.snprintf, hoi, hn]
  rw [if_neg (by omega)]

/-- One `snprintf` with room appends its text. -/
theorem snprintf_of_lt (h : Shows init b t) (hlt : b.oi < b.size) (s : Text) :
    Shows init (b.snprintf s) (t ++ s) where
  small := by rw [snprintf_size]; exact h.small
  shown := by
    intro j hj hsz
    simp only [snprintf_size] at hsz
    simp only [h.snprintf_eq hlt, OutBuf.write]
    by_cases hjt : j < t.length
    · rw [store_of_lt (Or.inl hjt), List.getD_append _ _ _ _ hjt]
      exact h.shown j hjt hsz
    · obtain ⟨i, rfl⟩ := Nat.exists_eq_add_of_le (Nat.le_of_not_lt hjt)
      rw [List.length_append] at hj
      have hi : i < (s.take (b.size - t.length - 1)).length := by
        rw [List.length_take]; omega
      rw [store_at (by rw [List.length_append]; omega), List.getD_append _ _ _ _ hi,
        List.getD_append_right _ _ _ _ (by omega), Nat.add_sub_cancel_left]
      rw [List.getD_eq_getElem?_getD, List.getD_eq_getElem?_getD,
        List.getElem?_take_of_lt (by omega)]
  nul := by
    intro _ _
    have hoi := h.oi_eq hlt
    have hidx : min (t ++ s).length ((b.snprintf s).size - 1) =
        t.length + (s.take (b.size - t.length - 1)).length := by
      rw [List.length_append, List.length_take, snprintf_size]; omega
    rw [hidx]
    simp only [h.snprintf_eq hlt, OutBuf.write]
    rw [store_at (by simp)]
    rw [List.getD_append_right _ _ _ _ (le_refl _), Nat.sub_self]
    rfl
  off := by
    left
    rw [snprintf_oi, List.length_append, h.oi_eq hlt]
  high := by
    intro hbd
    have hhi := h.high (bounded_snprintf.mp hbd).2
    have hoi := h.oi_eq hlt
    rw [snprintf_size]
    simp only [h.snprintf_eq hlt, OutBuf.write, List.length_append, List.length_take,
      List.length_singleton]
    omega
  framed := by
    intro j hj
    simp only [h.snprintf_eq hlt, OutBuf.write] at hj ⊢
    rw [store_of_lt (by omega)]
    exact h.framed j (by omega)

/-- One `snprintf` appends its text, whether or not it was guarded: without room
it leaves every cell inside the array alone. -/
theorem snprintf (h : Shows init b t) (s : Text) : Shows init (b.snprintf s) (t ++ s) := by
  rcases Nat.lt_or_ge b.oi b.size with hlt | hge
  · exact h.snprintf_of_lt hlt s
  · have hx := h.extend hge s
    have hcells : ∀ j, j < b.oi ∨ (b.snprintf s).hi ≤ j →
        (b.snprintf s).cells j = b.cells j := by
      intro j hj
      simp only [OutBuf.snprintf, OutBuf.write] at hj ⊢
      split
      · rfl
      · rename_i hn
        rw [if_neg hn] at hj
        exact store_of_lt (by simp only at hj; omega)
    have hhi : b.hi ≤ (b.snprintf s).hi := by
      simp only [OutBuf.snprintf, OutBuf.write]
      split
      · exact le_refl _
      · exact le_max_left _ _
    refine ⟨by rw [snprintf_size]; exact hx.small, ?_, ?_, ?_, ?_, ?_⟩
    · intro j hj hsz
      rw [snprintf_size] at hsz
      rw [hcells j (by omega)]
      exact hx.shown j hj hsz
    · intro hne hpos
      rw [snprintf_size] at hpos ⊢
      rw [hcells _ (by omega)]
      exact hx.nul hne hpos
    · rw [List.length_append, snprintf_oi, snprintf_size]
      rcases h.off with h | h <;> omega
    · -- a bounded call without room starts exactly at `out_size`, where `n = 0`
      intro hbd
      rw [bounded_snprintf] at hbd
      have hz : sizeSub b.size b.oi = 0 := by
        rw [sizeSub_of_le h.small hbd.1]; omega
      rw [snprintf_size]
      simp only [OutBuf.snprintf, hz, if_true]
      exact h.high hbd.2
    · intro j hj
      rw [hcells j (Or.inr hj)]
      exact h.framed j (by omega)

/-- A guarded append keeps the relation too. -/
theorem append (h : Shows init b t) (s : Text) : Shows init (b.append s) (t ++ s) := by
  unfold OutBuf.append
  split
  · exact h.snprintf s
  · rename_i hge
    exact h.extend (Nat.le_of_not_lt hge) s

/-- The string left in the array is the text cut to `size - 1` characters, and ends at
the first NUL of it. -/
theorem str_eq_cut (h : Shows init b t) (hpos : 0 < b.size) (hne : t ≠ []) :
    b.str = cut b.size t := by
  set k := min t.length (b.size - 1) with hk
  have htk : (t.take (b.size - 1)).length = k := by rw [List.length_take]; omega
  have hsplit : (List.range b.size).map b.cells =
      t.take (b.size - 1) ++ 0 :: ((List.range b.size).map b.cells).drop (k + 1) := by
    refine List.ext_getElem ?_ ?_
    · simp only [List.length_map, List.length_range, List.length_append, htk,
        List.length_cons, List.length_drop]
      omega
    · intro j h₁ h₂
      simp only [List.length_map, List.length_range] at h₁
      simp only [List.getElem_map, List.getElem_range]
      rcases Nat.lt_trichotomy j k with hj | hj | hj
      · rw [List.getElem_append_left (by omega), List.getElem_take]
        rw [h.shown j (by omega) (by omega), List.getD_eq_getElem _ _ (by omega)]
      · subst hj
        rw [List.getElem_append_right (by omega)]
        simp only [htk, Nat.sub_self, List.getElem_cons_zero]
        exact h.nul hne hpos
      · rw [List.getElem_append_right (by omega)]
        obtain ⟨i, rfl⟩ := Nat.exists_eq_add_of_lt hj
        have : k + i + 1 - (t.take (b.size - 1)).length = i + 1 := by omega
        simp only [this, List.getElem_cons_succ, List.getElem_drop, List.getElem_map,
          List.getElem_range]
        congr 1
        omega
  unfold OutBuf.str cut
  rw [hsplit, cstr_append_zero]

/-- The same for a text that holds no NUL. -/
theorem str_eq (h : Shows init b t) (hpos : 0 < b.size) (hne : t ≠ [])
    (hz : ∀ c ∈ t, c ≠ 0) : b.str = t.take (b.size - 1) := by
  rw [h.str_eq_cut hpos hne]
  exact cstr_of_forall_ne_zero fun c hc => hz c (List.mem_of_mem_take hc)

end Shows

/-! ## Guarded chains -/

/-- The array shows `t`, and every call so far was bounded. -/
structure Renders (init : Nat → Byte) (b : OutBuf) (t : Text) : Prop extends Shows init b t where
  bounded : b.Bounded

theorem renders_new {n : Nat} (h : n < 2 ^ 64) (init : Nat → Byte) :
    Renders init (new n init) [] :=
  ⟨shows_new h init, bounded_new n init⟩

namespace Renders

theorem snprintf (h : Renders init b t) (hle : b.oi ≤ b.size) (s : Text) :
    Renders init (b.snprintf s) (t ++ s) :=
  ⟨h.toShows.snprintf s, bounded_snprintf.mpr ⟨hle, h.bounded⟩⟩

theorem append (h : Renders init b t) (s : Text) : Renders init (b.append s) (t ++ s) :=
  ⟨h.toShows.append s, bounded_append.mpr h.bounded⟩

theorem extend (h : Renders init b t) (hfull : ¬ b.oi < b.size) (s : Text) :
    Renders init b (t ++ s) :=
  ⟨h.toShows.extend (Nat.le_of_not_lt hfull) s, h.bounded⟩

/-- An optional guarded append. -/
theorem append_if (h : Renders init b t) (c : Prop) [Decidable c] (s : Text) :
    Renders init (if c then b.append s else b) (t ++ if c then s else []) := by
  split
  · exact h.append s
  · rw [List.append_nil]
    exact h

end Renders

/-- `p`, started on an array nothing has been written to, fills it with `t`: at every
size the array shows `t` and no call is out of bounds. -/
structure Prints (p : OutBuf → OutBuf) (t : Text) : Prop where
  renders : ∀ (n : Nat) (init : Nat → Byte), n < 2 ^ 64 → Renders init (p (new n init)) t
  size : ∀ (n : Nat) (init : Nat → Byte), (p (new n init)).size = n

theorem prints_snprintf (s : Text) : Prints (·.snprintf s) s where
  renders := fun _ init h => (renders_new h init).snprintf (Nat.zero_le _) s
  size := fun _ _ => snprintf_size _ _

namespace Prints

variable {p : OutBuf → OutBuf}

theorem str_eq (h : Prints p t) {n : Nat} (hn : n < 2 ^ 64) (hpos : 0 < n) (hne : t ≠ [])
    (hz : ∀ c ∈ t, c ≠ 0) (init : Nat → Byte) : (p (new n init)).str = t.take (n - 1) := by
  have hr := (h.renders n init hn).toShows.str_eq (by rw [h.size]; exact hpos) hne hz
  rw [hr, h.size]

theorem str_eq_cut (h : Prints p t) {n : Nat} (hn : n < 2 ^ 64) (hpos : 0 < n) (hne : t ≠ [])
    (init : Nat → Byte) : (p (new n init)).str = cut n t := by
  have hr := (h.renders n init hn).toShows.str_eq_cut (by rw [h.size]; exact hpos) hne
  rw [hr, h.size]

/-- A text that fits is left in the array whole. -/
theorem str_of_lt (h : Prints p t) {n : Nat} (hn : n < 2 ^ 64) (hlt : t.length < n) (hne : t ≠ [])
    (hz : ∀ c ∈ t, c ≠ 0) (init : Nat → Byte) : (p (new n init)).str = t := by
  rw [h.str_eq hn (by omega) hne hz, List.take_of_length_le (by omega)]

/-- A text without control bytes is cut to a text without control bytes. -/
theorem clean_str (h : Prints p t) (ht : Plain t) {n : Nat} (hn : n < 2 ^ 64) (hpos : 0 < n)
    (init : Nat → Byte) : Clean (p (new n init)).str := by
  rw [h.str_eq hn hpos ht.ne_nil (fun c hm => ht.clean.ne_zero hm) init]
  exact ht.clean.take _

end Prints

/-- What `p` prints is plain. -/
def PrintsPlain (p : OutBuf → OutBuf) : Prop := ∃ t, Prints p t ∧ Plain t

theorem printsPlain_snprintf {t : Text} (h : Plain t) : PrintsPlain (·.snprintf t) :=
  ⟨t, prints_snprintf t, h⟩

theorem PrintsPlain.clean_str {p : OutBuf → OutBuf} (h : PrintsPlain p) {n : Nat} (hn : n < 2 ^ 64)
    (hpos : 0 < n) (init : Nat → Byte) : Clean (p (new n init)).str := by
  obtain ⟨t, hp, ht⟩ := h
  exact hp.clean_str ht hn hpos init

/-! ## Calls that start inside the array -/

/-- Every `snprintf` started inside the array, so that its size argument was positive. -/
def Tight (b : OutBuf) : Prop := ∀ o ∈ b.calls, o < b.size

theorem tight_new (n : Nat) (init : Nat → Byte) : (new n init).Tight := by
  simp [Tight]

theorem Tight.bounded (h : b.Tight) : b.Bounded := fun o ho => (h o ho).le

theorem Tight.snprintf (h : b.Tight) (hlt : b.oi < b.size) (s : Text) : (b.snprintf s).Tight := by
  intro o ho
  rw [snprintf_calls, List.mem_cons] at ho
  rw [snprintf_size]
  rcases ho with rfl | ho
  · exact hlt
  · exact h o ho

theorem Tight.append (h : b.Tight) (s : Text) : (b.append s).Tight := by
  unfold OutBuf.append
  split
  · exact h.snprintf ‹_› s
  · exact h

/-- The array shows `t`, and every call so far started inside it. -/
structure Guarded (init : Nat → Byte) (b : OutBuf) (t : Text) : Prop extends Shows init b t where
  tight : b.Tight

namespace Guarded

theorem snprintf (h : Guarded init b t) (hlt : b.oi < b.size) (s : Text) :
    Guarded init (b.snprintf s) (t ++ s) :=
  ⟨h.toShows.snprintf s, h.tight.snprintf hlt s⟩

theorem append (h : Guarded init b t) (s : Text) : Guarded init (b.append s) (t ++ s) :=
  ⟨h.toShows.append s, h.tight.append s⟩

theorem extend (h : Guarded init b t) (hfull : ¬ b.oi < b.size) (s : Text) :
    Guarded init b (t ++ s) :=
  ⟨h.toShows.extend (Nat.le_of_not_lt hfull) s, h.tight⟩

theorem append_if (h : Guarded init b t) (c : Prop) [Decidable c] (s : Text) :
    Guarded init (if c then b.append s else b) (t ++ if c then s else []) := by
  split
  · exact h.append s
  · rw [List.append_nil]
    exact h

end Guarded

/-- `p`, started on an array of `k` or more cells nothing has been written to, fills it
with `t`, and every call starts inside the array. -/
structure Fills (k : Nat) (p : OutBuf → OutBuf) (t : Text) : Prop where
  guarded : ∀ (n : Nat) (init : Nat → Byte), k ≤ n → n < 2 ^ 64 → Guarded init (p (new n init)) t
  size : ∀ (n : Nat) (init : Nat → Byte), (p (new n init)).size = n

/-- The first print into an array. -/
theorem guarded_snprintf {n : Nat} (hpos : 0 < n) (hn : n < 2 ^ 64) (init : Nat → Byte) (s : Text) :
    Guarded init ((new n init).snprintf s) s := by
  have h : Guarded init (new n init) [] := ⟨shows_new hn init, tight_new n init⟩
  exact h.snprintf hpos s

theorem fills_snprintf (s : Text) : Fills 1 (·.snprintf s) s where
  guarded := fun _ init hpos hn => guarded_snprintf hpos hn init s
  size := fun _ _ => snprintf_size _ _

namespace Fills

variable {k : Nat} {p : OutBuf → OutBuf}

theorem mono (h : Fills k p t) {k' : Nat} (hk : k ≤ k') : Fills k' p t :=
  ⟨fun n init hn => h.guarded n init (le_trans hk hn), h.size⟩

/-- Going on with `q`, which takes an array that shows `t` to one that shows `t'`.
Chains are put together with this rule and `append`: unfolding a chain of `snprintf`
calls makes the kernel compute with sizes. -/
theorem bind (h : Fills k p t) {q : OutBuf → OutBuf} {t' : Text}
    (hq : ∀ init b, Guarded init b t → Guarded init (q b) t') (hsize : ∀ b, (q b).size = b.size) :
    Fills k (fun out => q (p out)) t' :=
  ⟨fun n init hk hn => hq init _ (h.guarded n init hk hn),
    fun n init => (hsize _).trans (h.size n init)⟩

theorem append (h : Fills k p t) (s : Text) : Fills k (fun out => (p out).append s) (t ++ s) :=
  h.bind (fun _ _ hb => hb.append s) fun b => append_size b s

theorem append_if (h : Fills k p t) (c : Prop) [Decidable c] (s : Text) :
    Fills k (fun out => if c then (p out).append s else p out) (t ++ if c then s else []) := by
  split
  · exact h.append s
  · rw [List.append_nil]
    exact h

theorem str_eq_cut (h : Fills k p t) {n : Nat} (hk : k ≤ n) (hn : n < 2 ^ 64) (hpos : 0 < n)
    (hne : t ≠ []) (init : Nat → Byte) : (p (new n init)).str = cut n t := by
  have hs := (h.guarded n init hk hn).toShows.str_eq_cut (by rw [h.size]; exact hpos) hne
  rw [hs, h.size]

theorem clean_str (h : Fills k p t) (ht : Plain t) {n : Nat} (hk : k ≤ n) (hn : n < 2 ^ 64)
    (hpos : 0 < n) (init : Nat → Byte) : Clean (p (new n init)).str := by
  rw [h.str_eq_cut hk hn hpos ht.ne_nil]
  exact clean_cut ht.clean n

end Fills

/-! ## Clean truncation -/

/-- What an array of `size` cells holds after a text was printed into it: nothing was
written from `size` on, no size argument wrapped, and an array with cells holds the first
`size - 1` characters of the text and a NUL. -/
structure Truncates (init : Nat → Byte) (b : OutBuf) (size : Nat) (t : Text) : Prop where
  inside : b.hi ≤ size
  framed : ∀ j, size ≤ j → b.cells j = init j
  noWrap : ∀ o ∈ b.calls, o ≤ size
  holds : 0 < size →
    (List.range ((t.take (size - 1)).length + 1)).map b.cells = t.take (size - 1) ++ [0]

theorem Renders.truncates (h : Renders init b t) (hne : t ≠ []) : Truncates init b b.size t := by
  have hhi := h.high h.bounded
  refine ⟨hhi, fun j hj => h.framed j (le_trans hhi hj), h.bounded, fun hpos => ?_⟩
  refine List.ext_getElem (by simp) fun j h₁ h₂ => ?_
  rw [List.length_append, List.length_singleton, List.length_take] at h₂
  rw [List.getElem_map, List.getElem_range]
  by_cases hj : j < (t.take (b.size - 1)).length
  · rw [List.getElem_append_left hj, List.getElem_take]
    rw [List.length_take] at hj
    rw [h.shown j (by omega) (by omega), List.getD_eq_getElem _ _ (by omega)]
  · rw [List.getElem_append_right (Nat.le_of_not_lt hj), List.getElem_singleton]
    rw [List.length_take] at hj
    have hlast : j = min t.length (b.size - 1) := by omega
    rw [hlast]
    exact h.nul hne hpos

theorem Prints.truncates {p : OutBuf → OutBuf} (h : Prints p t) (hne : t ≠ []) {n : Nat}
    (hn : n < 2 ^ 64) (init : Nat → Byte) : Truncates init (p (new n init)) n t := by
  have ht := (h.renders n init hn).truncates hne
  rwa [h.size] at ht

theorem Fills.truncates {k : Nat} {p : OutBuf → OutBuf} (h : Fills k p t) (hne : t ≠ []) {n : Nat}
    (hk : k ≤ n) (hn : n < 2 ^ 64) (init : Nat → Byte) :
    Truncates init (p (new n init)) n t ∧ ∀ o ∈ (p (new n init)).calls, o < n := by
  have hg := h.guarded n init hk hn
  have hr : Renders init (p (new n init)) t := ⟨hg.toShows, hg.tight.bounded⟩
  have ht := hr.truncates hne
  have htight := hg.tight
  rw [Tight, h.size] at htight
  rw [h.size] at ht
  exact ⟨ht, htight⟩

/-! ## Character by character -/

/-- The array holds all of `t`, and no write went past its end. -/
structure Filled (b : OutBuf) (t : Text) : Prop where
  small : b.size < 2 ^ 64
  off : b.oi = t.length
  room : t.length ≤ b.size
  shown : ∀ j, j < t.length → b.cells j = t.getD j 0
  high : b.hi ≤ b.size

theorem filled_new {n : Nat} (h : n < 2 ^ 64) (init : Nat → Byte) : Filled (new n init) [] where
  small := h
  off := rfl
  room := Nat.zero_le _
  shown := by simp
  high := Nat.zero_le _

namespace Filled

/-- Storing at the end of the text, with room for it, extends the text. -/
theorem store_eq (h : Filled b t) {c : Text} {j : Nat} (hj : j < (t ++ s).length)
    (hs : ∀ i, i < s.length → c.getD i 0 = s.getD i 0) (hc : s.length ≤ c.length) :
    store b.cells b.oi c j = (t ++ s).getD j 0 := by
  rw [h.off]
  by_cases hjt : j < t.length
  · rw [store_of_lt (Or.inl hjt), List.getD_append _ _ _ _ hjt]
    exact h.shown j hjt
  · obtain ⟨i, rfl⟩ := Nat.exists_eq_add_of_le (Nat.le_of_not_lt hjt)
    rw [List.length_append] at hj
    rw [store_at (by omega), List.getD_append_right _ _ _ _ (by omega),
      Nat.add_sub_cancel_left]
    exact hs i (by omega)

theorem memcpy (h : Filled b t) (hroom : b.oi + s.length ≤ b.size) :
    Filled (b.memcpy s) (t ++ s) where
  small := h.small
  off := by simp [OutBuf.memcpy, h.off]
  room := by
    have := h.off
    simp only [OutBuf.memcpy, OutBuf.write, List.length_append]
    omega
  shown := fun j hj => h.store_eq hj (fun _ _ => rfl) (le_refl _)
  high := max_le h.high hroom

theorem putc (h : Filled b t) (c : Byte) (hroom : b.oi < b.size) :
    Filled (b.putc c) (t ++ [c]) :=
  h.memcpy hroom

/-- An `snprintf` whose text and NUL both fit. -/
theorem snprintf (h : Filled b t) (hroom : b.oi + s.length < b.size) :
    Filled (b.snprintf s) (t ++ s) := by
  have hn : sizeSub b.size b.oi = b.size - b.oi := sizeSub_of_le h.small (by omega)
  have hout : b.snprintf s = { b.write b.oi (s ++ [0]) with
      oi := b.oi + s.length, calls := b.oi :: b.calls } := by
    simp only [OutBuf.snprintf, hn]
    rw [if_neg (by omega), List.take_of_length_le (by omega)]
  rw [hout]
  refine ⟨h.small, by simp [h.off], ?_, fun j hj => h.store_eq hj ?_ (by simp), ?_⟩
  · have := h.off
    simp only [OutBuf.write, List.length_append]
    omega
  · intro i hi
    exact List.getD_append _ _ _ _ hi
  · simp only [OutBuf.write, List.length_append, List.length_singleton]
    exact max_le h.high (by omega)

/-- The NUL that ends the text: after the last character when there is room,
over the last cell of a full array otherwise. -/
theorem str_terminate (h : Filled b t) (hpos : 0 < b.size) (hz : ∀ c ∈ t, c ≠ 0) :
    b.terminate.str = t.take (b.size - 1) ∧ b.terminate.hi ≤ b.size := by
  set k := min t.length (b.size - 1) with hk
  have hroom := h.room
  have hterm : b.terminate = b.write k [0] := by
    unfold OutBuf.terminate
    rw [h.off]
    split
    · rw [show k = t.length by omega]
    · rw [show k = b.size - 1 by omega]
  have hk1 : k + 1 ≤ b.size := by omega
  have hnul : store b.cells k [0] k = 0 := @store_at b.cells k [0] 0 Nat.one_pos
  refine ⟨?_, by rw [hterm]; exact max_le h.high hk1⟩
  rw [hterm]
  by_cases hne : t = []
  · subst hne
    obtain ⟨n, hn⟩ : ∃ n, b.size = n + 1 := ⟨b.size - 1, by omega⟩
    have h0 : k = 0 := by simp [hk]
    rw [h0] at hnul ⊢
    simp [OutBuf.str, OutBuf.write, hn, List.range_succ_eq_map, cstr, hnul]
  · have hsh : Shows b.cells { b.write k [0] with oi := t.length, calls := [] } t := by
      refine ⟨h.small, ?_, fun _ _ => hnul, Or.inl rfl, fun _ => max_le h.high hk1, ?_⟩
      · intro j hj hsz
        simp only [OutBuf.write] at hsz ⊢
        rw [store_of_lt (by omega)]
        exact h.shown j hj
      · intro j hj
        simp only [OutBuf.write, List.length_singleton] at hj ⊢
        exact store_of_lt (by simp only [List.length_singleton]; omega)
    exact hsh.str_eq hpos hne hz

end Filled

/-! ## Bounds alone -/

/-- An array of `n` cells, with the offset and all writes so far inside it. -/
structure Within (n : Nat) (b : OutBuf) : Prop where
  small : n < 2 ^ 64
  size_eq : b.size = n
  off : b.oi ≤ n
  high : b.hi ≤ n

/-- No write went past the end of the `n` cells, and one of them is a NUL. -/
structure Terminated (n : Nat) (b : OutBuf) : Prop where
  high : b.hi ≤ n
  nul : ∃ i, i < n ∧ b.cells i = 0

section Bounds

variable {n : Nat}

theorem within_new (h : n < 2 ^ 64) (init : Nat → Byte) : Within n (new n init) where
  small := h
  size_eq := rfl
  off := Nat.zero_le n
  high := Nat.zero_le n

theorem Within.memcpy (h : Within n b) (hroom : b.oi + s.length ≤ n) : Within n (b.memcpy s) where
  small := h.small
  size_eq := h.size_eq
  off := hroom
  high := max_le h.high hroom

/-- A write that looks for room first. -/
theorem Within.memcpy_if (h : Within n b) {c : Prop} [Decidable c]
    (hroom : c → b.oi + s.length ≤ n) : Within n (if c then b.memcpy s else b) := by
  split
  · exact h.memcpy (hroom ‹_›)
  · exact h

theorem Within.snprintf (h : Within n b) (hroom : b.oi + s.length < n) :
    Within n (b.snprintf s) := by
  have hsub : sizeSub b.size b.oi = n - b.oi := by
    rw [h.size_eq]
    exact sizeSub_of_le h.small h.off
  have hout : b.snprintf s = { b.write b.oi (s ++ [0]) with
      oi := b.oi + s.length, calls := b.oi :: b.calls } := by
    simp only [OutBuf.snprintf, hsub]
    rw [if_neg (by omega), List.take_of_length_le (by omega)]
  rw [hout]
  refine ⟨h.small, h.size_eq, hroom.le, max_le h.high ?_⟩
  rw [List.length_append, List.length_singleton]
  omega

theorem Within.terminate (h : Within n b) (hpos : 0 < n) : Terminated n b.terminate := by
  have hnul : ∀ k, (b.write k [0]).cells k = 0 := fun k => @store_at b.cells k [0] 0 Nat.one_pos
  have hwrite : ∀ k, k < n → Terminated n (b.write k [0]) := fun k hk =>
    ⟨max_le h.high hk, k, hk, hnul k⟩
  unfold OutBuf.terminate
  rw [h.size_eq]
  split
  · exact hwrite _ ‹_›
  · exact hwrite _ (by omega)

/-- One `snprintf` into a fresh array, however small. -/
theorem terminated_snprintf (hpos : 0 < n) (hn : n < 2 ^ 64) (init : Nat → Byte) (hs : s ≠ []) :
    Terminated n ((new n init).snprintf s) := by
  have hshows := (shows_new hn init).snprintf s
  have hsize : ((new n init).snprintf s).size = n := snprintf_size _ _
  have hbounded : ((new n init).snprintf s).Bounded :=
    bounded_snprintf.mpr ⟨Nat.zero_le n, bounded_new n init⟩
  rw [List.nil_append] at hshows
  have hnul := hshows.nul hs (by omega)
  have hhigh := hshows.high hbounded
  rw [hsize] at hnul hhigh
  exact ⟨hhigh, _, by omega, hnul⟩

end Bounds

end OutBuf

end CLib
