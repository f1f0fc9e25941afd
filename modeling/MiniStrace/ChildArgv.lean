/-
  ChildArgv.lean --- which pointer arrays `read_child_argv` lists without a gap.

  THE LISTING.  An array is shown as the strings it points to, between brackets and with
  separators, and dots say that it goes on.

  THE ROOM.  A separator is appended when it fits and a string is appended when it fits,
  each on its own.  So a string that is too long leaves its separator behind, and a later
  and shorter string may still be shown.  The dots are appended once 32 pointers were used,
  whether or not there is another.  The text is a listing exactly when all strings of the
  first 32 pointers fit, the dots fit where they are owed, and they do not fit where 32
  pointers are all there is.
-/
import MiniStrace.ChildText
import MiniStrace.Lib.Listing

set_option autoImplicit false

namespace MiniStrace

open CLib OutBuf

/-! ## The text of the loop -/

/-- What one item adds behind `oi` characters. -/
def argvItemText (size oi : Nat) (first : Bool) (item : Text) : Text :=
  let sep := if first = false ∧ oi + 2 < size then lit ", " else []
  sep ++ if oi + sep.length + item.length < size then item else []

/-- The dots and the bracket. -/
def argvEnd (size oi : Nat) (truncated : Bool) : Text :=
  let dots := if truncated = true ∧ oi + 5 < size then lit ", ..." else []
  dots ++ if oi + dots.length + 1 < size then lit "]" else []

/-- What the items and the end add. -/
def argvBody (size : Nat) (truncated : Bool) : Nat → Bool → List Text → Text
  | oi, _, [] => argvEnd size oi truncated
  | oi, first, item :: items =>
      argvItemText size oi first item ++
        argvBody size truncated (oi + (argvItemText size oi first item).length) false items

section Body

variable {size oi : Nat} {truncated : Bool}

/-- The item and its separator both fit. -/
theorem argvItemText_of_fits {first : Bool} {item : Text}
    (h : oi + (sepItems first [item]).length < size) :
    argvItemText size oi first item = sepItems first [item] := by
  unfold argvItemText
  cases first with
  | true =>
      simp only [sepItems, if_true, List.nil_append, List.append_nil] at h ⊢
      simp [h]
  | false =>
      simp only [sepItems, lit_sep, Bool.false_eq_true, if_false, List.append_nil,
        List.length_append, List.length_cons, List.length_nil] at h ⊢
      rw [if_pos ⟨trivial, by omega⟩,
        if_pos (by simp only [List.length_cons, List.length_nil]; omega)]

/-- Only the separator fits. -/
theorem argvItemText_of_sep {item : Text} (hsep : oi + 2 < size)
    (hitem : size ≤ oi + 2 + item.length) : argvItemText size oi false item = lit ", " := by
  unfold argvItemText
  simp only [hsep, and_self, if_true, lit_sep, List.length_cons, List.length_nil]
  rw [if_neg (by omega), List.append_nil]

/-- Nothing fits. -/
theorem argvItemText_of_full {item : Text} (hsep : size ≤ oi + 2) (hitem : 2 ≤ item.length) :
    argvItemText size oi false item = [] := by
  unfold argvItemText
  dsimp only
  rw [if_neg (by omega), if_neg (by simp only [List.length_nil]; omega), List.append_nil]

theorem argvItemText_first_of_full {item : Text} (hitem : size ≤ oi + item.length) :
    argvItemText size oi true item = [] := by
  unfold argvItemText
  simp only [Bool.true_eq_false, false_and, if_false, List.nil_append, List.length_nil]
  exact if_neg (by omega)

/-- Once no separator fits, only the end is left. -/
theorem argvBody_of_full (hsep : size ≤ oi + 2) {items : List Text}
    (hlen : ∀ item ∈ items, 2 ≤ item.length) :
    argvBody size truncated oi false items = argvEnd size oi truncated := by
  induction items with
  | nil => rfl
  | cons item items ih =>
      rw [argvBody, argvItemText_of_full hsep (hlen item List.mem_cons_self), List.nil_append]
      exact ih fun item' h => hlen item' (List.mem_cons_of_mem _ h)

/-- Items that fit are all there. -/
theorem argvBody_of_fits {first : Bool} {items : List Text}
    (h : oi + (sepItems first items).length < size) :
    argvBody size truncated oi first items = sepItems first items ++
      argvEnd size (oi + (sepItems first items).length) truncated := by
  induction items generalizing oi first with
  | nil => rfl
  | cons item items ih =>
      rw [sepItems_cons_eq_append, List.length_append] at h
      rw [argvBody, argvItemText_of_fits (by omega), ih (by omega),
        sepItems_cons_eq_append first item items, List.length_append, List.append_assoc,
        Nat.add_assoc]

/-! ## Gaps -/

/-- Nothing, or a text that starts with a comma or with a bracket. -/
def Halts (t : Text) : Prop := ∀ c rest, t = c :: rest → c = 0x2c ∨ c = 0x5d

/-- No item starts here, and this is not the end of a listing that is cut. -/
def Gap (first : Bool) (t : Text) : Prop := Foreign first t ∧ t ≠ lit ", ...]"

theorem lit_cut : lit ", ...]" = lit ", ..." ++ lit "]" := by with_unfolding_all decide

theorem Halts.foreign {t : Text} (h : Halts t) : Foreign true t := by
  rintro item rest ⟨c, cs, rfl, hcomma, -, hclose⟩ heq
  rcases h c (cs ++ rest) (by simpa using heq) with hc | hc
  · exact hcomma hc
  · exact hclose hc

/-- A separator with no item behind it is a gap. -/
theorem Halts.gap {t : Text} (h : Halts t) (first : Bool) : Gap first (lit ", " ++ t) := by
  refine ⟨foreign_sep first h.foreign, fun heq => ?_⟩
  have ht : t = [0x2e, 0x2e, 0x2e, 0x5d] := by
    simpa [lit_cut, lit_more, lit_close, lit_sep] using heq
  rcases h _ _ ht with hc | hc
  · exact absurd hc (by decide)
  · exact absurd hc (by decide)

theorem argvEnd_halts : Halts (argvEnd size oi truncated) := by
  intro c rest h
  unfold argvEnd at h
  simp only [lit_more, lit_close] at h
  split_ifs at h <;> simp_all

theorem argvEnd_foreign (first : Bool) : Foreign first (argvEnd size oi truncated) := by
  unfold argvEnd
  dsimp only
  split
  · exact foreign_more first _
  · split
    · exact foreign_bracket first
    · exact foreign_nil first

/-- Without the dots, the end is no end of a listing that is cut. -/
theorem argvEnd_gap (first : Bool) (h : ¬(truncated = true ∧ oi + 5 < size)) :
    Gap first (argvEnd size oi truncated) := by
  refine ⟨argvEnd_foreign first, fun heq => ?_⟩
  have hlen := congrArg List.length heq
  unfold argvEnd at hlen
  simp only [if_neg h, lit_cut, lit_more, lit_close, List.nil_append] at hlen
  split at hlen
  · simp at hlen
  · simp at hlen

theorem argvBody_halts {items : List Text} (hlen : ∀ item ∈ items, 2 ≤ item.length) :
    Halts (argvBody size truncated oi false items) := by
  by_cases hsep : oi + 2 < size
  · cases items with
    | nil => exact argvEnd_halts
    | cons item items =>
        intro c rest h
        rw [argvBody, argvItemText] at h
        simp only [hsep, and_self, if_true, lit_sep, List.cons_append, List.cons.injEq] at h
        exact .inl h.1.symm
  · rw [argvBody_of_full (by omega) hlen]
    exact argvEnd_halts

/-- Where the items do not all fit, a gap follows the last one that is shown. -/
theorem argvBody_gap {items : List Text} (hlen : ∀ item ∈ items, 2 ≤ item.length)
    (hoi : oi < size) (h : size ≤ oi + (sepItems false items).length) :
    ∃ i < items.length, ∃ t, argvBody size truncated oi false items =
      sepItems false (items.take i) ++ t ∧ Gap false t := by
  induction items generalizing oi with
  | nil =>
      simp only [sepItems, List.length_nil] at h
      omega
  | cons item items ih =>
      have hrest : ∀ item ∈ items, 2 ≤ item.length :=
        fun item' h' => hlen item' (List.mem_cons_of_mem _ h')
      by_cases hfits : oi + (sepItems false [item]).length < size
      · -- the item is shown, and the gap is further on
        rw [sepItems_cons_eq_append, List.length_append, ← Nat.add_assoc] at h
        obtain ⟨i, hi, t, ht, hgap⟩ := ih hrest hfits h
        refine ⟨i + 1, Nat.succ_lt_succ hi, t, ?_, hgap⟩
        rw [argvBody, argvItemText_of_fits hfits, ht, List.take_succ_cons,
          sepItems_cons_eq_append false item (items.take i), List.append_assoc]
      · refine ⟨0, Nat.succ_pos _, _, (List.nil_append _).symm, ?_⟩
        have hwidth : (sepItems false [item]).length = item.length + 2 := length_sepItems [item]
        by_cases hsep : oi + 2 < size
        · rw [argvBody, argvItemText_of_sep hsep (by omega)]
          exact (argvBody_halts hrest).gap false
        · rw [argvBody_of_full (by omega) hlen]
          exact argvEnd_gap false (by omega)

/-- A separator that fits is followed by an item or by a gap, never by the dots. -/
theorem argvBody_ne_more {item : Text} {items : List Text} (hsep : oi + 2 < size)
    (hlen : ∀ item' ∈ item :: items, 2 ≤ item'.length) (hopens : Opens item) :
    argvBody size truncated oi false (item :: items) ≠ lit ", ...]" := by
  have hwidth : (sepItems false [item]).length = item.length + 2 := length_sepItems [item]
  by_cases hfits : oi + (sepItems false [item]).length < size
  · rw [argvBody, argvItemText_of_fits hfits, lit_cut]
    obtain ⟨c, cs, rfl, -, hdot, -⟩ := hopens
    intro heq
    simp only [sepItems, lit_more, lit_sep, Bool.false_eq_true, if_false, List.append_nil,
      List.cons_append, List.nil_append, List.cons.injEq, true_and] at heq
    exact hdot heq.1
  · rw [argvBody, argvItemText_of_sep hsep (by omega)]
    exact ((argvBody_halts fun item' h => hlen item' (List.mem_cons_of_mem _ h)).gap false).2

/-- The same from the start of the listing, where a cut listing has more than one item. -/
theorem argvBody_first_gap {items : List Text} (hlen : ∀ item ∈ items, 2 ≤ item.length)
    (hopens : ∀ item ∈ items, Opens item) (hoi : oi + 2 < size)
    (htruncated : truncated = true → 2 ≤ items.length)
    (h : size ≤ oi + (sepItems true items).length) :
    ∃ i < items.length, ∃ t, argvBody size truncated oi true items =
      sepItems true (items.take i) ++ t ∧ Gap (decide (i = 0)) t := by
  cases items with
  | nil =>
      simp only [sepItems, List.length_nil] at h
      omega
  | cons item items =>
      have hrest : ∀ item ∈ items, 2 ≤ item.length :=
        fun item' h' => hlen item' (List.mem_cons_of_mem _ h')
      rw [sepItems_cons_eq_append, List.length_append, ← Nat.add_assoc] at h
      by_cases hfits : oi + (sepItems true [item]).length < size
      · obtain ⟨i, hi, t, ht, hgap⟩ := argvBody_gap hrest hfits h
        refine ⟨i + 1, Nat.succ_lt_succ hi, t, ?_, by simpa using hgap⟩
        rw [argvBody, argvItemText_of_fits hfits, ht, List.take_succ_cons,
          sepItems_cons_eq_append true item (items.take i), List.append_assoc]
      · have hfull : argvItemText size oi true item = [] := by
          refine argvItemText_first_of_full ?_
          simpa [sepItems] using hfits
        refine ⟨0, Nat.succ_pos _, _, (List.nil_append _).symm, ?_⟩
        rw [argvBody, hfull, List.nil_append]
        refine ⟨(argvBody_halts hrest).foreign, ?_⟩
        cases items with
        | nil =>
            have hwhole : truncated ≠ true := fun ht => by simpa using htruncated ht
            exact (argvEnd_gap true fun hc => hwhole hc.1).2
        | cons next items =>
            exact argvBody_ne_more hoi hrest (hopens next (by simp))

end Body

/-! ## The array the loop fills -/

/-- The array holds the text, with room for a NUL. -/
structure Holding (size : Nat) (out : OutBuf) (t : Text) : Prop where
  filled : out.Filled t
  clean : Clean t
  room : t.length < size
  size_eq : out.size = size

section Buffer

variable {size : Nat} {out : OutBuf} {t : Text}

theorem Holding.memcpy (h : Holding size out t) {s : Text} (hs : Clean s)
    (hroom : out.oi + s.length < out.size) : Holding size (out.memcpy s) (t ++ s) where
  filled := h.filled.memcpy hroom.le
  clean := clean_append.mpr ⟨h.clean, hs⟩
  room := by
    rw [List.length_append, ← h.filled.off, ← h.size_eq]
    exact hroom
  size_eq := h.size_eq

theorem Holding.memcpy_if (h : Holding size out t) {s : Text} (hs : Clean s)
    {c : Prop} [Decidable c] (hroom : c → out.oi + s.length < out.size) :
    Holding size (if c then out.memcpy s else out) (t ++ if c then s else []) := by
  split
  · exact h.memcpy hs (hroom ‹_›)
  · rw [List.append_nil]
    exact h

theorem argvItem_holding (h : Holding size out t) (count : Nat) {item : Text} (hitem : Clean item) :
    Holding size (argvItem out count item)
      (t ++ argvItemText size t.length (decide (count = 0)) item) := by
  have hsep : Holding size
      (if count > 0 ∧ out.oi + 2 < out.size then (out.putc 0x2c).putc 0x20 else out)
      (t ++ if decide (count = 0) = false ∧ t.length + 2 < size then lit ", " else []) := by
    have hiff : (count > 0 ∧ out.oi + 2 < out.size) ↔
        (decide (count = 0) = false ∧ t.length + 2 < size) := by
      rw [h.filled.off, h.size_eq, decide_eq_false_iff_not, gt_iff_lt, Nat.pos_iff_ne_zero]
    by_cases hc : count > 0 ∧ out.oi + 2 < out.size
    · rw [if_pos hc, if_pos (hiff.mp hc)]
      have hroom := hc.2
      have h₁ : Holding size (out.putc 0x2c) (t ++ [0x2c]) :=
        h.memcpy (by decide) (by simp only [List.length_singleton]; omega)
      have h₂ : Holding size ((out.putc 0x2c).putc 0x20) (t ++ [0x2c] ++ [0x20]) :=
        h₁.memcpy (by decide)
          (by simp only [OutBuf.putc, OutBuf.memcpy, OutBuf.write, List.length_singleton]; omega)
      rw [lit_sep]
      simpa using h₂
    · rw [if_neg hc, if_neg fun h => hc (hiff.mpr h), List.append_nil]
      exact h
  have hboth := hsep.memcpy_if hitem id
  rw [hsep.filled.off, hsep.size_eq, List.length_append, List.append_assoc] at hboth
  unfold argvItem argvItemText
  dsimp only
  rw [hsep.filled.off, hsep.size_eq, List.length_append]
  exact hboth

/-- What `read_child_argv` does behind its loop. -/
def argvClose (r : OutBuf × Bool) : OutBuf :=
  let (out, truncated) := r
  let out := if truncated ∧ out.oi + 5 < out.size then out.memcpy (lit ", ...") else out
  let out := if out.oi < out.size then out.putc 0x5d else out
  out.terminate

theorem argvClose_str (h : Holding size out t) (truncated : Bool) :
    (argvClose (out, truncated)).str = t ++ argvEnd size t.length truncated := by
  have hmore : Clean (lit ", ...") := by with_unfolding_all decide
  have hdots := h.memcpy_if hmore (c := truncated = true ∧ out.oi + 5 < out.size)
    fun hc => by rw [lit_more]; exact hc.2
  rw [h.filled.off, h.size_eq] at hdots
  unfold argvClose argvEnd
  dsimp only
  rw [h.filled.off, h.size_eq]
  -- Only the text in front of the bracket matters from here on.
  generalize (if truncated = true ∧ t.length + 5 < size then out.memcpy (lit ", ...") else out)
    = out' at hdots ⊢
  generalize (if truncated = true ∧ t.length + 5 < size then lit ", ..." else []) = dots at hdots ⊢
  have hroom := hdots.room
  have hclose : (out'.putc 0x5d).Filled (t ++ dots ++ [0x5d]) :=
    hdots.filled.putc 0x5d (by rw [hdots.filled.off, hdots.size_eq]; exact hroom)
  have hz : ∀ c ∈ t ++ dots ++ [0x5d], c ≠ 0 := fun c hc =>
    (clean_append.mpr ⟨hdots.clean, by decide⟩ : Clean (t ++ dots ++ [0x5d])).ne_zero hc
  have hsize : (out'.putc 0x5d).size = size := hdots.size_eq
  rw [if_pos (by rw [hdots.filled.off, hdots.size_eq]; exact hroom),
    (hclose.str_terminate (by omega) hz).1, hsize, lit_close]
  rw [List.length_append] at hroom
  split
  · rw [List.take_of_length_le (by simp only [List.length_append, List.length_singleton]; omega),
      List.append_assoc]
  · -- the NUL is written over the bracket
    rw [List.take_append_of_le_length (by simp only [List.length_append]; omega),
      List.take_of_length_le (by simp only [List.length_append]; omega), List.append_nil]

end Buffer

/-! ## The pointers -/

/-- The texts of the strings that `left` passes of the loop come to. -/
def argvReads (host : Host) (m : Mem) (addr : Word) : Nat → List Text
  | 0 => []
  | left + 1 =>
      match peekData m (addr + BitVec.ofNat 64 ((maxArgvItems - (left + 1)) * 8)) with
      | none => []
      | some ptr =>
          if leNat ptr = 0 then []
          else stringText host m (BitVec.ofNat 64 (leNat ptr)) :: argvReads host m addr left

theorem argvLoop_str (host : Host) (m : Mem) (addr : Word) {size left : Nat} (hpos : 0 < left)
    (hleft : left ≤ maxArgvItems) {out : OutBuf} {t : Text} (h : Holding size out t) :
    (argvClose (argvLoop host m addr left out)).str =
      t ++ argvBody size (decide ((argvReads host m addr left).length = left)) t.length
        (decide (left = maxArgvItems)) (argvReads host m addr left) := by
  induction left generalizing out t with
  | zero => exact absurd hpos (Nat.lt_irrefl 0)
  | succ left ih =>
      have hempty : (argvClose (out, false)).str = t ++ argvBody size
          (decide (([] : List Text).length = left + 1)) t.length
            (decide (left + 1 = maxArgvItems)) [] := by
        rw [argvClose_str h]
        simp [argvBody]
      rw [argvLoop, argvReads]
      dsimp only
      cases hptr : peekData m (addr + BitVec.ofNat 64 ((maxArgvItems - (left + 1)) * 8)) with
      | none => exact hempty
      | some ptr =>
          dsimp only
          split
          · exact hempty
          · have hitem := argvItem_holding h (maxArgvItems - (left + 1))
              (stringText_clean host m (BitVec.ofNat 64 (leNat ptr)))
            have hfirst : decide (maxArgvItems - (left + 1) = 0) =
                decide (left + 1 = maxArgvItems) := by
              rw [decide_eq_decide]
              omega
            rw [readChildString_str, argvBody, ← hfirst]
            split
            · -- the last pass
              have hlast : left = 0 := by
                have hmax : maxArgvItems = 32 := rfl
                omega
              subst hlast
              rw [argvClose_str hitem, List.length_append]
              simp [argvReads, argvBody]
            · rename_i hnext
              have hmax : maxArgvItems = 32 := rfl
              rw [ih (by omega) (by omega) hitem, List.length_append, List.append_assoc]
              have hnotfirst : decide (left = maxArgvItems) = false := by
                rw [decide_eq_false_iff_not]
                omega
              simp [hnotfirst]

/-- The text of `read_child_argv`. -/
theorem readChildArgv_str (host : Host) (m : Mem) {addr : Word} (haddr : addr ≠ 0)
    (init : Nat → Byte) :
    (readChildArgv host m addr (new strArgBufLen init)).str =
      lit "[" ++ argvBody strArgBufLen
        (decide ((argvReads host m addr maxArgvItems).length = maxArgvItems)) 1 true
        (argvReads host m addr maxArgvItems) := by
  have h₀ : Holding strArgBufLen (new strArgBufLen init) [] :=
    ⟨filled_new strArgBufLen_lt init, clean_nil, by decide, rfl⟩
  have h₁ : Holding strArgBufLen ((new strArgBufLen init).putc 0x5b) [0x5b] :=
    h₀.memcpy (by decide) (show 0 + 1 < strArgBufLen by decide)
  have hstr := argvLoop_str host m addr (by decide) (le_refl maxArgvItems) h₁
  have hroom : (new strArgBufLen init).oi < (new strArgBufLen init).size :=
    show 0 < strArgBufLen by decide
  rw [lit_open]
  unfold readChildArgv
  rw [if_neg haddr, if_pos hroom]
  exact hstr

/-- A string starts with its quote, with `0x` or with `NULL`. -/
theorem stringText_opens (host : Host) (m : Mem) (addr : Word) :
    Opens (stringText host m addr) ∧ 2 ≤ (stringText host m addr).length := by
  have hbytes : ∀ (bytes : Text) (more : Bool), Opens (quoteText strArgBufLen bytes more) ∧
      2 ≤ (quoteText strArgBufLen bytes more).length := by
    intro bytes more
    unfold quoteText
    dsimp only
    split
    · exact ⟨⟨0x22, _, by rw [lit_quote]; rfl, by decide⟩, by simp [lit_quote]; omega⟩
    · exact ⟨⟨0x22, _, by rw [lit_quote]; rfl, by decide⟩, by simp [lit_quote]⟩
  unfold stringText rawStringText
  dsimp only
  split
  · exact ⟨⟨0x4e, _, lit_null, by decide⟩, by rw [lit_null]; decide⟩
  · split
    · exact ⟨⟨0x30, _, by rw [hex0x, lit_hexLead]; rfl, by decide⟩, by simp [hex0x, lit_hexLead]⟩
    · split
      · exact hbytes _ _
      · exact hbytes _ _

/-! ## Arrays that end -/

/-- The pointer in place `i`. -/
def argvPtr (m : Mem) (addr : Word) (i : Nat) : Word :=
  BitVec.ofNat 64 (leNat (m.bytes (addr + BitVec.ofNat 64 (i * 8)) 8))

/-- There are `n` pointers and then NULL, and all memory can be read. -/
structure IsArgv (m : Mem) (addr : Word) (n : Nat) : Prop where
  mapped : ∀ a, (m a).isSome
  element : ∀ i, i < n → argvPtr m addr i ≠ 0
  terminator : argvPtr m addr n = 0

/-- The strings, as `read_child_string` shows them. -/
def argvElems (host : Host) (m : Mem) (addr : Word) (n : Nat) : List Text :=
  (List.range n).map fun i =>
    (readChildString host m (argvPtr m addr i) (new strArgBufLen host.junk)).str

theorem length_argvElems (host : Host) (m : Mem) (addr : Word) (n : Nat) :
    (argvElems host m addr n).length = n := by
  simp [argvElems]

theorem getElem_argvElems (host : Host) (m : Mem) (addr : Word) {n i : Nat}
    (h : i < (argvElems host m addr n).length) :
    (argvElems host m addr n)[i] = stringText host m (argvPtr m addr i) := by
  simp only [argvElems, List.getElem_map, List.getElem_range, readChildString_str]

theorem argvElems_eq_map (host : Host) (m : Mem) (addr : Word) (n : Nat) :
    argvElems host m addr n = ((List.range n).map (argvPtr m addr)).map (stringText host m) := by
  simp [argvElems, readChildString_str]

theorem argvElems_opens (host : Host) (m : Mem) (addr : Word) (n : Nat) :
    ∀ item ∈ argvElems host m addr n, Opens item ∧ 2 ≤ item.length := by
  intro item hitem
  obtain ⟨i, -, rfl⟩ := List.mem_map.mp hitem
  rw [readChildString_str]
  exact stringText_opens host m _

theorem argvPtr_eq_zero_iff {m : Mem} {addr : Word} {i : Nat} : argvPtr m addr i = 0 ↔
    leNat (m.bytes (addr + BitVec.ofNat 64 (i * 8)) 8) = 0 := by
  have hlt := leNat_lt (m.bytes (addr + BitVec.ofNat 64 (i * 8)) 8)
  rw [Mem.length_bytes] at hlt
  rw [argvPtr, ← BitVec.toNat_inj, BitVec.toNat_ofNat, Nat.mod_eq_of_lt (by omega)]
  rfl

/-- The loop comes to the first 32 strings. -/
theorem argvReads_eq (host : Host) {m : Mem} {addr : Word} {n : Nat} (h : IsArgv m addr n)
    {left : Nat} (hleft : left ≤ maxArgvItems) (hn : maxArgvItems - left ≤ n) :
    argvReads host m addr left =
      ((argvElems host m addr n).take maxArgvItems).drop (maxArgvItems - left) := by
  have hlen := length_argvElems host m addr n
  induction left with
  | zero => exact (List.drop_eq_nil_of_le (by rw [List.length_take]; omega)).symm
  | succ left ih =>
      have hpeek : peekData m (addr + BitVec.ofNat 64 ((maxArgvItems - (left + 1)) * 8)) =
          some (m.bytes (addr + BitVec.ofNat 64 ((maxArgvItems - (left + 1)) * 8)) 8) :=
        peekData_eq_some.mpr ⟨fun i _ => h.mapped _, rfl⟩
      rw [argvReads, hpeek]
      dsimp only
      rcases Nat.lt_or_eq_of_le hn with hlt | heq
      · have hptr := h.element _ hlt
        rw [ne_eq, argvPtr_eq_zero_iff] at hptr
        have hbound : maxArgvItems - (left + 1) <
            ((argvElems host m addr n).take maxArgvItems).length := by
          rw [List.length_take]
          omega
        rw [if_neg hptr, ih (by omega) (by omega), List.drop_eq_getElem_cons hbound,
          show maxArgvItems - (left + 1) + 1 = maxArgvItems - left by omega, List.getElem_take,
          getElem_argvElems, argvPtr]
      · have hptr := h.terminator
        rw [argvPtr_eq_zero_iff, ← heq] at hptr
        rw [if_pos hptr]
        exact (List.drop_eq_nil_of_le (by rw [List.length_take]; omega)).symm

/-- The first `k` strings, and dots when these are not all. -/
def argvListing (elems : List Text) (k : Nat) : Text :=
  lit "[" ++ (lit ", ").intercalate (elems.take k) ++
    (if k < elems.length then lit ", ..." else []) ++ lit "]"

/-- What the first 32 strings take, each with a separator. -/
def argvWidth (elems : List Text) : Nat :=
  ((elems.take maxArgvItems).map fun item => item.length + 2).sum

/-- The strings fit, the dots of a longer array fit as well, and those of an array of just
32 strings do not. -/
def ArgvFits (elems : List Text) : Prop :=
  (elems.length < maxArgvItems → argvWidth elems < strArgBufLen) ∧
    (elems.length = maxArgvItems →
      argvWidth elems < strArgBufLen ∧ strArgBufLen ≤ argvWidth elems + 4) ∧
    (maxArgvItems < elems.length → argvWidth elems + 5 < strArgBufLen)

instance (elems : List Text) : Decidable (ArgvFits elems) :=
  inferInstanceAs (Decidable ((elems.length < maxArgvItems → _) ∧
    (elems.length = maxArgvItems → _) ∧ (maxArgvItems < elems.length → _)))

/-- What follows the first `k` strings in a listing. -/
def listingEnd (elems : List Text) (k : Nat) : Text :=
  if k < elems.length then lit ", ...]" else lit "]"

theorem argvListing_eq (elems : List Text) (k : Nat) : argvListing elems k =
    lit "[" ++ (sepItems true (elems.take k) ++ listingEnd elems k) := by
  rw [argvListing, sepItems_true, listingEnd, lit_cut]
  split <;> simp

theorem listingEnd_foreign (elems : List Text) (k : Nat) (first : Bool) :
    Foreign first (listingEnd elems k) := by
  unfold listingEnd
  split
  · rw [lit_cut]
    exact foreign_more first _
  · exact foreign_bracket first

theorem argvEnd_eq_close_iff {size oi : Nat} {truncated : Bool} :
    argvEnd size oi truncated = lit "]" ↔
      ¬(truncated = true ∧ oi + 5 < size) ∧ oi + 1 < size := by
  unfold argvEnd
  simp only [lit_more, lit_close]
  split
  · rename_i hdots
    simp [hdots]
  · rename_i hdots
    simp [hdots]

theorem argvEnd_eq_more_iff {size oi : Nat} :
    argvEnd size oi true = lit ", ...]" ↔ oi + 6 < size := by
  by_cases hdots : oi + 5 < size
  · simp [argvEnd, lit_cut, lit_more, lit_close, hdots, Nat.add_assoc]
  · exact iff_of_false (argvEnd_gap false fun h => hdots h.2).2 (by omega)

theorem length_sepItems_take (elems : List Text) :
    (sepItems true (elems.take maxArgvItems)).length = argvWidth elems - 2 := by
  unfold argvWidth
  by_cases hne : elems.take maxArgvItems = []
  · simp [hne, sepItems]
  · have hlen := length_sepItems_true hne
    omega

/-- Behind all strings of the loop, the end is that of a listing exactly when it fits as
it should. -/
theorem argvEnd_eq_listingEnd_iff (elems : List Text) :
    argvEnd strArgBufLen (1 + (sepItems true (elems.take maxArgvItems)).length)
        (decide ((elems.take maxArgvItems).length = maxArgvItems)) =
      listingEnd elems (min maxArgvItems elems.length) ↔ ArgvFits elems := by
  have hsize : strArgBufLen = 1024 := rfl
  rw [length_sepItems_take, List.length_take]
  unfold listingEnd ArgvFits
  rcases lt_trichotomy elems.length maxArgvItems with hlt | heq | hgt
  · rw [if_neg (by omega), argvEnd_eq_close_iff, decide_eq_true_iff]
    omega
  · rw [if_neg (by omega), argvEnd_eq_close_iff, decide_eq_true_iff]
    omega
  · rw [if_pos (by omega), decide_eq_true (by omega), argvEnd_eq_more_iff]
    omega

theorem ArgvFits.room {elems : List Text} (h : ArgvFits elems) :
    1 + (sepItems true (elems.take maxArgvItems)).length < strArgBufLen := by
  have hsize : strArgBufLen = 1024 := rfl
  rw [length_sepItems_take]
  unfold ArgvFits at h
  omega

theorem argvBody_listing_iff {elems : List Text}
    (hopens : ∀ item ∈ elems, Opens item ∧ 2 ≤ item.length) :
    (∃ k ≤ elems.length, argvBody strArgBufLen
        (decide ((elems.take maxArgvItems).length = maxArgvItems)) 1 true
          (elems.take maxArgvItems) =
      sepItems true (elems.take k) ++ listingEnd elems k) ↔ ArgvFits elems := by
  have hitems : ∀ item ∈ elems, Opens item := fun item h => (hopens item h).1
  have hmin : elems.take maxArgvItems = elems.take (min maxArgvItems elems.length) := by simp
  by_cases hfits : 1 + (sepItems true (elems.take maxArgvItems)).length < strArgBufLen
  · rw [← argvEnd_eq_listingEnd_iff, argvBody_of_fits hfits]
    constructor
    · rintro ⟨k, hk, heq⟩
      rw [hmin] at heq
      obtain ⟨rfl, hend⟩ := sepItems_take_inj hitems (min_le_right _ _) hk (argvEnd_foreign _)
        (listingEnd_foreign _ _ _) heq
      rwa [← hmin] at hend
    · intro hend
      exact ⟨min maxArgvItems elems.length, min_le_right _ _, by rw [hend, ← hmin]⟩
  · refine iff_of_false ?_ fun hall => hfits hall.room
    rintro ⟨k, hk, heq⟩
    have htruncated : decide ((elems.take maxArgvItems).length = maxArgvItems) = true →
        2 ≤ (elems.take maxArgvItems).length := by
      intro hall
      rw [of_decide_eq_true hall]
      decide
    -- the strings before the gap are those of the listing, and then it has to go on
    obtain ⟨i, hi, t, ht, hgap⟩ := argvBody_first_gap
      (fun item h => (hopens item (List.mem_of_mem_take h)).2)
      (fun item h => hitems item (List.mem_of_mem_take h)) (show 1 + 2 < strArgBufLen by decide)
      htruncated (Nat.le_of_not_lt hfits)
    rw [List.length_take] at hi
    rw [ht, List.take_take, min_eq_left (by omega)] at heq
    obtain ⟨rfl, hend⟩ := sepItems_take_inj hitems (by omega) hk (by simpa using hgap.1)
      (listingEnd_foreign _ _ _) heq
    rw [listingEnd, if_pos (by omega)] at hend
    exact hgap.2 hend

theorem readChildArgv_text (host : Host) {m : Mem} {addr : Word} {n : Nat} (h : IsArgv m addr n)
    (haddr : addr ≠ 0) (init : Nat → Byte) :
    (readChildArgv host m addr (new strArgBufLen init)).str =
      lit "[" ++ argvBody strArgBufLen
        (decide (((argvElems host m addr n).take maxArgvItems).length = maxArgvItems)) 1 true
          ((argvElems host m addr n).take maxArgvItems) := by
  have hreads := argvReads_eq host h (le_refl maxArgvItems) (by omega)
  rw [Nat.sub_self, List.drop_zero] at hreads
  rw [readChildArgv_str host m haddr, hreads]

theorem exists_listing_iff (host : Host) {m : Mem} {addr : Word} {n : Nat} (h : IsArgv m addr n)
    (haddr : addr ≠ 0) (init : Nat → Byte) :
    (∃ k ≤ n, (readChildArgv host m addr (new strArgBufLen init)).str =
      argvListing (argvElems host m addr n) k) ↔ ArgvFits (argvElems host m addr n) := by
  have hlisting := argvBody_listing_iff (argvElems_opens host m addr n)
  rw [length_argvElems] at hlisting
  simp only [readChildArgv_text host h haddr, argvListing_eq, List.append_cancel_left_eq]
  exact hlisting

/-- The text is a listing of the first strings exactly when there is an array and its
strings fit. -/
theorem readChildArgv_listing_iff (host : Host) {m : Mem} {addr : Word} {n : Nat}
    (h : IsArgv m addr n) (init : Nat → Byte) :
    (∃ k ≤ n, (readChildArgv host m addr (new strArgBufLen init)).str =
      argvListing (argvElems host m addr n) k) ↔
      addr ≠ 0 ∧ ArgvFits (argvElems host m addr n) := by
  by_cases haddr : addr = 0
  · refine iff_of_false ?_ fun hfits => hfits.1 haddr
    rintro ⟨k, -, heq⟩
    rw [readChildArgv, if_pos haddr, str_null, argvListing_eq, lit_null, lit_open] at heq
    exact absurd (List.cons.inj heq).1 (by decide)
  · rw [exists_listing_iff host h haddr]
    exact (and_iff_right haddr).symm

/-! ## Three arrays -/

/-- The arguments of `ls -l /`. -/
def lsArgs : Mem := fun a =>
  some (match a.toNat with
    | 0x1001 | 0x1009 | 0x1010 | 0x1011 => 0x20
    | 0x1008 => 0x10
    | 0x2000 | 0x2011 => 0x6c
    | 0x2001 => 0x73
    | 0x2010 => 0x2d
    | 0x2020 => 0x2f
    | _ => 0)

theorem readChildArgv_listing_ls :
    IsArgv lsArgs 0x1000 3 ∧
    argvElems default lsArgs 0x1000 3 = [lit "\"ls\"", lit "\"-l\"", lit "\"/\""] ∧
    ∃ k ≤ 3, (readChildArgv default lsArgs 0x1000 (new strArgBufLen fun _ => 0)).str =
      argvListing (argvElems default lsArgs 0x1000 3) k := by
  have harray : IsArgv lsArgs 0x1000 3 := ⟨fun _ => rfl, by decide, by decide⟩
  have hptr : (List.range 3).map (argvPtr lsArgs 0x1000) = [0x2000, 0x2010, 0x2020] := by decide
  have htexts : argvElems default lsArgs 0x1000 3 =
      [lit "\"ls\"", lit "\"-l\"", lit "\"/\""] := by
    rw [argvElems_eq_map, hptr]
    with_unfolding_all decide
  refine ⟨harray, htexts, (readChildArgv_listing_iff default harray _).mpr ⟨by decide, ?_⟩⟩
  rw [htexts]
  with_unfolding_all decide

/-- An array of `n` pointers to an empty string. -/
def emptyStrings (n : Nat) : Mem := fun a =>
  some (if 0x1000 ≤ a.toNat ∧ a.toNat < 0x1000 + 8 * n ∧ a.toNat % 8 = 1 then 0x20 else 0)

theorem emptyStrings_elems {n : Nat} (hn : ∀ i, i < n → argvPtr (emptyStrings n) 0x1000 i = 0x2000)
    (hempty : stringText default (emptyStrings n) 0x2000 = lit "\"\"") :
    argvElems default (emptyStrings n) 0x1000 n = List.replicate n (lit "\"\"") := by
  refine List.eq_replicate_iff.mpr ⟨length_argvElems _ _ _ _, fun item hitem => ?_⟩
  obtain ⟨i, hi, rfl⟩ := List.mem_map.mp hitem
  rw [hn i (List.mem_range.mp hi), readChildString_str, hempty]

/-- Two pointers to 200 bytes that need an escape each, and one to an empty string. -/
def threeStrings : Mem := fun a =>
  some (if a.toNat = 0x1001 ∨ a.toNat = 0x1009 then 0x30 else if a.toNat = 0x1011 then 0x20
    else if 0x3000 ≤ a.toNat then 1 else 0)

theorem threeStrings_elems : argvElems default threeStrings 0x1000 3 =
    [stringText default threeStrings 0x3000, stringText default threeStrings 0x3000,
      lit "\"\""] := by
  have hptr : (List.range 3).map (argvPtr threeStrings 0x1000) = [0x3000, 0x3000, 0x2000] := by
    decide
  have hempty : stringText default threeStrings 0x2000 = lit "\"\"" := by with_unfolding_all decide
  rw [argvElems_eq_map, hptr, List.map_cons, List.map_cons, List.map_singleton, hempty]

theorem length_threeStrings : (stringText default threeStrings 0x3000).length = 805 := by
  decide +kernel

/-- An array of 32 empty strings is shown whole and marked as longer.  The second of three
strings is left out, and the third is shown. -/
theorem readChildArgv_gap :
    (IsArgv (emptyStrings 32) 0x1000 32 ∧
      argvElems default (emptyStrings 32) 0x1000 32 = List.replicate 32 (lit "\"\"") ∧
      (readChildArgv default (emptyStrings 32) 0x1000 (new strArgBufLen fun _ => 0)).str =
        lit "[" ++ (lit ", ").intercalate (List.replicate 32 (lit "\"\"")) ++ lit ", ...]" ∧
      ¬∃ k ≤ 32,
        (readChildArgv default (emptyStrings 32) 0x1000 (new strArgBufLen fun _ => 0)).str =
          argvListing (argvElems default (emptyStrings 32) 0x1000 32) k) ∧
    (IsArgv threeStrings 0x1000 3 ∧
      argvElems default threeStrings 0x1000 3 = [stringText default threeStrings 0x3000,
        stringText default threeStrings 0x3000, lit "\"\""] ∧
      (readChildArgv default threeStrings 0x1000 (new strArgBufLen fun _ => 0)).str =
        lit "[" ++ stringText default threeStrings 0x3000 ++ lit ", , \"\"]" ∧
      ¬∃ k ≤ 3, (readChildArgv default threeStrings 0x1000 (new strArgBufLen fun _ => 0)).str =
        argvListing (argvElems default threeStrings 0x1000 3) k) := by
  have harray : IsArgv (emptyStrings 32) 0x1000 32 := ⟨fun _ => rfl, by decide, by decide⟩
  have helems := @emptyStrings_elems 32 (by decide) (by with_unfolding_all decide)
  have harray₃ : IsArgv threeStrings 0x1000 3 := ⟨fun _ => rfl, by decide, by decide⟩
  have helems₃ := threeStrings_elems
  refine ⟨⟨harray, helems, ?_, ?_⟩, harray₃, helems₃, ?_, ?_⟩
  · rw [readChildArgv_text default harray (by decide), helems, List.append_assoc]
    exact congrArg _ (by decide +kernel)
  · rw [exists_listing_iff default harray (by decide), helems]
    with_unfolding_all decide
  · rw [readChildArgv_text default harray₃ (by decide), helems₃, List.append_assoc]
    refine congrArg _ ?_
    have hlen := length_threeStrings
    have hempty : lit "\"\"" = [0x22, 0x22] := by with_unfolding_all decide
    have hgap : lit ", , \"\"]" = [0x2c, 0x20, 0x2c, 0x20, 0x22, 0x22, 0x5d] := by
      with_unfolding_all decide
    generalize stringText default threeStrings 0x3000 = long at hlen ⊢
    simp [argvBody, argvItemText, argvEnd, hlen, strArgBufLen, maxArgvItems, lit_sep, lit_close,
      hempty, hgap]
  · rw [exists_listing_iff default harray₃ (by decide), helems₃]
    have hlen := length_threeStrings
    generalize stringText default threeStrings 0x3000 = long at hlen ⊢
    intro hfits
    have hwidth := hfits.1 (by simp [maxArgvItems])
    simp only [argvWidth, maxArgvItems, strArgBufLen, List.take_succ_cons, List.take_nil,
      List.map_cons, List.map_nil, List.sum_cons, hlen] at hwidth
    omega

end MiniStrace
