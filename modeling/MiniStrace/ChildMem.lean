/-
  ChildMem.lean --- reading the traced process's memory, word by word
  (`child_mem.c`).

  WHAT A TRACEE'S MEMORY IS.  A partial function from 64-bit addresses to bytes.
  `PTRACE_PEEKDATA` returns eight bytes or fails; it fails as soon as one of them
  is not mapped.  All readers below are loops over it.

  THE TWO SHAPES OF A RESULT.  `readChildRaw` returns the bytes it copied, so the
  C variable `got` is the length of the list.  The three renderers fill the
  caller's array character by character; their text is given by `quoteText` and
  the lemmas relate the array to it.

  READS ARE LOCAL.  What a reader returns depends on the mapping and on the bytes
  it was asked for, and on nothing else (`readChildRaw_congr`,
  `readChildBuffer_congr`).
-/
import MiniStrace.Lib.OutBuf

set_option autoImplicit false

namespace MiniStrace

open CLib

/-- A register, an address or an argument as the tracer sees it. -/
abbrev Word : Type := BitVec 64

/-- The tracee's address space; `none` where nothing is mapped. -/
abbrev Mem : Type := Word → Option Byte

/-- `STR_ARG_BUF_LEN`. -/
def strArgBufLen : Nat := 1024

/-- What the tracer takes from its own environment: the `-s` setting, the name
tables of the C library, and the indeterminate contents of automatic storage. -/
structure Host where
  /-- `max_str_len` -/
  maxStrLen : Nat
  /-- `sigabbrev_np` -/
  sigabbrev : Int → Option Text
  /-- `sigdescr_np` -/
  sigdescr : Int → Option Text
  /-- `strerrorname_np` -/
  strerrorname : Int → Option Text
  /-- `inet_ntop(AF_INET6, ...)` of the sixteen address bytes -/
  inetNtop6 : Text → Option Text
  /-- what an uninitialised array holds -/
  junk : Nat → Byte

/-- The default `-s` value and a C library that names nothing. -/
instance : Inhabited Host where
  default := ⟨200, fun _ => none, fun _ => none, fun _ => none, fun _ => none, fun _ => 0⟩

/-- `%s` of a pointer that may be NULL. -/
def orNull (name : Option Text) : Text := name.getD (lit "(null)")

/-! ## Integers in memory -/

/-- The unsigned value of little-endian bytes. -/
def leNat (bs : Text) : Nat := Nat.ofDigits 256 (bs.map UInt8.toNat)

/-- The two's-complement value of a `w`-bit pattern. -/
def signed (w n : Nat) : Int := Int.bmod n (2 ^ w)

/-- The unsigned field of `len` bytes at offset `off`. -/
def field (bs : Text) (off len : Nat) : Nat := leNat ((bs.drop off).take len)

/-- The signed field of `len` bytes at offset `off`. -/
def fieldInt (bs : Text) (off len : Nat) : Int := signed (8 * len) (field bs off len)

theorem leNat_lt (bs : Text) : leNat bs < 256 ^ bs.length := by
  unfold leNat
  have h : ∀ d ∈ bs.map UInt8.toNat, d < 256 := by
    intro d hd
    obtain ⟨b, _, rfl⟩ := List.mem_map.mp hd
    exact b.toNat_lt
  simpa using Nat.ofDigits_lt_base_pow_length (by omega) h

theorem field_lt (bs : Text) (off len : Nat) : field bs off len < 256 ^ len := by
  refine lt_of_lt_of_le (leNat_lt _) (Nat.pow_le_pow_right (by omega) ?_)
  rw [List.length_take]
  omega

theorem leNat_append (bs cs : Text) : leNat (bs ++ cs) = leNat bs + 256 ^ bs.length * leNat cs := by
  simp [leNat, Nat.ofDigits_append]

/-- The low half of a word is its first four bytes. -/
theorem leNat_low {bs : Text} (h : 4 ≤ bs.length) : leNat bs % 2 ^ 32 = leNat (bs.take 4) := by
  have hlen : (bs.take 4).length = 4 := by rw [List.length_take]; omega
  have hlt := leNat_lt (bs.take 4)
  conv_lhs => rw [← List.take_append_drop 4 bs, leNat_append, hlen]
  rw [hlen] at hlt
  omega

/-! ## Peeking -/

namespace Mem

/-- The byte `i` places above `addr`. -/
def byteAt (m : Mem) (addr : Word) (i : Nat) : Byte :=
  (m (addr + BitVec.ofNat 64 i)).getD 0

/-- The `n` bytes from `addr` on. -/
def bytes (m : Mem) (addr : Word) (n : Nat) : Text := (List.range n).map (m.byteAt addr)

/-- The same addresses are mapped. -/
def SameMap (m m' : Mem) : Prop := ∀ a, (m a).isSome = (m' a).isSome

@[simp] theorem length_bytes (m : Mem) (addr : Word) (n : Nat) : (m.bytes addr n).length = n := by
  simp [bytes]

theorem byteAt_add (m : Mem) (addr : Word) (k i : Nat) :
    m.byteAt (addr + BitVec.ofNat 64 k) i = m.byteAt addr (k + i) := by
  unfold byteAt
  rw [BitVec.add_assoc, BitVec.ofNat_add]

theorem bytes_add (m : Mem) (addr : Word) (k n : Nat) :
    m.bytes addr (k + n) = m.bytes addr k ++ m.bytes (addr + BitVec.ofNat 64 k) n := by
  unfold bytes
  rw [List.range_add, List.map_append, List.map_map]
  congr 1
  refine List.map_congr_left ?_
  intro i _
  exact (m.byteAt_add addr k i).symm

theorem take_bytes (m : Mem) (addr : Word) {k n : Nat} (h : k ≤ n) :
    (m.bytes addr n).take k = m.bytes addr k := by
  unfold bytes
  rw [← List.map_take, List.take_range, min_eq_left h]

theorem drop_bytes (m : Mem) (addr : Word) {k n : Nat} (h : k ≤ n) :
    (m.bytes addr n).drop k = m.bytes (addr + BitVec.ofNat 64 k) (n - k) := by
  obtain ⟨d, rfl⟩ := Nat.exists_eq_add_of_le h
  rw [m.bytes_add, List.drop_left' (by simp), Nat.add_sub_cancel_left]

theorem field_bytes (m : Mem) (addr : Word) {off len n : Nat} (h : off + len ≤ n) :
    field (m.bytes addr n) off len = leNat (m.bytes (addr + BitVec.ofNat 64 off) len) := by
  rw [field, m.drop_bytes addr (by omega), m.take_bytes _ (by omega)]

theorem getD_bytes (m : Mem) (addr : Word) {i n : Nat} (h : i < n) :
    (m.bytes addr n).getD i 0 = m.byteAt addr i := by
  rw [List.getD_eq_getElem _ _ (by simpa using h)]
  simp [bytes]

theorem bytes_congr {m m' : Mem} {addr : Word} {n : Nat}
    (h : ∀ i, i < n → m.byteAt addr i = m'.byteAt addr i) :
    m.bytes addr n = m'.bytes addr n := by
  refine List.map_congr_left ?_
  intro i hi
  exact h i (List.mem_range.mp hi)

/-- Memory with the same byte everywhere. -/
theorem bytes_const (d : Byte) (addr : Word) (n : Nat) :
    Mem.bytes (fun _ => some d) addr n = List.replicate n d := by
  refine List.ext_getElem (by simp) fun i _ _ => ?_
  simp [bytes, byteAt]

/-- The memory with the byte at `a` set to `c`. -/
def poke (m : Mem) (a : Word) (c : Byte) : Mem := Function.update m a (some c)

theorem byteAt_poke (m : Mem) (addr : Word) {p i : Nat} (hp : p < 2 ^ 64) (hi : i < 2 ^ 64)
    (c : Byte) : (m.poke (addr + BitVec.ofNat 64 p) c).byteAt addr i =
      if i = p then c else m.byteAt addr i := by
  have hiff : addr + BitVec.ofNat 64 i = addr + BitVec.ofNat 64 p ↔ i = p := by
    rw [BitVec.add_right_inj, ← BitVec.toNat_inj, BitVec.toNat_ofNat, BitVec.toNat_ofNat,
      Nat.mod_eq_of_lt hi, Nat.mod_eq_of_lt hp]
  simp only [byteAt, poke, Function.update_apply, hiff]
  split <;> rfl

theorem bytes_poke (m : Mem) (addr : Word) {p n : Nat} (hp : p < n) (hn : n ≤ 2 ^ 64) (c : Byte) :
    (m.poke (addr + BitVec.ofNat 64 p) c).bytes addr n = (m.bytes addr n).set p c := by
  refine List.ext_getElem (by simp) fun i h₁ h₂ => ?_
  rw [length_bytes] at h₁
  simp only [bytes, byteAt_poke m addr (show p < 2 ^ 64 by omega) (show i < 2 ^ 64 by omega),
    List.getElem_map, List.getElem_range, List.getElem_set, eq_comm (a := p)]

end Mem

theorem Mem.isSome_poke {m : Mem} (hm : ∀ a, (m a).isSome) (b : Word) (c : Byte) (a : Word) :
    (m.poke b c a).isSome := by
  rw [Mem.poke, Function.update_apply]
  split
  · rfl
  · exact hm a

/-- All eight bytes of the word at `addr` are mapped. -/
def Peekable (m : Mem) (addr : Word) : Prop :=
  ∀ i, i < 8 → (m (addr + BitVec.ofNat 64 i)).isSome

instance (m : Mem) (addr : Word) : Decidable (Peekable m addr) :=
  inferInstanceAs (Decidable (∀ i, i < 8 → _))

/-- `ptrace(PTRACE_PEEKDATA, pid, addr, NULL)`; `none` when `errno` is set. -/
def peekData (m : Mem) (addr : Word) : Option Text :=
  if Peekable m addr then some (m.bytes addr 8) else none

theorem peekData_eq_some {m : Mem} {addr : Word} {w : Text} :
    peekData m addr = some w ↔ Peekable m addr ∧ w = m.bytes addr 8 := by
  unfold peekData
  split <;> simp_all [eq_comm]

theorem peekable_congr {m m' : Mem} (h : m.SameMap m') (addr : Word) :
    Peekable m addr ↔ Peekable m' addr := by
  unfold Peekable
  simp only [h _]

/-! ## `read_child_raw` -/

/-- The copying loop from offset `got` on.  Every round copies at least one byte,
so `want` rounds are enough. -/
def readRawLoop (m : Mem) (addr : Word) (want : Nat) : Nat → Nat → Text
  | 0, _ => []
  | fuel + 1, got =>
      if got < want then
        match peekData m (addr + BitVec.ofNat 64 got) with
        | none => []  -- unmapped: stop, use what we have
        | some word =>
            let chunk := if want - got < 8 then want - got else 8
            word.take chunk ++ readRawLoop m addr want fuel (got + chunk)
      else []

/-- `read_child_raw`: the bytes copied; `got` is their number. -/
def readChildRaw (m : Mem) (addr : Word) (want : Nat) : Text := readRawLoop m addr want want 0

/-- The loop copies a prefix of the bytes asked for. -/
theorem readRawLoop_eq (m : Mem) (addr : Word) (want fuel got : Nat) :
    ∃ k, readRawLoop m addr want fuel got = m.bytes (addr + BitVec.ofNat 64 got) k ∧
      k ≤ want - got := by
  induction fuel generalizing got with
  | zero => exact ⟨0, rfl, Nat.zero_le _⟩
  | succ fuel ih =>
      rw [readRawLoop]
      by_cases hlt : got < want
      · rw [if_pos hlt]
        cases hp : peekData m (addr + BitVec.ofNat 64 got) with
        | none => exact ⟨0, rfl, Nat.zero_le _⟩
        | some word =>
            obtain ⟨_, rfl⟩ := peekData_eq_some.mp hp
            dsimp only
            set chunk := if want - got < 8 then want - got else 8 with hchunk
            have hle : chunk ≤ 8 ∧ chunk ≤ want - got := by split at hchunk <;> omega
            obtain ⟨k, hk, hkle⟩ := ih (got + chunk)
            refine ⟨chunk + k, ?_, by omega⟩
            rw [hk, m.take_bytes _ hle.1, m.bytes_add, BitVec.ofNat_add, ← BitVec.add_assoc]
      · rw [if_neg hlt]
        exact ⟨0, rfl, Nat.zero_le _⟩

theorem length_readChildRaw_le (m : Mem) (addr : Word) (want : Nat) :
    (readChildRaw m addr want).length ≤ want := by
  obtain ⟨k, hk, hle⟩ := readRawLoop_eq m addr want want 0
  rw [readChildRaw, hk, Mem.length_bytes]
  omega

/-- Every byte copied is the tracee's byte at that offset. -/
theorem readChildRaw_eq (m : Mem) (addr : Word) (want : Nat) :
    readChildRaw m addr want = m.bytes addr (readChildRaw m addr want).length := by
  obtain ⟨k, hk, _⟩ := readRawLoop_eq m addr want want 0
  have h0 : addr + BitVec.ofNat 64 0 = addr := BitVec.add_zero addr
  rw [h0] at hk
  rw [readChildRaw, hk, Mem.length_bytes]

/-- A loop over two memories with the same mapping and the same wanted bytes. -/
theorem readRawLoop_congr {m m' : Mem} {addr : Word} {want : Nat} (hmap : m.SameMap m')
    (hb : ∀ i, i < want → m.byteAt addr i = m'.byteAt addr i) (fuel got : Nat) :
    readRawLoop m addr want fuel got = readRawLoop m' addr want fuel got := by
  induction fuel generalizing got with
  | zero => rfl
  | succ fuel ih =>
      rw [readRawLoop, readRawLoop]
      by_cases hlt : got < want
      · rw [if_pos hlt, if_pos hlt]
        by_cases hp : Peekable m (addr + BitVec.ofNat 64 got)
        · rw [peekData, if_pos hp, peekData, if_pos ((peekable_congr hmap _).mp hp)]
          dsimp only
          set chunk := if want - got < 8 then want - got else 8 with hchunk
          have hle : chunk ≤ 8 ∧ chunk ≤ want - got := by split at hchunk <;> omega
          rw [ih, Mem.take_bytes _ _ hle.1, Mem.take_bytes _ _ hle.1]
          congr 1
          refine Mem.bytes_congr ?_
          intro i hi
          rw [Mem.byteAt_add, Mem.byteAt_add]
          exact hb _ (by omega)
        · rw [peekData, if_neg hp, peekData, if_neg (mt (peekable_congr hmap _).mpr hp)]
      · rw [if_neg hlt, if_neg hlt]

theorem readChildRaw_congr {m m' : Mem} {addr : Word} {want : Nat} (hmap : m.SameMap m')
    (hb : ∀ i, i < want → m.byteAt addr i = m'.byteAt addr i) :
    readChildRaw m addr want = readChildRaw m' addr want :=
  readRawLoop_congr hmap hb want 0

/-! ## Escaping

`read_child_string` and `read_child_buffer` share this tail: a quote, the escaped
bytes while at least six cells are left, a quote, and the truncation marker. -/

/-- The characters one byte is shown as. -/
def escape (c : Byte) : Text :=
  if c = 0x22 ∨ c = 0x5c then [0x5c, c]
  else if c = 0x0a then [0x5c, 0x6e]
  else if 0x20 ≤ c ∧ c < 0x7f then [c]
  else lit "\\x" ++ hex02 c

/-- One round of the escaping loop. -/
def escapeByte (out : OutBuf) (c : Byte) : OutBuf :=
  if c = 0x22 ∨ c = 0x5c then (out.putc 0x5c).putc c
  else if c = 0x0a then (out.putc 0x5c).putc 0x6e
  else if 0x20 ≤ c ∧ c < 0x7f then out.putc c
  else out.snprintf (lit "\\x" ++ hex02 c)

/-- `for (i = 0; i < len && oi + 5 < out_size; i++)`. -/
def escapeLoop (out : OutBuf) : Text → OutBuf
  | [] => out
  | c :: cs => if out.oi + 5 < out.size then escapeLoop (escapeByte out c) cs else out

/-- The whole quoted dump of `bytes`; `more` asks for the `...` marker. -/
def quoteBytes (out : OutBuf) (bytes : Text) (more : Bool) : OutBuf :=
  let out := if out.oi < out.size then out.putc 0x22 else out
  let out := escapeLoop out bytes
  let out := if out.oi < out.size then out.putc 0x22 else out
  let out := if more ∧ out.oi + 3 < out.size then out.memcpy (lit "...") else out
  out.terminate

/-- The text of `escapeLoop`, started at offset `oi`. -/
def escapeText (size : Nat) : Nat → Text → Text
  | _, [] => []
  | oi, c :: cs =>
      if oi + 5 < size then escape c ++ escapeText size (oi + (escape c).length) cs else []

/-- The text of `quoteBytes` in an array of at least two cells. -/
def quoteText (size : Nat) (bytes : Text) (more : Bool) : Text :=
  let body := lit "\"" ++ escapeText size 1 bytes ++ lit "\""
  if more ∧ body.length + 3 < size then body ++ lit "..." else body

theorem length_escape (c : Byte) : 1 ≤ (escape c).length ∧ (escape c).length ≤ 4 := by
  have hx : (lit "\\x").length = 2 := by with_unfolding_all decide
  unfold escape
  split_ifs <;> simp [hex02, hx]

theorem escape_clean (c : Byte) : Clean (escape c) := by
  unfold escape
  split_ifs with h₁ h₂ h₃
  · rcases h₁ with rfl | rfl <;> decide
  · decide
  · intro b hb
    rw [List.mem_singleton] at hb
    subst hb
    unfold IsControl
    simp only [UInt8.le_iff_toNat_le, UInt8.lt_iff_toNat_lt] at h₃ ⊢
    rw [← UInt8.toNat_inj]
    have e₁ : (0x20 : UInt8).toNat = 0x20 := rfl
    have e₂ : (0x7f : UInt8).toNat = 0x7f := rfl
    omega
  · rw [clean_append]
    exact ⟨by with_unfolding_all decide, clean_hex02 c⟩

theorem escapeText_clean (size oi : Nat) (bytes : Text) : Clean (escapeText size oi bytes) := by
  induction bytes generalizing oi with
  | nil => exact clean_nil
  | cons c cs ih =>
      rw [escapeText]
      split
      · rw [clean_append]
        exact ⟨escape_clean c, ih _⟩
      · exact clean_nil

theorem quoteText_clean (size : Nat) (bytes : Text) (more : Bool) :
    Clean (quoteText size bytes more) := by
  have hbody : Clean (lit "\"" ++ escapeText size 1 bytes ++ lit "\"") := by
    simp only [clean_append]
    exact ⟨⟨by with_unfolding_all decide, escapeText_clean _ _ _⟩, by with_unfolding_all decide⟩
  unfold quoteText
  dsimp only
  split
  · rw [clean_append]
    exact ⟨hbody, by with_unfolding_all decide⟩
  · exact hbody

/-- The loop stops with at least one cell free. -/
theorem length_escapeText (size oi : Nat) (h : oi + 1 < size) (bytes : Text) :
    oi + (escapeText size oi bytes).length + 1 < size := by
  induction bytes generalizing oi with
  | nil => simpa [escapeText] using h
  | cons c cs ih =>
      have hc := length_escape c
      rw [escapeText]
      split
      · have := ih (oi + (escape c).length) (by omega)
        rw [List.length_append]
        omega
      · simpa using h

theorem length_dots : (lit "...").length = 3 := by with_unfolding_all decide

theorem length_quoteText {size : Nat} (h : 2 < size) (bytes : Text) (more : Bool) :
    (quoteText size bytes more).length < size := by
  have := length_escapeText size 1 h bytes
  unfold quoteText
  dsimp only
  split
  · rename_i hm
    rw [List.length_append, length_dots]
    omega
  · simp only [List.length_append, lit_quote, List.length_singleton]
    omega

theorem escapeByte_filled {out : OutBuf} {t : Text} (h : out.Filled t)
    (hroom : out.oi + 5 < out.size) (c : Byte) :
    (escapeByte out c).Filled (t ++ escape c) ∧ (escapeByte out c).size = out.size := by
  have two : ∀ a b : Byte, ((out.putc a).putc b).Filled (t ++ [a, b]) := by
    intro a b
    have h₁ := h.putc a (by omega)
    have h₂ := h₁.putc b (by simp only [OutBuf.putc, OutBuf.memcpy, OutBuf.write,
      List.length_singleton]; omega)
    simpa using h₂
  unfold escapeByte escape
  split_ifs
  · exact ⟨two _ _, rfl⟩
  · exact ⟨two _ _, rfl⟩
  · exact ⟨h.putc c (by omega), rfl⟩
  · refine ⟨h.snprintf ?_, OutBuf.snprintf_size _ _⟩
    have hx : (lit "\\x").length = 2 := by with_unfolding_all decide
    simp only [List.length_append, hx, hex02, List.length_cons, List.length_nil]
    omega

theorem escapeLoop_filled {out : OutBuf} {t : Text} (h : out.Filled t) (bytes : Text) :
    (escapeLoop out bytes).Filled (t ++ escapeText out.size out.oi bytes) ∧
      (escapeLoop out bytes).size = out.size := by
  induction bytes generalizing out t with
  | nil => simpa [escapeLoop, escapeText] using h
  | cons c cs ih =>
      rw [escapeLoop, escapeText]
      split
      · rename_i hroom
        obtain ⟨hf, hs⟩ := escapeByte_filled h hroom c
        obtain ⟨hl, hls⟩ := ih hf
        have hoi : (escapeByte out c).oi = out.oi + (escape c).length := by
          rw [hf.off, h.off, List.length_append]
        rw [hs, hoi, List.append_assoc] at hl
        exact ⟨hl, hls.trans hs⟩
      · simpa using h

/-- The array left by a quoted dump that starts at its first cell. -/
theorem quoteBytes_spec {out : OutBuf} (h : out.Filled []) (hsize : 2 < out.size)
    (bytes : Text) (more : Bool) :
    (quoteBytes out bytes more).str = quoteText out.size bytes more ∧
      (quoteBytes out bytes more).hi ≤ out.size := by
  have hoi : out.oi = 0 := h.off
  have hlen := length_escapeText out.size 1 hsize bytes
  have hq : ∀ c : Byte, [c].length = 1 := fun _ => rfl
  -- the opening quote
  have h₁ := h.putc 0x22 (by omega)
  obtain ⟨h₂, hs₂⟩ := escapeLoop_filled h₁ bytes
  have ho₁ : (out.putc 0x22).oi = 1 := by simp [OutBuf.putc, OutBuf.memcpy, hoi]
  have hs₁ : (out.putc 0x22).size = out.size := rfl
  rw [ho₁, hs₁] at h₂
  rw [hs₁] at hs₂
  -- the closing quote
  have ho₂ := h₂.off
  simp only [List.nil_append, List.length_append, hq] at ho₂
  have h₃ := h₂.putc 0x22 (by omega)
  set b₃ := (escapeLoop (out.putc 0x22) bytes).putc 0x22 with hb₃
  have ho₃ := h₃.off
  have hs₃ : b₃.size = out.size := hs₂
  have hunfold : quoteBytes out bytes more =
      (if more ∧ b₃.oi + 3 < b₃.size then b₃.memcpy (lit "...") else b₃).terminate := by
    unfold quoteBytes
    dsimp only
    rw [if_pos (show out.oi < out.size by omega)]
    rw [if_pos (show (escapeLoop (out.putc 0x22) bytes).oi <
      (escapeLoop (out.putc 0x22) bytes).size by omega)]
  have hfill : (if more ∧ b₃.oi + 3 < b₃.size then b₃.memcpy (lit "...") else b₃).Filled
      (quoteText out.size bytes more) := by
    unfold quoteText
    dsimp only
    rw [ho₃, hs₃]
    have hd := length_dots
    have ht : ([] ++ [0x22] ++ escapeText out.size 1 bytes ++ [0x22] : Text) =
        lit "\"" ++ escapeText out.size 1 bytes ++ lit "\"" := by
      rw [List.nil_append, lit_quote]
    rw [ht] at h₃ ⊢
    split
    · rename_i hm
      exact h₃.memcpy (by rw [h₃.off]; omega)
    · exact h₃
  have hz : ∀ c ∈ quoteText out.size bytes more, c ≠ 0 := by
    intro c hc h0
    exact quoteText_clean out.size bytes more c hc (by rw [h0]; decide)
  have hsz : (if more ∧ b₃.oi + 3 < b₃.size then b₃.memcpy (lit "...") else b₃).size
      = out.size := by
    split
    · exact hs₃
    · exact hs₃
  obtain ⟨hstr, hhi⟩ := hfill.str_terminate (by omega) hz
  rw [hsz] at hstr hhi
  rw [hunfold]
  refine ⟨?_, hhi⟩
  rw [hstr, List.take_of_length_le]
  have := length_quoteText hsize bytes more
  omega

/-! ## `read_child_string` -/

/-- The word loop of `read_child_string`: whole words, up to the first one that
holds a NUL. -/
def stringLoop (m : Mem) (addr : Word) (readCap : Nat) : Nat → Nat → Text
  | 0, _ => []
  | fuel + 1, got =>
      if got + 8 ≤ readCap then
        match peekData m (addr + BitVec.ofNat 64 got) with
        | none => []
        | some word =>
            if 0 ∈ word then word else word ++ stringLoop m addr readCap fuel (got + 8)
      else []

/-- `read_cap`: `max_str_len` rounded up to a whole number of words. -/
def readCap (host : Host) : Nat :=
  let cap := (host.maxStrLen + 8 - 1) / 8 * 8
  if cap > strArgBufLen then strArgBufLen else cap

/-- `read_child_string`. -/
def readChildString (host : Host) (m : Mem) (addr : Word) (out : OutBuf) : OutBuf :=
  if addr = 0 then out.snprintf (lit "NULL")
  else
    let raw := stringLoop m addr (readCap host) (readCap host) 0
    let got := raw.length
    if got = 0 then out.snprintf (hex0x addr.toNat)
    else
      let len := (cstr raw).length
      let truncated := len == got
      if len > host.maxStrLen then quoteBytes out (raw.take host.maxStrLen) true
      else quoteBytes out (raw.take len) truncated

/-- The word loop copies a prefix of the bytes at `addr`. -/
theorem stringLoop_eq (m : Mem) (addr : Word) (cap fuel got : Nat) :
    ∃ k, stringLoop m addr cap fuel got = m.bytes (addr + BitVec.ofNat 64 got) k ∧
      k ≤ cap - got := by
  induction fuel generalizing got with
  | zero => exact ⟨0, rfl, Nat.zero_le _⟩
  | succ fuel ih =>
      rw [stringLoop]
      by_cases hle : got + 8 ≤ cap
      · rw [if_pos hle]
        cases hp : peekData m (addr + BitVec.ofNat 64 got) with
        | none => exact ⟨0, rfl, Nat.zero_le _⟩
        | some word =>
            obtain ⟨_, rfl⟩ := peekData_eq_some.mp hp
            dsimp only
            split
            · exact ⟨8, rfl, by omega⟩
            · obtain ⟨k, hk, hkle⟩ := ih (got + 8)
              refine ⟨8 + k, ?_, by omega⟩
              rw [hk, m.bytes_add, BitVec.ofNat_add, ← BitVec.add_assoc]
      · rw [if_neg hle]
        exact ⟨0, rfl, Nat.zero_le _⟩

theorem readCap_le (host : Host) : readCap host ≤ strArgBufLen := by
  unfold readCap
  dsimp only
  split <;> omega

/-! ## `read_child_buffer` -/

/-- `want`: how many bytes of a buffer of `len` bytes are dumped. -/
def bufferWant (host : Host) (len : Nat) : Nat :=
  let cap := if host.maxStrLen < strArgBufLen then host.maxStrLen else strArgBufLen
  if len < cap then len else cap

/-- `read_child_buffer`.  Its read loop is that of `read_child_raw`. -/
def readChildBuffer (host : Host) (m : Mem) (addr : Word) (len : Nat) (out : OutBuf) : OutBuf :=
  if addr = 0 then out.snprintf (lit "NULL")
  else
    let raw := readRawLoop m addr (bufferWant host len) (bufferWant host len) 0
    let got := raw.length
    if got = 0 then out.snprintf (hex0x addr.toNat)
    else quoteBytes out raw (len > got)

/-! ## `read_child_argv` -/

/-- `MAX_ARGV_ITEMS`. -/
def maxArgvItems : Nat := 32

/-- One array element: the separator when there is room, the item when it fits. -/
def argvItem (out : OutBuf) (count : Nat) (item : Text) : OutBuf :=
  let out := if count > 0 ∧ out.oi + 2 < out.size then (out.putc 0x2c).putc 0x20 else out
  if out.oi + item.length < out.size then out.memcpy item else out

/-- The element loop with `left` items to go; also whether the cap was hit. -/
def argvLoop (host : Host) (m : Mem) (addr : Word) : Nat → OutBuf → OutBuf × Bool
  | 0, out => (out, false)
  | left + 1, out =>
      let count := maxArgvItems - (left + 1)
      match peekData m (addr + BitVec.ofNat 64 (count * 8)) with
      | none => (out, false)
      | some ptr =>
          if leNat ptr = 0 then (out, false)
          else
            let item := (readChildString host m (BitVec.ofNat 64 (leNat ptr))
              (OutBuf.new strArgBufLen host.junk)).str
            let out := argvItem out count item
            if count = maxArgvItems - 1 then (out, true) else argvLoop host m addr left out

/-- `read_child_argv`. -/
def readChildArgv (host : Host) (m : Mem) (addr : Word) (out : OutBuf) : OutBuf :=
  if addr = 0 then out.snprintf (lit "NULL")
  else
    let out := if out.oi < out.size then out.putc 0x5b else out
    let (out, truncated) := argvLoop host m addr maxArgvItems out
    let out := if truncated ∧ out.oi + 5 < out.size then out.memcpy (lit ", ...") else out
    let out := if out.oi < out.size then out.putc 0x5d else out
    out.terminate

end MiniStrace
