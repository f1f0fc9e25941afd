/-
  ChildBounds.lean --- the accesses of the readers of tracee memory to their arrays.

  THE SOURCE ARRAY.  `read_child_string` and `read_child_buffer` copy words of the tracee into
  `raw`, an array of `STR_ARG_BUF_LEN` bytes that starts out uninitialised, and read it back
  byte by byte.  Here the loops are modelled over that array, with every access that would be
  undefined a fault.  They never fault, and do what the models over lists of bytes do.

  THE RESULT.  Every character the three readers store in `out` comes behind a test for room,
  and the last NUL goes over the last cell if it has to.  So no write goes past `out_size`,
  whatever that is, and there always is a NUL.
-/
import MiniStrace.Lib.Scratch
import MiniStrace.ChildText

set_option autoImplicit false

namespace MiniStrace

open CLib OutBuf

/-! ## The loops over `raw` -/

/-- The word loop of `read_child_string`, with `got`. -/
def stringFill (m : Mem) (addr : Word) (readCap : Nat) :
    Nat → Nat → Scratch → Option (Scratch × Nat)
  | 0, got, raw => some (raw, got)
  | fuel + 1, got, raw =>
      if got + 8 ≤ readCap then
        match peekData m (addr + BitVec.ofNat 64 got) with
        | none => some (raw, got)
        | some word => do
            let raw ← raw.store got word
            if 0 ∈ word then some (raw, got + 8)
            else stringFill m addr readCap fuel (got + 8) raw
      else some (raw, got)

/-- The word loop of `read_child_buffer`, with `got`. -/
def bufferFill (m : Mem) (addr : Word) (want : Nat) :
    Nat → Nat → Scratch → Option (Scratch × Nat)
  | 0, got, raw => some (raw, got)
  | fuel + 1, got, raw =>
      if got < want then
        match peekData m (addr + BitVec.ofNat 64 got) with
        | none => some (raw, got)
        | some word => do
            let chunk := if want - got < 8 then want - got else 8
            let raw ← raw.store got (word.take chunk)
            bufferFill m addr want fuel (got + chunk) raw
      else some (raw, got)

/-- `while (len < got && raw[len] != 0) len++`, with `got - len` bytes to go. -/
def scanRaw (raw : Scratch) : Nat → Nat → Option Nat
  | 0, len => some len
  | left + 1, len => do
      let c ← raw.load len
      if c ≠ 0 then scanRaw raw left (len + 1) else some len

/-- `for (; i < len && oi + 5 < out_size; i++)`, with `len - i` bytes to go. -/
def escapeRaw (raw : Scratch) : Nat → Nat → OutBuf → Option OutBuf
  | 0, _, out => some out
  | left + 1, i, out =>
      if out.oi + 5 < out.size then do
        let c ← raw.load i
        escapeRaw raw left (i + 1) (escapeByte out c)
      else some out

/-- The quoted dump of the first `len` bytes of `raw`. -/
def quoteRaw (raw : Scratch) (len : Nat) (more : Bool) (out : OutBuf) : Option OutBuf := do
  let out := if out.oi < out.size then out.putc 0x22 else out
  let out ← escapeRaw raw len 0 out
  let out := if out.oi < out.size then out.putc 0x22 else out
  let out := if more ∧ out.oi + 3 < out.size then out.memcpy (lit "...") else out
  return out.terminate

/-- `read_child_string` over `raw`. -/
def readChildStringRaw (host : Host) (m : Mem) (addr : Word) (out : OutBuf) : Option OutBuf :=
  if addr = 0 then some (out.snprintf (lit "NULL"))
  else do
    let (raw, got) ← stringFill m addr (readCap host) (readCap host) 0 (.new strArgBufLen)
    if got = 0 then some (out.snprintf (hex0x addr.toNat))
    else
      let len ← scanRaw raw got 0
      if len > host.maxStrLen then quoteRaw raw host.maxStrLen true out
      else quoteRaw raw len (len == got) out

/-- `read_child_buffer` over `raw`. -/
def readChildBufferRaw (host : Host) (m : Mem) (addr : Word) (len : Nat) (out : OutBuf) :
    Option OutBuf :=
  if addr = 0 then some (out.snprintf (lit "NULL"))
  else do
    let want := bufferWant host len
    let (raw, got) ← bufferFill m addr want want 0 (.new strArgBufLen)
    if got = 0 then some (out.snprintf (hex0x addr.toNat))
    else quoteRaw raw got (len > got) out

/-! ## No fault -/

section Raw

variable (m : Mem) (addr : Word) {raw : Scratch} {bytes : Text} {n : Nat}

variable {m addr} in
theorem length_peekData {word : Text} (h : peekData m addr = some word) : word.length = 8 := by
  rw [(peekData_eq_some.mp h).2, Mem.length_bytes]

/-- Whole words are stored up to the cap, which is no larger than the array. -/
theorem stringFill_holds {cap : Nat} (hcap : cap ≤ n) (fuel : Nat)
    (h : raw.Holds n bytes) :
    ∃ raw', raw'.Holds n (bytes ++ stringLoop m addr cap fuel bytes.length) ∧
      stringFill m addr cap fuel bytes.length raw =
        some (raw', (bytes ++ stringLoop m addr cap fuel bytes.length).length) := by
  induction fuel generalizing raw bytes with
  | zero => exact ⟨raw, by simpa [stringLoop] using h, by simp [stringFill, stringLoop]⟩
  | succ fuel ih =>
      rw [stringFill, stringLoop]
      by_cases hle : bytes.length + 8 ≤ cap
      · rw [if_pos hle, if_pos hle]
        cases hp : peekData m (addr + BitVec.ofNat 64 bytes.length) with
        | none => exact ⟨raw, by simpa using h, by simp⟩
        | some word =>
            have hword := length_peekData hp
            obtain ⟨raw', hstore, hraw'⟩ := h.store (s := word) (by omega)
            have hlen : (bytes ++ word).length = bytes.length + 8 := by
              rw [List.length_append, hword]
            dsimp only
            rw [hstore, Option.bind_eq_bind, Option.bind_some]
            split
            · exact ⟨raw', hraw', by rw [hlen]⟩
            · have hrest := ih hraw'
              rw [hlen, List.append_assoc] at hrest
              exact hrest
      · rw [if_neg hle, if_neg hle]
        exact ⟨raw, by simpa using h, by simp⟩

theorem bufferFill_holds {want : Nat} (hwant : want ≤ n) (fuel : Nat)
    (h : raw.Holds n bytes) :
    ∃ raw', raw'.Holds n (bytes ++ readRawLoop m addr want fuel bytes.length) ∧
      bufferFill m addr want fuel bytes.length raw =
        some (raw', (bytes ++ readRawLoop m addr want fuel bytes.length).length) := by
  induction fuel generalizing raw bytes with
  | zero => exact ⟨raw, by simpa [readRawLoop] using h, by simp [bufferFill, readRawLoop]⟩
  | succ fuel ih =>
      rw [bufferFill, readRawLoop]
      by_cases hlt : bytes.length < want
      · rw [if_pos hlt, if_pos hlt]
        cases hp : peekData m (addr + BitVec.ofNat 64 bytes.length) with
        | none => exact ⟨raw, by simpa using h, by simp⟩
        | some word =>
            have hword := length_peekData hp
            dsimp only
            set chunk := if want - bytes.length < 8 then want - bytes.length else 8 with hchunk
            have hle : chunk ≤ 8 ∧ chunk ≤ want - bytes.length := by split at hchunk <;> omega
            have htake : (word.take chunk).length = chunk := by
              rw [List.length_take, hword]
              omega
            obtain ⟨raw', hstore, hraw'⟩ := h.store (s := word.take chunk) (by omega)
            have hlen : (bytes ++ word.take chunk).length = bytes.length + chunk := by
              rw [List.length_append, htake]
            have hrest := ih hraw'
            rw [hlen, List.append_assoc] at hrest
            rw [hstore, Option.bind_eq_bind, Option.bind_some]
            exact hrest
      · rw [if_neg hlt, if_neg hlt]
        exact ⟨raw, by simpa using h, by simp⟩

/-- The scan stops at the first NUL of the bytes, or behind the last of them. -/
theorem scanRaw_eq (h : raw.Holds n bytes) {left len : Nat} (hlen : len + left = bytes.length) :
    scanRaw raw left len = some (len + (cstr (bytes.drop len)).length) := by
  induction left generalizing len with
  | zero =>
      rw [List.drop_of_length_le (by omega)]
      rfl
  | succ left ih =>
      have hlt : len < bytes.length := by omega
      rw [scanRaw, h.load hlt, List.drop_eq_getElem_cons hlt, Option.bind_eq_bind, Option.bind_some,
        cstr, List.takeWhile_cons]
      by_cases hc : bytes[len] = 0
      · rw [if_neg (by simpa using hc), if_neg (by simpa using hc)]
        rfl
      · rw [if_pos hc, if_pos (by simpa using hc), ih (by omega), List.length_cons, cstr]
        congr 1
        omega

theorem escapeRaw_eq (h : raw.Holds n bytes) {left i : Nat} (hle : i + left ≤ bytes.length)
    (out : OutBuf) :
    escapeRaw raw left i out = some (escapeLoop out ((bytes.drop i).take left)) := by
  induction left generalizing i out with
  | zero => rw [List.take_zero]; rfl
  | succ left ih =>
      have hlt : i < bytes.length := by omega
      rw [escapeRaw, List.drop_eq_getElem_cons hlt, List.take_succ_cons, escapeLoop]
      split
      · rw [h.load hlt, Option.bind_eq_bind, Option.bind_some]
        exact ih (by omega) _
      · rfl

theorem quoteRaw_eq (h : raw.Holds n bytes) {len : Nat} (hle : len ≤ bytes.length) (more : Bool)
    (out : OutBuf) : quoteRaw raw len more out = some (quoteBytes out (bytes.take len) more) := by
  unfold quoteRaw quoteBytes
  dsimp only
  rw [escapeRaw_eq h (by omega), List.drop_zero]
  rfl

/-- `read_child_string` stores words inside `raw` and loads only what it stored. -/
theorem readChildStringRaw_eq (host : Host) (m : Mem) (addr : Word) (out : OutBuf) :
    readChildStringRaw host m addr out = some (readChildString host m addr out) := by
  unfold readChildStringRaw readChildString
  split
  · rfl
  · obtain ⟨raw, hraw, hfill⟩ := stringFill_holds m addr (readCap_le host)
      (readCap host) (Scratch.holds_new strArgBufLen)
    rw [List.nil_append, List.length_nil] at hraw hfill
    set bytes := stringLoop m addr (readCap host) (readCap host) 0
    have hcstr := length_cstr_le bytes
    rw [hfill, Option.bind_eq_bind, Option.bind_some]
    dsimp only
    split
    · rfl
    · rw [scanRaw_eq hraw (Nat.zero_add _), List.drop_zero, Nat.zero_add, Option.bind_eq_bind,
        Option.bind_some]
      split
      · exact quoteRaw_eq hraw (by omega) true out
      · exact quoteRaw_eq hraw hcstr _ out

theorem bufferWant_le_size (host : Host) (len : Nat) : bufferWant host len ≤ strArgBufLen := by
  unfold bufferWant
  dsimp only
  split_ifs <;> omega

/-- So does `read_child_buffer`. -/
theorem readChildBufferRaw_eq (host : Host) (m : Mem) (addr : Word) (len : Nat) (out : OutBuf) :
    readChildBufferRaw host m addr len out = some (readChildBuffer host m addr len out) := by
  unfold readChildBufferRaw readChildBuffer
  split
  · rfl
  · obtain ⟨raw, hraw, hfill⟩ := bufferFill_holds m addr (bufferWant_le_size host len)
      (bufferWant host len) (Scratch.holds_new strArgBufLen)
    rw [List.nil_append, List.length_nil] at hraw hfill
    dsimp only
    rw [hfill, Option.bind_eq_bind, Option.bind_some]
    dsimp only
    split
    · rfl
    · rw [quoteRaw_eq hraw (le_refl _), List.take_length]

end Raw

/-! ## The writes to `out` -/

section Out

variable {n : Nat} {out : OutBuf}

/-- Two characters in a row. -/
theorem putc_putc_within (h : Within n out) (hroom : out.oi + 2 ≤ n) (a b : Byte) :
    Within n ((out.putc a).putc b) := by
  have ha : Within n (out.putc a) := h.memcpy (by rw [List.length_singleton]; omega)
  refine ha.memcpy ?_
  simp only [OutBuf.putc, OutBuf.memcpy, List.length_singleton]
  omega

theorem escapeByte_within (h : Within n out) (hroom : out.oi + 5 < n) (c : Byte) :
    Within n (escapeByte out c) := by
  have hhex : (lit "\\x" ++ hex02 c).length = 4 := by
    have hx : (lit "\\x").length = 2 := by with_unfolding_all decide
    rw [List.length_append, hx]
    rfl
  unfold escapeByte
  split_ifs
  · exact putc_putc_within h (by omega) _ _
  · exact putc_putc_within h (by omega) _ _
  · exact h.memcpy (by rw [List.length_singleton]; omega)
  · exact h.snprintf (by omega)

theorem escapeLoop_within (h : Within n out) (bytes : Text) : Within n (escapeLoop out bytes) := by
  induction bytes generalizing out with
  | nil => exact h
  | cons c cs ih =>
      rw [escapeLoop, h.size_eq]
      split
      · exact ih (escapeByte_within h ‹_› c)
      · exact h

/-- One character behind a test for a cell. -/
theorem putc_within (h : Within n out) (c : Byte) :
    Within n (if out.oi < out.size then out.putc c else out) :=
  h.memcpy_if fun hlt => by rw [h.size_eq] at hlt; exact hlt

theorem quoteBytes_terminated (h : Within n out) (hpos : 0 < n) (bytes : Text) (more : Bool) :
    Terminated n (quoteBytes out bytes more) := by
  have hclose := putc_within (escapeLoop_within (putc_within h 0x22) bytes) 0x22
  refine Within.terminate (hclose.memcpy_if fun hroom => ?_) hpos
  rw [hclose.size_eq] at hroom
  rw [length_dots]
  exact hroom.2.le

theorem argvItem_within (h : Within n out) (count : Nat) (item : Text) :
    Within n (argvItem out count item) := by
  have hsep : Within n
      (if count > 0 ∧ out.oi + 2 < out.size then (out.putc 0x2c).putc 0x20 else out) := by
    split
    · rename_i hroom
      rw [h.size_eq] at hroom
      exact putc_putc_within h hroom.2.le _ _
    · exact h
  refine hsep.memcpy_if fun hroom => ?_
  rw [hsep.size_eq] at hroom
  exact hroom.le

theorem argvLoop_within (h : Within n out) (host : Host) (m : Mem) (addr : Word) (left : Nat) :
    Within n (argvLoop host m addr left out).1 := by
  induction left generalizing out with
  | zero => exact h
  | succ left ih =>
      rw [argvLoop]
      dsimp only
      split
      · exact h
      · split
        · exact h
        · split
          · exact argvItem_within h _ _
          · exact ih (argvItem_within h _ _)

end Out

variable {n : Nat}

theorem readChildString_terminated (host : Host) (m : Mem) (addr : Word) (hpos : 0 < n)
    (hn : n < 2 ^ 64) (init : Nat → Byte) :
    Terminated n (readChildString host m addr (new n init)) := by
  have hquote := quoteBytes_terminated (within_new hn init) hpos
  unfold readChildString
  dsimp only
  split_ifs
  · exact terminated_snprintf hpos hn init plain_null.ne_nil
  · exact terminated_snprintf hpos hn init (plain_hex0x _).ne_nil
  · exact hquote _ _
  · exact hquote _ _

theorem readChildBuffer_terminated (host : Host) (m : Mem) (addr : Word) (len : Nat) (hpos : 0 < n)
    (hn : n < 2 ^ 64) (init : Nat → Byte) :
    Terminated n (readChildBuffer host m addr len (new n init)) := by
  unfold readChildBuffer
  dsimp only
  split_ifs
  · exact terminated_snprintf hpos hn init plain_null.ne_nil
  · exact terminated_snprintf hpos hn init (plain_hex0x _).ne_nil
  · exact quoteBytes_terminated (within_new hn init) hpos _ _

theorem readChildArgv_terminated (host : Host) (m : Mem) (addr : Word) (hpos : 0 < n)
    (hn : n < 2 ^ 64) (init : Nat → Byte) :
    Terminated n (readChildArgv host m addr (new n init)) := by
  have hmore : (lit ", ...").length = 5 := by with_unfolding_all decide
  unfold readChildArgv
  split
  · exact terminated_snprintf hpos hn init plain_null.ne_nil
  · have hloop := argvLoop_within (putc_within (within_new hn init) 0x5b) host m addr maxArgvItems
    dsimp only
    generalize argvLoop host m addr maxArgvItems _ = looped at hloop ⊢
    refine Within.terminate (putc_within (hloop.memcpy_if fun hroom => ?_) 0x5d) hpos
    rw [hloop.size_eq] at hroom
    rw [hmore]
    exact hroom.2.le

/-- The readers of tracee memory stay inside their arrays: the loops over `raw` never fault,
which makes them what the models over lists say, and `out` is written within its size, of one
cell at least, and ends in a NUL. -/
theorem childReaders_inBounds (host : Host) (m : Mem) (addr : Word) (len : Nat) (hpos : 1 ≤ n)
    (hn : n < 2 ^ 64) (init : Nat → Byte) :
    (readChildStringRaw host m addr (new n init) =
        some (readChildString host m addr (new n init)) ∧
      Terminated n (readChildString host m addr (new n init))) ∧
    (readChildBufferRaw host m addr len (new n init) =
        some (readChildBuffer host m addr len (new n init)) ∧
      Terminated n (readChildBuffer host m addr len (new n init))) ∧
    Terminated n (readChildArgv host m addr (new n init)) :=
  ⟨⟨readChildStringRaw_eq host m addr _, readChildString_terminated host m addr hpos hn init⟩,
    ⟨readChildBufferRaw_eq host m addr len _,
      readChildBuffer_terminated host m addr len hpos hn init⟩,
    readChildArgv_terminated host m addr hpos hn init⟩

/-- Memory without a NUL, into a single cell. -/
theorem childReaders_inBounds_one :
    Terminated 1 (readChildString default (fun _ => some 0x41) 0x1000 (new 1 fun _ => 0x2a)) ∧
      Terminated 1 (readChildArgv default (fun _ => some 0x41) 0x1000 (new 1 fun _ => 0x2a)) :=
  have h := childReaders_inBounds default (fun _ => some 0x41) 0x1000 300 (le_refl 1) (by decide)
    fun _ => 0x2a
  ⟨h.1.2, h.2.2⟩

end MiniStrace
