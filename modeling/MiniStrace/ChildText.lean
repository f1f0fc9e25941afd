/-
  ChildText.lean --- what the readers of tracee memory leave in an argument slot.

  A slot is an array of `STR_ARG_BUF_LEN` cells that nothing has been written to.  The
  text a reader leaves there is given as a function of memory, together with the bytes
  it depends on: for a string, those up to `max_str_len` and one more, which decides
  whether the text is marked as truncated; for a buffer, those that fit into the slot.
-/
import MiniStrace.ChildMem

set_option autoImplicit false

namespace MiniStrace

open CLib OutBuf

theorem strArgBufLen_lt : strArgBufLen < 2 ^ 64 := by decide

/-- One short print into a slot. -/
theorem str_snprintf {t : Text} (ht : Plain t) (hlen : t.length < strArgBufLen)
    (init : Nat → Byte) : ((new strArgBufLen init).snprintf t).str = t :=
  (prints_snprintf t).str_of_lt strArgBufLen_lt hlen ht.ne_nil
    (fun _ hc => ht.clean.ne_zero hc) init

theorem lit_null : lit "NULL" = [0x4e, 0x55, 0x4c, 0x4c] := by with_unfolding_all decide

theorem plain_null : Plain (lit "NULL") := by with_unfolding_all decide

theorem length_null : (lit "NULL").length < strArgBufLen := by with_unfolding_all decide

/-- An address takes at most eighteen characters. -/
theorem length_addr_le (addr : Word) : (hex0x addr.toNat).length ≤ 18 :=
  length_hex0x_le (by decide) (show addr.toNat < 16 ^ 16 from addr.isLt)

theorem str_null (init : Nat → Byte) :
    ((new strArgBufLen init).snprintf (lit "NULL")).str = lit "NULL" :=
  str_snprintf plain_null length_null init

theorem str_hex0x (addr : Word) (init : Nat → Byte) :
    ((new strArgBufLen init).snprintf (hex0x addr.toNat)).str = hex0x addr.toNat := by
  have hle := length_addr_le addr
  have hlen : strArgBufLen = 1024 := rfl
  exact str_snprintf (plain_hex0x _) (by omega) init

theorem str_quoteBytes (bytes : Text) (more : Bool) (init : Nat → Byte) :
    (quoteBytes (new strArgBufLen init) bytes more).str = quoteText strArgBufLen bytes more :=
  (quoteBytes_spec (filled_new strArgBufLen_lt init) (show 2 < strArgBufLen by decide) bytes more).1

/-! ## Strings -/

/-- The text for the bytes read of a string. -/
def rawStringText (host : Host) (raw : Text) : Text :=
  let len := (cstr raw).length
  if len > host.maxStrLen then quoteText strArgBufLen (raw.take host.maxStrLen) true
  else quoteText strArgBufLen (raw.take len) (len == raw.length)

/-- The text of `read_child_string` in a slot. -/
def stringText (host : Host) (m : Mem) (addr : Word) : Text :=
  if addr = 0 then lit "NULL"
  else
    let raw := stringLoop m addr (readCap host) (readCap host) 0
    if raw.length = 0 then hex0x addr.toNat else rawStringText host raw

theorem readChildString_str (host : Host) (m : Mem) (addr : Word) (init : Nat → Byte) :
    (readChildString host m addr (new strArgBufLen init)).str = stringText host m addr := by
  unfold readChildString stringText
  split
  · exact str_null init
  · dsimp only
    split
    · exact str_hex0x addr init
    · unfold rawStringText
      dsimp only
      split
      · exact str_quoteBytes _ _ init
      · exact str_quoteBytes _ _ init

theorem stringText_clean (host : Host) (m : Mem) (addr : Word) : Clean (stringText host m addr) := by
  unfold stringText rawStringText
  dsimp only
  split_ifs
  · exact plain_null.clean
  · exact clean_hex0x _
  · exact quoteText_clean _ _ _
  · exact quoteText_clean _ _ _

/-- How many bytes of a string matter. -/
def shownString (host : Host) : Nat := min (host.maxStrLen + 1) (readCap host)

/-- The text of a string depends on the bytes before the cut, the next one, and the
number of bytes read. -/
theorem rawStringText_congr {host : Host} {raw raw' : Text} (hlen : raw.length = raw'.length)
    (h : raw.take (host.maxStrLen + 1) = raw'.take (host.maxStrLen + 1)) :
    rawStringText host raw = rawStringText host raw' := by
  have hcut : (cstr raw).take (host.maxStrLen + 1) = (cstr raw').take (host.maxStrLen + 1) := by
    unfold cstr
    rw [List.take_takeWhile, List.take_takeWhile, h]
  have hmin : min (host.maxStrLen + 1) (cstr raw).length =
      min (host.maxStrLen + 1) (cstr raw').length := by
    rw [← List.length_take, ← List.length_take, hcut]
  have htake : ∀ k, k ≤ host.maxStrLen + 1 → raw.take k = raw'.take k := by
    intro k hk
    have := congrArg (List.take k) h
    rwa [List.take_take, List.take_take, min_eq_left hk] at this
  unfold rawStringText
  dsimp only
  by_cases hbig : (cstr raw).length > host.maxStrLen
  · rw [if_pos hbig, if_pos (by omega), htake _ (by omega)]
  · have heq : (cstr raw').length = (cstr raw).length := by omega
    rw [if_neg hbig, if_neg (by omega), heq, htake _ (by omega), hlen]

/-- Two reads of a string that agree on all bytes up to the last word. -/
theorem stringLoop_congr {m m' : Mem} {addr : Word} {cap shown : Nat} (hmap : m.SameMap m')
    (hb : ∀ i, i < shown → m.byteAt addr i = m'.byteAt addr i) (hshown : cap ≤ shown + 7)
    (fuel got : Nat) :
    (stringLoop m addr cap fuel got).length = (stringLoop m' addr cap fuel got).length ∧
      (stringLoop m addr cap fuel got).take (shown - got) =
        (stringLoop m' addr cap fuel got).take (shown - got) := by
  induction fuel generalizing got with
  | zero => exact ⟨rfl, rfl⟩
  | succ fuel ih =>
      rw [stringLoop, stringLoop]
      by_cases hle : got + 8 ≤ cap
      · rw [if_pos hle, if_pos hle]
        by_cases hp : Peekable m (addr + BitVec.ofNat 64 got)
        · rw [peekData, if_pos hp, peekData, if_pos ((peekable_congr hmap _).mp hp)]
          dsimp only
          by_cases hin : got + 8 ≤ shown
          · -- a word that matters in full
            have hword : m.bytes (addr + BitVec.ofNat 64 got) 8 =
                m'.bytes (addr + BitVec.ofNat 64 got) 8 := by
              refine Mem.bytes_congr fun i hi => ?_
              rw [Mem.byteAt_add, Mem.byteAt_add]
              exact hb _ (by omega)
            rw [hword]
            split
            · exact ⟨rfl, rfl⟩
            · obtain ⟨hl, ht⟩ := ih (got + 8)
              refine ⟨by rw [List.length_append, List.length_append, hl], ?_⟩
              have hsub : shown - got = 8 + (shown - (got + 8)) := by omega
              rw [hsub, List.take_append, List.take_append, Mem.length_bytes,
                Nat.add_sub_cancel_left, ht]
          · -- the last word: nothing follows it
            have hlast : ∀ n : Mem, stringLoop n addr cap fuel (got + 8) = [] := by
              intro n
              cases fuel with
              | zero => rfl
              | succ fuel => rw [stringLoop, if_neg (by omega)]
            rw [hlast, hlast, List.append_nil, List.append_nil, ite_self, ite_self]
            refine ⟨by rw [Mem.length_bytes, Mem.length_bytes], ?_⟩
            rw [Mem.take_bytes _ _ (by omega), Mem.take_bytes _ _ (by omega)]
            refine Mem.bytes_congr fun i hi => ?_
            rw [Mem.byteAt_add, Mem.byteAt_add]
            exact hb _ (by omega)
        · rw [peekData, if_neg hp, peekData, if_neg (mt (peekable_congr hmap _).mpr hp)]
          exact ⟨rfl, rfl⟩
      · rw [if_neg hle, if_neg hle]
        exact ⟨rfl, rfl⟩

theorem readCap_le_shown (host : Host) : readCap host ≤ shownString host + 7 := by
  unfold shownString readCap
  dsimp only
  split <;> omega

theorem length_stringLoop_le (m : Mem) (addr : Word) (cap : Nat) :
    (stringLoop m addr cap cap 0).length ≤ cap := by
  obtain ⟨k, hk, hle⟩ := stringLoop_eq m addr cap cap 0
  rw [hk, Mem.length_bytes]
  omega

/-- Words that can be peeked are read past every byte with no NUL before it. -/
theorem lt_length_stringLoop {m : Mem} {addr : Word} {cap k : Nat}
    (hm : ∀ g, g ≤ k → g % 8 = 0 → Peekable m (addr + BitVec.ofNat 64 g))
    (hcap : cap % 8 = 0) (hk : k < cap) (hz : ∀ i, i < k → m.byteAt addr i ≠ 0) (fuel got : Nat)
    (hgot : got % 8 = 0) (hle : got ≤ k) (hfuel : cap ≤ got + fuel) :
    k < got + (stringLoop m addr cap fuel got).length := by
  induction fuel generalizing got with
  | zero => omega
  | succ fuel ih =>
      rw [stringLoop, if_pos (by omega), peekData, if_pos (hm got hle hgot)]
      dsimp only
      by_cases hin : k < got + 8
      · split
        · rw [Mem.length_bytes]
          exact hin
        · rw [List.length_append, Mem.length_bytes]
          omega
      · -- a whole word before `k` holds no NUL
        have hword : (0 : Byte) ∉ m.bytes (addr + BitVec.ofNat 64 got) 8 := by
          intro h0
          obtain ⟨i, hi, he⟩ := List.mem_map.mp h0
          rw [Mem.byteAt_add] at he
          rw [List.mem_range] at hi
          exact hz (got + i) (by omega) he
        rw [if_neg hword, List.length_append, Mem.length_bytes]
        have := ih (got + 8) (by omega) (by omega) (by omega)
        omega

theorem readCap_mod (host : Host) : readCap host % 8 = 0 := by
  have hsize : strArgBufLen = 1024 := rfl
  unfold readCap
  dsimp only
  split <;> omega

/-- A string in mapped memory that ends within the bytes shown. -/
theorem stringText_terminated {host : Host} {m : Mem} (hm : ∀ a, (m a).isSome) {addr : Word}
    (haddr : addr ≠ 0) {k : Nat} (hk : k < shownString host) (h0 : m.byteAt addr k = 0)
    (hz : ∀ i, i < k → m.byteAt addr i ≠ 0) :
    stringText host m addr = quoteText strArgBufLen (m.bytes addr k) false := by
  unfold shownString at hk
  have hlt := lt_length_stringLoop (fun _ _ _ _ _ => hm _) (readCap_mod host)
    (lt_of_lt_of_le hk (min_le_right _ _)) hz (readCap host) 0 rfl (Nat.zero_le k) (by omega)
  obtain ⟨n, hraw, -⟩ := stringLoop_eq m addr (readCap host) (readCap host) 0
  rw [show addr + BitVec.ofNat 64 0 = addr from BitVec.add_zero addr] at hraw
  rw [hraw, Mem.length_bytes] at hlt
  have hcstr : cstr (m.bytes addr n) = m.bytes addr k := by
    obtain ⟨j, rfl⟩ : ∃ j, n = k + (1 + j) := ⟨n - k - 1, by omega⟩
    have hhead : m.bytes (addr + BitVec.ofNat 64 k) 1 = [0] := by
      rw [Mem.bytes, List.range_one, List.map_singleton, Mem.byteAt_add, Nat.add_zero, h0]
    rw [Mem.bytes_add, Mem.bytes_add _ _ 1 j, hhead, List.singleton_append, cstr_append_zero]
    refine cstr_of_forall_ne_zero fun b hb => ?_
    obtain ⟨i, hi, rfl⟩ := List.mem_map.mp hb
    exact hz i (List.mem_range.mp hi)
  unfold stringText rawStringText
  dsimp only
  rw [if_neg haddr, hraw, Mem.length_bytes, if_neg (by omega), hcstr, Mem.length_bytes,
    if_neg (by omega), m.take_bytes addr (by omega),
    show (k == n) = false from beq_false_of_ne (by omega)]

/-- A string in mapped memory that does not end within the bytes read. -/
theorem stringText_unterminated {host : Host} {m : Mem} (hm : ∀ a, (m a).isSome) {addr : Word}
    (haddr : addr ≠ 0) (hcap : 0 < readCap host) (hz : ∀ i, m.byteAt addr i ≠ 0) :
    ∃ j, stringText host m addr = quoteText strArgBufLen (m.bytes addr j) true := by
  have hlt := lt_length_stringLoop (k := readCap host - 1) (fun _ _ _ _ _ => hm _)
    (readCap_mod host) (by omega) (fun i _ => hz i) (readCap host) 0 rfl (Nat.zero_le _) (by omega)
  obtain ⟨n, hraw, -⟩ := stringLoop_eq m addr (readCap host) (readCap host) 0
  rw [show addr + BitVec.ofNat 64 0 = addr from BitVec.add_zero addr] at hraw
  rw [hraw, Mem.length_bytes] at hlt
  have hcstr : cstr (m.bytes addr n) = m.bytes addr n := by
    refine cstr_of_forall_ne_zero fun b hb => ?_
    obtain ⟨i, -, rfl⟩ := List.mem_map.mp hb
    exact hz i
  unfold stringText rawStringText
  dsimp only
  rw [if_neg haddr, hraw, Mem.length_bytes, if_neg (by omega), hcstr, Mem.length_bytes]
  split
  · exact ⟨host.maxStrLen, by rw [m.take_bytes addr (by omega)]⟩
  · exact ⟨n, by rw [m.take_bytes addr (le_refl n), beq_self_eq_true]⟩

/-- The text of a string depends on its first `shownString` bytes only. -/
theorem stringText_congr {host : Host} {m m' : Mem} {addr : Word} (hmap : m.SameMap m')
    (hb : addr ≠ 0 → ∀ i, i < shownString host → m.byteAt addr i = m'.byteAt addr i) :
    stringText host m addr = stringText host m' addr := by
  unfold stringText
  split
  · rfl
  · rename_i haddr
    obtain ⟨hlen, htake⟩ := stringLoop_congr hmap (hb haddr) (readCap_le_shown host)
      (readCap host) 0
    dsimp only
    rw [hlen]
    split
    · rfl
    · refine rawStringText_congr hlen ?_
      rw [Nat.sub_zero, shownString, ← List.take_take, ← List.take_take,
        List.take_of_length_le (length_stringLoop_le m addr _),
        List.take_of_length_le (length_stringLoop_le m' addr _)] at htake
      exact htake

/-! ## Buffers -/

/-- The text of `read_child_buffer` in a slot. -/
def bufferText (host : Host) (m : Mem) (addr : Word) (len : Nat) : Text :=
  if addr = 0 then lit "NULL"
  else
    let raw := readChildRaw m addr (bufferWant host len)
    if raw.length = 0 then hex0x addr.toNat else quoteText strArgBufLen raw (len > raw.length)

theorem readChildBuffer_str (host : Host) (m : Mem) (addr : Word) (len : Nat)
    (init : Nat → Byte) :
    (readChildBuffer host m addr len (new strArgBufLen init)).str = bufferText host m addr len := by
  unfold readChildBuffer bufferText readChildRaw
  split
  · exact str_null init
  · dsimp only
    split
    · exact str_hex0x addr init
    · exact str_quoteBytes _ _ init

theorem bufferText_clean (host : Host) (m : Mem) (addr : Word) (len : Nat) :
    Clean (bufferText host m addr len) := by
  unfold bufferText
  dsimp only
  split_ifs
  · exact plain_null.clean
  · exact clean_hex0x _
  · exact quoteText_clean _ _ _

theorem escapeText_full {size oi : Nat} (h : ¬ oi + 5 < size) (bytes : Text) :
    escapeText size oi bytes = [] := by
  cases bytes with
  | nil => rfl
  | cons c cs => rw [escapeText, if_neg h]

/-- Bytes past the room of the array are not looked at. -/
theorem escapeText_take {size oi k : Nat} (hk : size - 5 - oi ≤ k) (bytes : Text) :
    escapeText size oi (bytes.take k) = escapeText size oi bytes := by
  induction bytes generalizing oi k with
  | nil => rw [List.take_nil]
  | cons c cs ih =>
      by_cases hroom : oi + 5 < size
      · obtain ⟨n, rfl⟩ : ∃ n, k = n + 1 := ⟨k - 1, by omega⟩
        have hle := length_escape c
        rw [List.take_succ_cons, escapeText, escapeText, if_pos hroom, if_pos hroom,
          ih (by omega)]
      · rw [escapeText_full hroom, escapeText_full hroom]

/-- How many bytes of a buffer can be shown in a slot. -/
def shownBuffer (host : Host) (len : Nat) : Nat := min (bufferWant host len) (strArgBufLen - 6)

theorem quoteText_take (bytes : Text) (more : Bool) :
    quoteText strArgBufLen (bytes.take (strArgBufLen - 6)) more =
      quoteText strArgBufLen bytes more := by
  unfold quoteText
  rw [escapeText_take (by omega)]

/-- Bytes that stand for themselves fill the slot up to its last six cells. -/
theorem escapeText_plain {size oi : Nat} {bytes : Text} (h : ∀ c ∈ bytes, escape c = [c]) :
    escapeText size oi bytes = bytes.take (size - 5 - oi) := by
  induction bytes generalizing oi with
  | nil => rw [escapeText, List.take_nil]
  | cons c cs ih =>
      rw [escapeText]
      split
      · rw [h c List.mem_cons_self, List.length_singleton,
          ih fun d hd => h d (List.mem_cons_of_mem c hd),
          show size - 5 - oi = (size - 5 - (oi + 1)) + 1 by omega]
        rfl
      · rw [show size - 5 - oi = 0 by omega, List.take_zero]

theorem quoteText_plain {bytes : Text} (h : ∀ c ∈ bytes, escape c = [c]) (more : Bool) :
    quoteText strArgBufLen bytes more =
      lit "\"" ++ bytes.take (strArgBufLen - 6) ++ lit "\"" ++ if more then lit "..." else [] := by
  have hq : (lit "\"").length = 1 := by with_unfolding_all decide
  have hsize : strArgBufLen = 1024 := rfl
  unfold quoteText
  rw [escapeText_plain h, show strArgBufLen - 5 - 1 = strArgBufLen - 6 from rfl]
  dsimp only
  cases more with
  | false => rw [if_neg (by simp), if_neg (by simp), List.append_nil]
  | true =>
      have hroom : (lit "\"" ++ bytes.take (strArgBufLen - 6) ++ lit "\"").length + 3 <
          strArgBufLen := by
        simp only [List.length_append, List.length_take, hq]
        omega
      rw [if_pos ⟨rfl, hroom⟩, if_pos rfl]

/-- Two reads of mapped memory get equally far. -/
theorem length_readRawLoop_congr {m m' : Mem} {addr : Word} {want : Nat} (hmap : m.SameMap m')
    (fuel got : Nat) :
    (readRawLoop m addr want fuel got).length = (readRawLoop m' addr want fuel got).length := by
  induction fuel generalizing got with
  | zero => rfl
  | succ fuel ih =>
      rw [readRawLoop, readRawLoop]
      by_cases hlt : got < want
      · rw [if_pos hlt, if_pos hlt]
        by_cases hp : Peekable m (addr + BitVec.ofNat 64 got)
        · rw [peekData, if_pos hp, peekData, if_pos ((peekable_congr hmap _).mp hp)]
          simp only [List.length_append, List.length_take, Mem.length_bytes, ih]
        · rw [peekData, if_neg hp, peekData, if_neg (mt (peekable_congr hmap _).mpr hp)]
      · rw [if_neg hlt, if_neg hlt]

theorem length_readChildRaw_congr {m m' : Mem} (hmap : m.SameMap m') (addr : Word) (want : Nat) :
    (readChildRaw m addr want).length = (readChildRaw m' addr want).length :=
  length_readRawLoop_congr hmap want 0

/-- Every word of which one of the first `n` bytes at `addr` is a part is mapped. -/
def WordsMapped (m : Mem) (addr : Word) (n : Nat) : Prop :=
  ∀ p, p < (n + 7) / 8 * 8 → (m (addr + BitVec.ofNat 64 p)).isSome

theorem peekable_iff {m : Mem} {addr : Word} {got : Nat} :
    Peekable m (addr + BitVec.ofNat 64 got) ↔
      ∀ p, got ≤ p → p < got + 8 → (m (addr + BitVec.ofNat 64 p)).isSome := by
  have hadd : ∀ i, addr + BitVec.ofNat 64 got + BitVec.ofNat 64 i =
      addr + BitVec.ofNat 64 (got + i) := fun i => by rw [BitVec.add_assoc, BitVec.ofNat_add]
  constructor
  · intro h p hlo hhi
    have := h (p - got) (by omega)
    rwa [hadd, Nat.add_sub_cancel' hlo] at this
  · intro h i hi
    rw [hadd]
    exact h _ (by omega) (by omega)

/-- The loop gets to the end exactly if every word it peeks is mapped. -/
theorem length_readRawLoop_iff {m : Mem} {addr : Word} {want : Nat} (fuel got : Nat)
    (hgot : got % 8 = 0) (hfuel : want ≤ got + fuel) :
    (readRawLoop m addr want fuel got).length = want - got ↔
      ∀ p, got ≤ p → p < (want + 7) / 8 * 8 → (m (addr + BitVec.ofNat 64 p)).isSome := by
  induction fuel generalizing got with
  | zero =>
      rw [readRawLoop, List.length_nil]
      exact ⟨fun _ p hlo hhi => absurd hhi (by omega), fun _ => by omega⟩
  | succ fuel ih =>
      rw [readRawLoop]
      by_cases hlt : got < want
      · rw [if_pos hlt]
        by_cases hp : Peekable m (addr + BitVec.ofNat 64 got)
        · rw [peekData, if_pos hp]
          dsimp only
          rw [List.length_append, List.length_take, Mem.length_bytes]
          have hword := peekable_iff.mp hp
          by_cases hlast : want - got < 8
          · -- the last word; the loop ends behind it
            have hend : readRawLoop m addr want fuel (got + (want - got)) = [] := by
              cases fuel with
              | zero => rfl
              | succ fuel => rw [readRawLoop, if_neg (by omega)]
            rw [if_pos hlast, hend, List.length_nil]
            exact ⟨fun _ p hlo hhi => hword p hlo (by omega), fun _ => by omega⟩
          · rw [if_neg hlast]
            have hrest := ih (got + 8) (by omega) (by omega)
            constructor
            · intro hlen p hlo hhi
              by_cases hin : p < got + 8
              · exact hword p hlo hin
              · exact hrest.mp (by omega) p (by omega) hhi
            · intro hall
              rw [hrest.mpr fun p hlo hhi => hall p (by omega) hhi]
              omega
        · rw [peekData, if_neg hp, List.length_nil]
          constructor
          · intro h
            omega
          · intro hall
            exact absurd (peekable_iff.mpr fun p hlo hhi => hall p hlo (by omega)) hp
      · rw [if_neg hlt, List.length_nil]
        exact ⟨fun _ p hlo hhi => absurd hhi (by omega), fun _ => by omega⟩

theorem length_readChildRaw_iff {m : Mem} {addr : Word} {want : Nat} :
    (readChildRaw m addr want).length = want ↔ WordsMapped m addr want := by
  have h := @length_readRawLoop_iff m addr want want 0 rfl (by omega)
  simpa [readChildRaw, WordsMapped] using h

theorem readChildRaw_whole {m : Mem} {addr : Word} {want : Nat} (h : WordsMapped m addr want) :
    readChildRaw m addr want = m.bytes addr want := by
  rw [readChildRaw_eq, length_readChildRaw_iff.mpr h]

/-- The text of a buffer depends on its first `shownBuffer` bytes only. -/
theorem bufferText_congr {host : Host} {m m' : Mem} {addr : Word} {len : Nat}
    (hmap : m.SameMap m')
    (hb : addr ≠ 0 → ∀ i, i < shownBuffer host len → m.byteAt addr i = m'.byteAt addr i) :
    bufferText host m addr len = bufferText host m' addr len := by
  unfold bufferText
  split
  · rfl
  · rename_i haddr
    have hlen := length_readChildRaw_congr hmap addr (bufferWant host len)
    have hle := length_readChildRaw_le m addr (bufferWant host len)
    dsimp only
    rw [hlen]
    split
    · rfl
    · rw [← quoteText_take (readChildRaw m addr _), ← quoteText_take (readChildRaw m' addr _)]
      refine congrArg (quoteText strArgBufLen · _) ?_
      rw [readChildRaw_eq m, readChildRaw_eq m', ← hlen, Mem.bytes, Mem.bytes, ← List.map_take,
        ← List.map_take, List.take_range]
      refine List.map_congr_left fun i hi => ?_
      rw [List.mem_range] at hi
      refine hb haddr i ?_
      unfold shownBuffer
      omega

/-! ## Argument vectors -/

/-- The array holds a text without control bytes. -/
def FilledClean (size : Nat) (b : OutBuf) : Prop :=
  ∃ t, b.Filled t ∧ Clean t ∧ b.size = size

theorem FilledClean.memcpy {size : Nat} {b : OutBuf} (h : FilledClean size b) {s : Text}
    (hs : Clean s) (hroom : b.oi + s.length ≤ b.size) : FilledClean size (b.memcpy s) := by
  obtain ⟨t, hf, ht, hsize⟩ := h
  exact ⟨t ++ s, hf.memcpy hroom, clean_append.mpr ⟨ht, hs⟩, hsize⟩

theorem FilledClean.memcpy_if {size : Nat} {b : OutBuf} (h : FilledClean size b) {s : Text}
    (hs : Clean s) {c : Prop} [Decidable c] (hroom : c → b.oi + s.length ≤ b.size) :
    FilledClean size (if c then b.memcpy s else b) := by
  split
  · exact h.memcpy hs (hroom ‹_›)
  · exact h

theorem argvItem_clean {size : Nat} {b : OutBuf} (h : FilledClean size b) (count : Nat)
    {item : Text} (hi : Clean item) : FilledClean size (argvItem b count item) := by
  have hsep : FilledClean size
      (if count > 0 ∧ b.oi + 2 < b.size then (b.putc 0x2c).putc 0x20 else b) := by
    split
    · rename_i hroom
      have h₁ := h.memcpy (s := [0x2c]) (by decide) (by simp only [List.length_singleton]; omega)
      refine h₁.memcpy (s := [0x20]) (by decide) ?_
      simp only [OutBuf.memcpy, OutBuf.write, List.length_singleton]
      omega
    · exact h
  exact hsep.memcpy_if hi fun hroom => hroom.le

theorem argvLoop_clean {size : Nat} (host : Host) (m : Mem) (addr : Word) (left : Nat)
    {b : OutBuf} (h : FilledClean size b) : FilledClean size (argvLoop host m addr left b).1 := by
  induction left generalizing b with
  | zero => exact h
  | succ left ih =>
      rw [argvLoop]
      dsimp only
      split
      · exact h
      · split
        · exact h
        · rename_i ptr _ _
          have hitem : Clean (readChildString host m (BitVec.ofNat 64 (leNat ptr))
              (new strArgBufLen host.junk)).str := by
            rw [readChildString_str]
            exact stringText_clean host m _
          split
          · exact argvItem_clean h _ hitem
          · exact ih (argvItem_clean h _ hitem)

theorem FilledClean.str_terminate {size : Nat} {b : OutBuf} (h : FilledClean size b)
    (hpos : 0 < size) : Clean b.terminate.str := by
  obtain ⟨t, hf, ht, hsize⟩ := h
  rw [(hf.str_terminate (by omega) fun c hc => ht.ne_zero hc).1]
  exact ht.take _

theorem readChildArgv_clean (host : Host) (m : Mem) (addr : Word) (init : Nat → Byte) :
    Clean (readChildArgv host m addr (new strArgBufLen init)).str := by
  unfold readChildArgv
  split
  · rw [str_null]
    exact plain_null.clean
  · have h₀ : FilledClean strArgBufLen (new strArgBufLen init) :=
      ⟨[], filled_new strArgBufLen_lt init, clean_nil, rfl⟩
    have h₁ : FilledClean strArgBufLen
        (if (new strArgBufLen init).oi < (new strArgBufLen init).size
          then (new strArgBufLen init).putc 0x5b else new strArgBufLen init) :=
      h₀.memcpy_if (s := [0x5b]) (by decide) id
    have h₂ := argvLoop_clean host m addr maxArgvItems h₁
    have hmarker : Clean (lit ", ...") ∧ (lit ", ...").length = 5 := by with_unfolding_all decide
    dsimp only
    -- From here on only the buffer the loop leaves matters, not how it was filled.
    generalize argvLoop host m addr maxArgvItems _ = r at h₂ ⊢
    obtain ⟨b, truncated⟩ := r
    have h₃ := h₂.memcpy_if hmarker.1 (c := truncated = true ∧ b.oi + 5 < b.size)
      fun hc => by rw [hmarker.2]; exact hc.2.le
    exact (h₃.memcpy_if (s := [0x5d]) (by decide) id).str_terminate (by decide)

end MiniStrace
