/-
  Exit/Dumps.lean --- how many bytes of a kernel-written buffer are shown.

  READS.  `read`, `pread64` and `recvfrom` show as many bytes as the call returned;
  the length the caller passed is not consulted, so `recvfrom` with `MSG_TRUNC`, which
  returns more than it stored, shows bytes behind the buffer.

  ADDRESSES.  The length of a socket address is what the kernel left behind the length
  pointer.  The capacity the caller had put there is gone by then, at least two bytes
  are read, and a length that cannot be peeked counts as 128.
-/
import MiniStrace.Exit.Slots
import MiniStrace.Decoders.Sockaddr

set_option autoImplicit false

namespace MiniStrace

open CLib OutBuf

/-! ## Buffers -/

/-- A buffer in mapped memory. -/
theorem bufferText_mapped {host : Host} {m : Mem} (hm : ∀ a, (m a).isSome) {addr : Word}
    (haddr : addr ≠ 0) {len : Nat} (hwant : 0 < bufferWant host len) :
    bufferText host m addr len =
      quoteText strArgBufLen (m.bytes addr (bufferWant host len)) (len > bufferWant host len) := by
  have hread : readChildRaw m addr (bufferWant host len) = m.bytes addr (bufferWant host len) :=
    readChildRaw_whole fun _ _ => hm _
  unfold bufferText
  rw [if_neg haddr]
  dsimp only
  rw [hread, Mem.length_bytes, if_neg (by omega)]

/-- Every byte that fits into the slot can be seen to change. -/
theorem bufferText_visible (host : Host) {addr : Word} (haddr : addr ≠ 0) {len j : Nat}
    (hj : j < shownBuffer host len) :
    bufferText host (fun _ => some 0x61) addr len ≠
      bufferText host (Mem.poke (fun _ => some 0x61) (addr + BitVec.ofNat 64 j) 0x62) addr len := by
  have hsize : strArgBufLen = 1024 := rfl
  have hwant : j < bufferWant host len ∧ bufferWant host len ≤ strArgBufLen := by
    refine ⟨lt_of_lt_of_le hj (min_le_left _ _), ?_⟩
    unfold bufferWant
    dsimp only
    split_ifs <;> omega
  have hroom : j < strArgBufLen - 6 := lt_of_lt_of_le hj (min_le_right _ _)
  rw [bufferText_mapped (fun _ => rfl) haddr (by omega),
    bufferText_mapped (Mem.isSome_poke (fun _ => rfl) _ _) haddr (by omega),
    Mem.bytes_poke _ _ hwant.1 (by omega), Mem.bytes_const]
  have hplain : ∀ c : Byte, c = 0x61 ∨ c = 0x62 → escape c = [c] := by
    rintro c (rfl | rfl) <;> decide
  rw [quoteText_plain fun c hc => hplain c (Or.inl (List.eq_of_mem_replicate hc)),
    quoteText_plain fun c hc => hplain c ?_]
  · intro heq
    have h₁ := List.append_inj_left heq (by simp)
    have h₂ := List.append_inj_left h₁ (by simp)
    have h₃ := congrArg (·.getD j 0) (List.append_inj_right h₂ rfl)
    simp only [List.take_set] at h₃
    rw [List.getD_eq_getElem _ _ (by simp; omega), List.getD_eq_getElem _ _ (by simp; omega),
      List.getElem_set_self, List.getElem_take, List.getElem_replicate] at h₃
    exact absurd h₃ (by decide)
  · rcases List.mem_or_eq_of_mem_set hc with hc | hc
    · exact Or.inl (List.eq_of_mem_replicate hc)
    · exact Or.inr hc

/-! ## Socket addresses -/

/-- The text of an address depends on the bytes that are copied. -/
theorem sockaddrText_congr {host : Host} {m m' : Mem} {addr : Word} {addrlen : Nat}
    (hmap : m.SameMap m')
    (hb : ∀ p, p < sockaddrWant addrlen → m.byteAt addr p = m'.byteAt addr p) :
    sockaddrText host m addr addrlen = sockaddrText host m' addr addrlen := by
  unfold sockaddrText
  rw [readChildRaw_congr hmap hb]

theorem sockaddrWant_le (addrlen : Nat) : 2 ≤ sockaddrWant addrlen ∧ sockaddrWant addrlen ≤ 128 := by
  unfold sockaddrWant
  dsimp only
  split_ifs <;> omega

/-- `socklen_t` in memory: four mapped bytes. -/
def HoldsSocklen (m : Mem) (ptr : Word) (len : BitVec 32) : Prop :=
  (∀ i, i < 4 → (m (ptr + BitVec.ofNat 64 i)).isSome) ∧ leNat (m.bytes ptr 4) = len.toNat

/-- The length that is used: the kernel's, unless the word it is the low half of cannot
be peeked. -/
theorem readAddrlen_eq {t : Tracee} {args : Args} {name : String} {e : BufferArgEntry} {ret : Int}
    (he : acceptArgLookup name = some e) (hret : 0 ≤ ret) (hptr : args e.lenIdx ≠ 0)
    {len : BitVec 32} (hlen : HoldsSocklen t.mem (args e.lenIdx) len) :
    readAddrlen t args (.ofName name) ret =
      if Peekable t.mem (args e.lenIdx) then len.toNat else 128 := by
  have hentry : (Pending.ofName name).sockaddrEntry = some e := he
  unfold readAddrlen
  rw [hentry]
  dsimp only
  rw [if_pos ⟨hret, hptr⟩]
  by_cases hp : Peekable t.mem (args e.lenIdx)
  · rw [peekData, if_pos hp, if_pos hp]
    dsimp only
    rw [leNat_low (by simp), Mem.take_bytes _ _ (by decide), hlen.2]
  · rw [peekData, if_neg hp, if_neg hp]

/-! ## Every copied byte of an address can show -/

/-- A family without a decoder of its own. -/
theorem sockaddrBytesText_other {host : Host} {raw : Text} (h₁ : field raw 0 2 ≠ 1)
    (h₂ : field raw 0 2 ≠ 2) (h₁₀ : field raw 0 2 ≠ 10) :
    sockaddrBytesText host raw = lit "\x7bsa_family=" ++ dec (field raw 0 2) ++ lit ", ...\x7d" := by
  unfold sockaddrBytesText
  dsimp only
  rw [if_neg (fun h => h₂ h.1), if_neg (fun h => h₁₀ h.1), if_neg h₁]

/-- A path without a NUL. -/
theorem sockaddrBytesText_path {host : Host} {raw : Text} (h : field raw 0 2 = 1)
    (hz : ∀ c ∈ raw.drop 2, c ≠ 0) (hlen : 2 < raw.length) :
    sockaddrBytesText host raw =
      lit "\x7bsa_family=AF_UNIX, sun_path=\"" ++ raw.drop 2 ++ lit "\"\x7d" := by
  have hfirst : raw.getD 2 0 ≠ 0 := by
    rw [List.getD_eq_getElem _ _ hlen]
    refine hz _ (List.mem_iff_getElem.mpr ⟨0, by simpa using hlen, ?_⟩)
    simp
  rw [sockaddrBytesText_unix host h hlen, sunPathText_pathname ⟨h, hlen, hfirst⟩, pathOf,
    cstr_of_forall_ne_zero hz]

/-- The first two bytes of a buffer. -/
theorem field_family {body : Nat → Byte} {w : Nat} (hw : 2 ≤ w) :
    field ((List.range w).map body) 0 2 = (body 0).toNat + 256 * (body 1).toNat := by
  obtain ⟨k, rfl⟩ := Nat.exists_eq_add_of_le hw
  rw [List.range_add, List.map_append]
  simp [field, leNat, List.range_succ, Nat.ofDigits_cons]

/-- The bytes of a path in the file system's name space. -/
def unixBody (path : Nat → Byte) (p : Nat) : Byte :=
  if p = 0 then 1 else if p = 1 then 0 else path p

theorem cut_sockaddrBytesText_path {host : Host} {path : Nat → Byte} (hz : ∀ p, path p ≠ 0)
    {w : Nat} (hw : 2 < w) (hw' : w ≤ 128) :
    cut strArgBufLen (sockaddrBytesText host ((List.range w).map (unixBody path))) =
      lit "\x7bsa_family=AF_UNIX, sun_path=\"" ++ ((List.range w).map (unixBody path)).drop 2 ++
        lit "\"\x7d" := by
  have hpath : ∀ c ∈ ((List.range w).map (unixBody path)).drop 2, c ≠ 0 := by
    intro c hc
    obtain ⟨i, hi, rfl⟩ := List.mem_iff_getElem.mp hc
    rw [List.getElem_drop, List.getElem_map, List.getElem_range, unixBody, if_neg (by omega),
      if_neg (by omega)]
    exact hz _
  have hends : (∀ c ∈ lit "\x7bsa_family=AF_UNIX, sun_path=\"", c ≠ 0) ∧
      (lit "\x7bsa_family=AF_UNIX, sun_path=\"").length = 30 ∧ (∀ c ∈ lit "\"\x7d", c ≠ 0) ∧
      (lit "\"\x7d").length = 2 := by decide +kernel
  have hsize : strArgBufLen = 1024 := rfl
  rw [sockaddrBytesText_path (by rw [field_family hw.le]; rfl) hpath (by simpa using hw)]
  refine cut_of_lt (fun c hc => ?_) ?_
  · rcases List.mem_append.mp hc with hc | hc
    · rcases List.mem_append.mp hc with hc | hc
      · exact hends.1 c hc
      · exact hpath c hc
    · exact hends.2.2.1 c hc
  · simp only [List.length_append, hends.2.1, hends.2.2.2, List.length_drop, List.length_map,
      List.length_range]
    omega

/-- Two addresses that agree up to byte `j` and whose texts differ. -/
theorem sockaddrBytesText_visible (host : Host) {w j : Nat} (hw : 2 ≤ w) (hw' : w ≤ 128)
    (hj : j < w) :
    ∃ body body' : Nat → Byte, (∀ p, p < j → body p = body' p) ∧
      cut strArgBufLen (sockaddrBytesText host ((List.range w).map body)) ≠
        cut strArgBufLen (sockaddrBytesText host ((List.range w).map body')) := by
  by_cases hsmall : j < 2
  · -- another family
    refine ⟨fun _ => 0, fun p => if p = j then 3 else 0, fun p hp => ?_, ?_⟩
    · dsimp only
      rw [if_neg (by omega)]
    · have hfam : ∀ b : Nat → Byte, field ((List.range w).map b) 0 2 =
          (b 0).toNat + 256 * (b 1).toNat := fun b => field_family hw
      have hj' : j = 0 ∨ j = 1 := by omega
      rcases hj' with rfl | rfl <;>
        rw [sockaddrBytesText_other (by rw [hfam]; decide) (by rw [hfam]; decide)
            (by rw [hfam]; decide),
          sockaddrBytesText_other (by rw [hfam]; decide) (by rw [hfam]; decide)
            (by rw [hfam]; decide), hfam, hfam] <;>
        with_unfolding_all decide
  · -- another character of the path
    refine ⟨unixBody fun _ => 0x61, unixBody fun p => if p = j then 0x62 else 0x61,
      fun p hp => ?_, ?_⟩
    · simp only [unixBody, if_neg (by omega : ¬ p = j)]
    · rw [cut_sockaddrBytesText_path (fun _ => by decide) (by omega) hw',
        cut_sockaddrBytesText_path (fun p => by split <;> decide) (by omega) hw']
      intro heq
      have h₁ := List.append_inj_left heq (by simp)
      have h₂ := congrArg (·.getD (j - 2) 0) (List.append_inj_right h₁ rfl)
      rw [List.getD_eq_getElem _ _ (by simp; omega), List.getD_eq_getElem _ _ (by simp; omega),
        List.getElem_drop, List.getElem_drop, List.getElem_map, List.getElem_map,
        List.getElem_range, show 2 + (j - 2) = j by omega, unixBody, unixBody,
        if_neg (by omega), if_neg (by omega), if_neg (by omega), if_neg (by omega),
        if_pos rfl] at h₂
      exact absurd h₂ (by decide)

/-- A memory with an address at 0x1000 and its length at 0x2000; the byte behind the
length is mapped or not. -/
def addrMem (readable : Bool) (len : BitVec 32) (body : Nat → Byte) : Mem := fun a =>
  if a.toNat = 0x2004 ∧ readable = false then none
  else if 0x2000 ≤ a.toNat ∧ a.toNat < 0x2004 then
    some (UInt8.ofNat (len.toNat / 256 ^ (a.toNat - 0x2000)))
  else some (body (a.toNat - 0x1000))

theorem addrMem_addr (readable : Bool) (len : BitVec 32) (body : Nat → Byte) {p : Nat}
    (hp : p < 0x1000) : addrMem readable len body (0x1000 + BitVec.ofNat 64 p) = some (body p) := by
  have hnat : (0x1000 + BitVec.ofNat 64 p : Word).toNat = 0x1000 + p := by
    rw [BitVec.toNat_add, BitVec.toNat_ofNat, show (0x1000 : Word).toNat = 0x1000 from rfl]
    omega
  rw [addrMem, hnat, if_neg (by omega), if_neg (by omega), Nat.add_sub_cancel_left]

theorem addrMem_len (readable : Bool) (len : BitVec 32) (body : Nat → Byte) {i : Nat}
    (hi : i < 4) : addrMem readable len body (0x2000 + BitVec.ofNat 64 i) =
      some (UInt8.ofNat (len.toNat / 256 ^ i)) := by
  have hnat : (0x2000 + BitVec.ofNat 64 i : Word).toNat = 0x2000 + i := by
    rw [BitVec.toNat_add, BitVec.toNat_ofNat, show (0x2000 : Word).toNat = 0x2000 from rfl]
    omega
  rw [addrMem, hnat, if_neg (by omega), if_pos (by omega), Nat.add_sub_cancel_left]

theorem addrMem_holds (readable : Bool) (len : BitVec 32) (body : Nat → Byte) :
    HoldsSocklen (addrMem readable len body) 0x2000 len := by
  refine ⟨fun i hi => by rw [addrMem_len _ _ _ hi]; rfl, ?_⟩
  have hlt := len.isLt
  have hbyte : ∀ i, i < 4 → (addrMem readable len body).byteAt 0x2000 i =
      UInt8.ofNat (len.toNat / 256 ^ i) := fun i hi => by
    rw [Mem.byteAt, addrMem_len _ _ _ hi]
    rfl
  simp only [Mem.bytes, List.range_succ, List.range_zero, List.nil_append, List.cons_append,
    List.map_cons, List.map_nil, hbyte 0 (by decide), hbyte 1 (by decide), hbyte 2 (by decide),
    hbyte 3 (by decide), leNat, Nat.ofDigits_cons, Nat.ofDigits_nil, UInt8.toNat_ofNat']
  omega

theorem addrMem_peekable (readable : Bool) (len : BitVec 32) (body : Nat → Byte) :
    Peekable (addrMem readable len body) 0x2000 ↔ readable = true := by
  constructor
  · intro h
    by_contra hr
    have h4 := h 4 (by decide)
    rw [addrMem, if_pos ⟨by decide, by simpa using hr⟩] at h4
    exact absurd h4 (by decide)
  · rintro rfl i hi
    rw [addrMem, if_neg (by simp)]
    split <;> rfl

theorem addrMem_sameMap (readable : Bool) (len : BitVec 32) (body body' : Nat → Byte) :
    (addrMem readable len body).SameMap (addrMem readable len body') := by
  intro a
  unfold addrMem
  split_ifs <;> rfl

theorem addrMem_text (host : Host) (readable : Bool) (len : BitVec 32) (body : Nat → Byte)
    (addrlen : Nat) : sockaddrText host (addrMem readable len body) 0x1000 addrlen =
      sockaddrBytesText host ((List.range (sockaddrWant addrlen)).map body) := by
  obtain ⟨hlo, hhi⟩ := sockaddrWant_le addrlen
  have hread : readChildRaw (addrMem readable len body) 0x1000 (sockaddrWant addrlen) =
      (List.range (sockaddrWant addrlen)).map body := by
    rw [readChildRaw_whole fun p hp => by rw [addrMem_addr _ _ _ (by omega)]; rfl]
    refine List.map_congr_left fun p hp => ?_
    rw [List.mem_range] at hp
    rw [Mem.byteAt, addrMem_addr _ _ _ (by omega)]
    rfl
  unfold sockaddrText
  rw [if_neg (by decide)]
  dsimp only
  rw [hread, List.length_map, List.length_range, if_neg (by omega)]

/-! ## The conditions -/

theorem assigns_of_readArg {name : String} {e : BufferArgEntry} (he : readArgLookup name = some e) :
    Lookup.readArg.assigns name e.bufIdx = true := by
  simp [Lookup.assigns, Lookup.ask, Answer.names, he]

theorem assigns_of_acceptArg {name : String} {e : BufferArgEntry}
    (he : acceptArgLookup name = some e) : Lookup.acceptArg.assigns name e.bufIdx = true := by
  simp [Lookup.assigns, Lookup.ask, Answer.names, he]

/-- The text of a slot that does not pass its gate depends on no memory. -/
theorem exitArg_gated_mem {host : Host} {t : Tracee} {m' : Mem} {showFdPaths : Bool} {name : String}
    {args : Args} {ret : Int} {l : Lookup} {i : Nat} (hl : l ∈ outputLadder)
    (h : l.assigns name i = true) (hg : l.gate ret = false) :
    exitArg host t showFdPaths name args (.ofName name) ret i =
      exitArg host { t with mem := m' } showFdPaths name args (.ofName name) ret i := by
  rw [exitArg_gated hl h hg, exitArg_gated hl h hg]
  rfl

/-- The data of a read is shown from its first `min n ret` bytes exactly when no more
than the caller's `n` bytes of what was returned are shown. -/
theorem read_shows_only_stored_iff (host : Host) {name : String} {e : BufferArgEntry}
    (he : readArgLookup name = some e) (ret : Int) (args : Args) :
    (∀ (t : Tracee) (m' : Mem) (showFdPaths : Bool), t.mem.SameMap m' →
      (∀ p, p < min (args e.lenIdx).toNat ret.toNat →
        t.mem.byteAt (args e.bufIdx) p = m'.byteAt (args e.bufIdx) p) →
      exitArg host t showFdPaths name args (.ofName name) ret e.bufIdx =
        exitArg host { t with mem := m' } showFdPaths name args (.ofName name) ret e.bufIdx) ↔
    (0 < ret → args e.bufIdx ≠ 0 → shownBuffer host ret.toNat ≤ (args e.lenIdx).toNat) := by
  have hassign := assigns_of_readArg he
  have hmem : Lookup.readArg ∈ outputLadder := by decide
  have htext : 0 < ret → ∀ (t : Tracee) (showFdPaths : Bool),
      exitArg host t showFdPaths name args (.ofName name) ret e.bufIdx =
        bufferText host t.mem (args e.bufIdx) ret.toNat := fun hret t showFdPaths => by
    rw [exitArg_output hmem hassign (by simpa [Lookup.gate] using hret)]
    exact readChildBuffer_str _ _ _ _ _
  have hle : shownBuffer host ret.toNat ≤ ret.toNat := by
    refine le_trans (min_le_left _ _) ?_
    unfold bufferWant
    dsimp only
    split_ifs <;> omega
  constructor
  · intro h hret haddr
    by_contra hlt
    have hvis := @bufferText_visible host _ haddr ret.toNat (args e.lenIdx).toNat (by omega)
    have hsame := h ⟨0, fun _ => some 0x61, fun _ => none⟩
      (Mem.poke (fun _ => some 0x61) (args e.bufIdx + BitVec.ofNat 64 (args e.lenIdx).toNat) 0x62)
      false (fun a => by rw [Mem.isSome_poke (fun _ => rfl)]; rfl) fun p hp => ?_
    · rw [htext hret, htext hret] at hsame
      exact hvis hsame
    · -- the byte that was set lies behind the caller's buffer
      have hlen := (args e.lenIdx).isLt
      rw [Mem.byteAt_poke _ _ hlen (by omega), if_neg (by omega)]
  · intro h t m' showFdPaths hmap hb
    by_cases hret : 0 < ret
    · rw [htext hret, htext hret]
      refine bufferText_congr hmap fun haddr p hp => hb p ?_
      have := h hret haddr
      omega
    · exact exitArg_gated_mem hmem hassign (by simpa [Lookup.gate] using hret)

/-- The text of an address at its own slot. -/
theorem exitArg_accept {host : Host} {t : Tracee} {showFdPaths : Bool} {name : String}
    {args : Args} {ret : Int} {e : BufferArgEntry} (he : acceptArgLookup name = some e)
    (hret : 0 ≤ ret) :
    exitArg host t showFdPaths name args (.ofName name) ret e.bufIdx =
      cut strArgBufLen (sockaddrText host t.mem (args e.bufIdx)
        (readAddrlen t args (.ofName name) ret)) := by
  rw [exitArg_output (by decide) (assigns_of_acceptArg he) (by simpa [Lookup.gate] using hret)]
  exact formatSockaddr_str _ _ _ _ _

theorem accept_slots_differ : ∀ e ∈ acceptArgTable, e.bufIdx ≠ e.lenIdx := by decide

/-- A socket address whose capacity was `c` and whose length the kernel set to `len` is
shown from its first `min c len` bytes exactly when no more than these are copied. -/
theorem sockaddr_shows_only_stored_iff (host : Host) {name : String} {e : BufferArgEntry}
    (he : acceptArgLookup name = some e) (ret : Int) (c len : BitVec 32) (readable : Bool) :
    (∀ (entry : Mem) (t : Tracee) (m' : Mem) (args : Args) (showFdPaths : Bool),
      args e.lenIdx ≠ 0 → HoldsSocklen entry (args e.lenIdx) c →
      HoldsSocklen t.mem (args e.lenIdx) len → HoldsSocklen m' (args e.lenIdx) len →
      (Peekable t.mem (args e.lenIdx) ↔ readable = true) → t.mem.SameMap m' →
      (∀ p, p < min c.toNat len.toNat →
        t.mem.byteAt (args e.bufIdx) p = m'.byteAt (args e.bufIdx) p) →
      exitArg host t showFdPaths name args (.ofName name) ret e.bufIdx =
        exitArg host { t with mem := m' } showFdPaths name args (.ofName name) ret e.bufIdx) ↔
    (0 ≤ ret → sockaddrWant (if readable then len.toNat else 128) ≤ min c.toNat len.toNat) := by
  constructor
  · intro h hret
    by_contra hlt
    obtain ⟨hlo, hhi⟩ := sockaddrWant_le (if readable then len.toNat else 128)
    obtain ⟨body, body', hagree, hne⟩ := sockaddrBytesText_visible host hlo hhi
      (j := min c.toNat len.toNat) (by omega)
    have hdiff : e.bufIdx ≠ e.lenIdx := by
      unfold acceptArgLookup bufferLookup at he
      exact accept_slots_differ e (List.mem_of_find?_eq_some he)
    set args : Args := fun i => if i = e.lenIdx then 0x2000 else 0x1000 with hargs
    have hptr : args e.lenIdx = 0x2000 := if_pos rfl
    have haddr : args e.bufIdx = 0x1000 := if_neg hdiff
    have hsame := h (addrMem true c body) ⟨0, addrMem readable len body, fun _ => none⟩
      (addrMem readable len body') args false (by rw [hptr]; decide)
      (by rw [hptr]; exact addrMem_holds _ _ _) (by rw [hptr]; exact addrMem_holds _ _ _)
      (by rw [hptr]; exact addrMem_holds _ _ _) (by rw [hptr]; exact addrMem_peekable _ _ _)
      (addrMem_sameMap _ _ _ _) fun p hp => ?_
    · have hlen : ∀ b, readAddrlen ⟨0, addrMem readable len b, fun _ => none⟩ args (.ofName name)
          ret = if readable then len.toNat else 128 := fun b => by
        rw [readAddrlen_eq he hret (by rw [hptr]; decide)
          (by rw [hptr]; exact addrMem_holds readable len b), hptr]
        simp only [addrMem_peekable]
      rw [exitArg_accept he hret, exitArg_accept he hret, hlen, hlen, haddr, addrMem_text,
        addrMem_text] at hsame
      exact hne hsame
    · have hbyte : ∀ b, (addrMem readable len b).byteAt 0x1000 p = b p := fun b => by
        rw [Mem.byteAt, addrMem_addr _ _ _ (by omega)]
        rfl
      rw [haddr, hbyte, hagree p hp]
      exact (hbyte body').symm
  · intro h entry t m' args showFdPaths hptr _ hlen hlen' hpeek hmap hb
    by_cases hret : 0 ≤ ret
    · rw [exitArg_accept he hret, exitArg_accept he hret, readAddrlen_eq he hret hptr hlen,
        readAddrlen_eq he hret hptr hlen']
      have hiff := peekable_congr hmap (args e.lenIdx)
      simp only [← hiff, hpeek]
      rw [sockaddrText_congr hmap fun p hp => hb p (lt_of_lt_of_le hp (h hret))]
    · exact exitArg_gated_mem (by decide) (assigns_of_acceptArg he)
        (by simpa [Lookup.gate] using hret)

/-- The dumps of the exit-stop show what the kernel stored and nothing behind it
exactly under the two conditions. -/
theorem dumps_show_only_stored_iff (host : Host) (name : String) (ret : Int) :
    (∀ e, readArgLookup name = some e → ∀ args : Args,
      (∀ (t : Tracee) (m' : Mem) (showFdPaths : Bool), t.mem.SameMap m' →
        (∀ p, p < min (args e.lenIdx).toNat ret.toNat →
          t.mem.byteAt (args e.bufIdx) p = m'.byteAt (args e.bufIdx) p) →
        exitArg host t showFdPaths name args (.ofName name) ret e.bufIdx =
          exitArg host { t with mem := m' } showFdPaths name args (.ofName name) ret e.bufIdx) ↔
      (0 < ret → args e.bufIdx ≠ 0 → shownBuffer host ret.toNat ≤ (args e.lenIdx).toNat)) ∧
    (∀ e, acceptArgLookup name = some e → ∀ (c len : BitVec 32) (readable : Bool),
      (∀ (entry : Mem) (t : Tracee) (m' : Mem) (args : Args) (showFdPaths : Bool),
        args e.lenIdx ≠ 0 → HoldsSocklen entry (args e.lenIdx) c →
        HoldsSocklen t.mem (args e.lenIdx) len → HoldsSocklen m' (args e.lenIdx) len →
        (Peekable t.mem (args e.lenIdx) ↔ readable = true) → t.mem.SameMap m' →
        (∀ p, p < min c.toNat len.toNat →
          t.mem.byteAt (args e.bufIdx) p = m'.byteAt (args e.bufIdx) p) →
        exitArg host t showFdPaths name args (.ofName name) ret e.bufIdx =
          exitArg host { t with mem := m' } showFdPaths name args (.ofName name) ret e.bufIdx) ↔
      (0 ≤ ret → sockaddrWant (if readable then len.toNat else 128) ≤ min c.toNat len.toNat)) :=
  ⟨fun _ he => read_shows_only_stored_iff host he ret,
    fun _ he => sockaddr_shows_only_stored_iff host he ret⟩

/-- `recvfrom` with `MSG_TRUNC` into a buffer of two bytes returns 4: two bytes behind
the buffer are shown. -/
theorem recvfrom_trunc_shows_behind :
    let args : Args := fun i => if i = 1 then 0x1000 else if i = 2 then 2 else 0
    readArgLookup "recvfrom" = some ⟨"recvfrom", 1, 2⟩ ∧
      exitArg default ⟨1, fun _ => some 0x61, fun _ => none⟩ false "recvfrom" args
        (.ofName "recvfrom") 4 1 = lit "\"aaaa\"" := by
  decide +kernel

end MiniStrace
