/-
  ChildReach.lean --- reads that fail because of memory nobody asked for.

  WHOLE WORDS.  All readers fetch eight bytes at a time from the address they were given,
  so the last fetch can reach up to seven bytes past the object.  A read is whole exactly
  when these bytes are mapped too: the theorem states it for `read_child_raw`,
  `read_child_buffer`, `read_child_string` and `format_wait_status`.

  ROOM.  The array is assumed to hold the whole text, so that nothing is lost to its size.
-/
import MiniStrace.ChildQuote
import MiniStrace.Decoders.StructText

set_option autoImplicit false

namespace MiniStrace

open CLib OutBuf

/-! ## The words of a read -/

theorem wordsMapped_iff {m : Mem} {addr : Word} {n : Nat} :
    WordsMapped m addr n ↔ ∀ g, g % 8 = 0 → g < n → Peekable m (addr + BitVec.ofNat 64 g) := by
  constructor
  · intro h g hg hlt
    exact peekable_iff.mpr fun p hlo hhi => h p (by omega)
  · intro h p hp
    exact peekable_iff.mp (h (p / 8 * 8) (by omega) (by omega)) p (by omega) (by omega)

/-- The word loop does not get past a word that cannot be peeked. -/
theorem length_stringLoop_le_of_not_peekable {m : Mem} {addr : Word} {g : Nat}
    (hbad : ¬ Peekable m (addr + BitVec.ofNat 64 g)) (hg : g % 8 = 0) (cap fuel got : Nat)
    (hgot : got % 8 = 0) (hle : got ≤ g) :
    got + (stringLoop m addr cap fuel got).length ≤ g := by
  induction fuel generalizing got with
  | zero => exact hle
  | succ fuel ih =>
      rw [stringLoop]
      split
      · cases hp : peekData m (addr + BitVec.ofNat 64 got) with
        | none => exact hle
        | some word =>
            obtain ⟨hpeek, rfl⟩ := peekData_eq_some.mp hp
            have hne : got ≠ g := fun heq => hbad (heq ▸ hpeek)
            dsimp only
            split
            · rw [Mem.length_bytes]
              omega
            · have hrest := ih (got + 8) (by omega) (by omega)
              rw [List.length_append, Mem.length_bytes]
              omega
      · exact hle

/-! ## Showing bytes -/

/-- The text is a quoted dump of exactly these bytes. -/
def ShowsBytes (str bytes : Text) : Prop :=
  ∃ mark, str = lit "\"" ++ escaped bytes ++ lit "\"" ++ mark ∧ (mark = [] ∨ mark = lit "...")

theorem ShowsBytes.read {str bytes : Text} (h : ShowsBytes str bytes) :
    ∃ marked, readQuoted str = some (bytes, marked) := by
  obtain ⟨mark, rfl, -⟩ := h
  exact ⟨_, by rw [readQuoted_form (noRawQuote_escaped bytes), unescape_escaped, Option.map_some]⟩

theorem ShowsBytes.head {str bytes : Text} (h : ShowsBytes str bytes) : str.head? = some 0x22 := by
  obtain ⟨mark, rfl, -⟩ := h
  rw [lit_quote]
  rfl

/-- The array holds the escaped bytes, the quotes, the marker and the NUL. -/
def Room (size : Nat) (m : Mem) (addr : Word) (n : Nat) : Prop := dumpWidth m addr n + 6 ≤ size

theorem fits_of_room {size : Nat} {m : Mem} {addr : Word} {n : Nat} (h : Room size m addr n) :
    fits size 1 (m.bytes addr n) = n := by
  have hle := fits_le size 1 (m.bytes addr n)
  rw [Mem.length_bytes] at hle
  cases n with
  | zero => exact Nat.le_zero.mp hle
  | succ n =>
      have hlast := (lt_fits_iff size 1 (m.bytes addr (n + 1)) (j := n)
        (by rw [Mem.length_bytes]; exact Nat.lt_succ_self n)).mpr ?_
      · omega
      · have hlt := dumpWidth_lt m addr (show n < n + 1 by omega)
        unfold Room at h
        rw [m.take_bytes addr (Nat.le_succ n)]
        change 1 + dumpWidth m addr n + 5 < size
        omega

theorem quoteText_shows {size : Nat} {m : Mem} {addr : Word} {n : Nat} (h : Room size m addr n)
    (more : Bool) : ShowsBytes (quoteText size (m.bytes addr n) more) (m.bytes addr n) := by
  rw [quoteText_eq, fits_of_room h, m.take_bytes addr le_rfl]
  refine ⟨_, rfl, ?_⟩
  split
  · exact Or.inr rfl
  · exact Or.inl rfl

/-- Only the dump of `n` bytes or more shows `n` bytes. -/
theorem Dump.le_of_shows {size : Nat} (hn : size < 2 ^ 64) (hsize : 2 < size) {addr : Word}
    {init : Nat → Byte} {d : Dump} {m : Mem} {n : Nat}
    (h : ShowsBytes (d.run addr (new size init)).str (m.bytes addr n)) :
    ∃ bytes more, d = .quoted bytes more ∧ n ≤ bytes.length := by
  obtain ⟨bytes, more, rfl⟩ := Dump.quoted_of_head hn addr init (by omega) h.head
  refine ⟨bytes, more, rfl, ?_⟩
  obtain ⟨marked, hread⟩ := h.read
  rw [Dump.str_quoted hn addr init hsize, readQuoted_quoteText, Option.some.injEq,
    Prod.mk.injEq] at hread
  have hlen := congrArg List.length hread.1
  rw [List.length_take, Mem.length_bytes] at hlen
  omega

/-! ## The readers -/

section Readers

variable {host : Host} {m : Mem} {addr : Word} {size : Nat} {init : Nat → Byte}

theorem bufferDump_shows_iff (hmax : host.maxStrLen ≤ 1024) (hn : size < 2 ^ 64) {len : Nat}
    (hroom : Room size m addr (min len host.maxStrLen)) :
    (min len host.maxStrLen = 0 ∨ ShowsBytes (readChildBuffer host m addr len (new size init)).str
        (m.bytes addr (min len host.maxStrLen))) ↔
      min len host.maxStrLen = 0 ∨
        (addr ≠ 0 ∧ WordsMapped m addr (min len host.maxStrLen)) := by
  have hwant : bufferWant host len = min len host.maxStrLen := by
    have hbuf : strArgBufLen = 1024 := rfl
    unfold bufferWant
    dsimp only
    split_ifs <;> omega
  have hsize : 2 < size := by
    unfold Room at hroom
    omega
  refine or_congr_right' fun hpos => ?_
  rw [readChildBuffer_eq_run, bufferDump, hwant]
  constructor
  · intro hshows
    obtain ⟨bytes, more, hd, hle⟩ := Dump.le_of_shows hn hsize hshows
    dsimp only at hd
    split_ifs at hd with haddr hgot
    refine ⟨haddr, length_readChildRaw_iff.mp ?_⟩
    have hup := length_readChildRaw_le m addr (min len host.maxStrLen)
    rw [(Dump.quoted.inj hd).1] at hup ⊢
    omega
  · rintro ⟨haddr, hwords⟩
    dsimp only
    rw [if_neg haddr, readChildRaw_whole hwords, Mem.length_bytes, if_neg hpos,
      Dump.str_quoted hn addr init hsize]
    exact quoteText_shows hroom _

theorem stringDump_shows_iff (hmax : 1 ≤ host.maxStrLen ∧ host.maxStrLen ≤ 1024)
    (hn : size < 2 ^ 64) {len : Nat} (hstr : StringAt m addr len)
    (hroom : Room size m addr (min len host.maxStrLen)) :
    ShowsBytes (readChildString host m addr (new size init)).str
        (m.bytes addr (min len host.maxStrLen)) ↔
      addr ≠ 0 ∧ WordsMapped m addr (max 1 (min len host.maxStrLen)) := by
  have hcap : host.maxStrLen ≤ readCap host := by
    have hbuf : strArgBufLen = 1024 := rfl
    unfold readCap
    dsimp only
    split <;> omega
  have hsize : 2 < size := by
    unfold Room at hroom
    omega
  rw [readChildString_eq_run]
  constructor
  · intro hshows
    obtain ⟨bytes, more, hd, hle⟩ := Dump.le_of_shows hn hsize hshows
    have haddr : addr ≠ 0 := by
      rintro rfl
      rw [stringDump, if_pos rfl] at hd
      exact Dump.noConfusion hd
    have hgot : (stringRaw host m addr).length ≠ 0 := by
      intro h0
      rw [stringDump, if_neg haddr] at hd
      dsimp only at hd
      rw [if_pos h0] at hd
      exact Dump.noConfusion hd
    rw [stringDump_of_string hstr haddr rfl hgot] at hd
    rw [← (Dump.quoted.inj hd).1, Mem.length_bytes] at hle
    refine ⟨haddr, wordsMapped_iff.mpr fun g hg hlt => ?_⟩
    by_contra hbad
    have hstop : (stringRaw host m addr).length ≤ g := by
      have := length_stringLoop_le_of_not_peekable hbad hg (readCap host) (readCap host) 0 rfl
        (Nat.zero_le g)
      rwa [Nat.zero_add] at this
    omega
  · rintro ⟨haddr, hwords⟩
    have hreach : max 1 (min len host.maxStrLen) - 1 < (stringRaw host m addr).length := by
      have := lt_length_stringLoop (k := max 1 (min len host.maxStrLen) - 1)
        (fun g hle hg => wordsMapped_iff.mp hwords g hg (by omega)) (readCap_mod host) (by omega)
        (fun i hi => hstr.byteAt_ne_zero (by omega)) (readCap host) 0 rfl (Nat.zero_le _) (by omega)
      rwa [Nat.zero_add] at this
    rw [stringDump_of_string hstr haddr rfl (by omega), Dump.str_quoted hn addr init hsize,
      show min (min len (stringRaw host m addr).length) host.maxStrLen = min len host.maxStrLen by
        omega]
    exact quoteText_shows hroom _

theorem waitStatusText_head (host : Host) (wstatus : Nat) :
    ∃ rest, waitStatusText host wstatus = 0x5b :: rest := by
  have hexit : ∃ t, lit "[\x7bWIFEXITED(s) && WEXITSTATUS(s) == " = 0x5b :: t :=
    ⟨_, by with_unfolding_all rfl⟩
  have hsig : ∃ t, lit "[\x7bWIFSIGNALED(s) && WTERMSIG(s) == SIG" = 0x5b :: t :=
    ⟨_, by with_unfolding_all rfl⟩
  have hstop : ∃ t, lit "[\x7bWIFSTOPPED(s) && WSTOPSIG(s) == SIG" = 0x5b :: t :=
    ⟨_, by with_unfolding_all rfl⟩
  have hraw : ∃ t, lit "[0x" = 0x5b :: t := ⟨_, by with_unfolding_all rfl⟩
  obtain ⟨t₁, h₁⟩ := hexit
  obtain ⟨t₂, h₂⟩ := hsig
  obtain ⟨t₃, h₃⟩ := hstop
  obtain ⟨t₄, h₄⟩ := hraw
  unfold waitStatusText
  rw [h₁, h₂, h₃, h₄]
  split_ifs <;> exact ⟨_, rfl⟩

theorem formatWaitStatus_decodes_iff (hnames : host.CleanNames) (hn : size < 2 ^ 64)
    (hroom : (waitStatusText host (leNat (m.bytes addr 4))).length < size) :
    (formatWaitStatus host m addr (new size init)).str =
        waitStatusText host (leNat (m.bytes addr 4)) ↔ addr ≠ 0 ∧ Peekable m addr := by
  obtain ⟨rest, hhead⟩ := waitStatusText_head host (leNat (m.bytes addr 4))
  have hsize : 1 < size := by
    rw [hhead, List.length_cons] at hroom
    omega
  unfold formatWaitStatus
  by_cases haddr : addr = 0
  · rw [if_pos haddr]
    refine ⟨fun h => ?_, fun h => absurd haddr h.1⟩
    have hnull := head_null hn init hsize
    rw [h, hhead] at hnull
    exact absurd hnull (by simp)
  · rw [if_neg haddr]
    by_cases hp : Peekable m addr
    · have hlow : leNat (m.bytes addr 8) % 2 ^ 32 = leNat (m.bytes addr 4) := by
        rw [leNat_low (by simp), m.take_bytes addr (by omega)]
      have hplain := waitStatusText_plain hnames (leNat (m.bytes addr 4))
      rw [peekData, if_pos hp]
      dsimp only
      rw [hlow]
      exact iff_of_true ((prints_snprintf _).str_of_lt hn hroom hplain.ne_nil
        (fun c hc => hplain.clean.ne_zero hc) init) ⟨haddr, hp⟩
    · rw [peekData, if_neg hp]
      refine ⟨fun h => ?_, fun h => absurd h.2 hp⟩
      have hhex := head_hex0x hn addr init hsize
      dsimp only at h
      rw [h, hhead] at hhex
      exact absurd hhex (by simp)

end Readers

/-- The four readers: an object is read whole exactly when the words it ends in are
mapped to their end. -/
theorem reads_whole_iff {host : Host} (hmax : 1 ≤ host.maxStrLen ∧ host.maxStrLen ≤ 1024)
    (hnames : host.CleanNames) (m : Mem) (addr : Word) (outSize : Word) (init : Nat → Byte) :
    (∀ want, ((readChildRaw m addr want).length = want ∧
        readChildRaw m addr want = m.bytes addr want) ↔ WordsMapped m addr want) ∧
    (∀ len, Room outSize.toNat m addr (min len host.maxStrLen) →
      ((min len host.maxStrLen = 0 ∨
          ShowsBytes (readChildBuffer host m addr len (new outSize.toNat init)).str
            (m.bytes addr (min len host.maxStrLen))) ↔
        min len host.maxStrLen = 0 ∨
          (addr ≠ 0 ∧ WordsMapped m addr (min len host.maxStrLen)))) ∧
    (∀ len, StringAt m addr len → Room outSize.toNat m addr (min len host.maxStrLen) →
      (ShowsBytes (readChildString host m addr (new outSize.toNat init)).str
          (m.bytes addr (min len host.maxStrLen)) ↔
        addr ≠ 0 ∧ WordsMapped m addr (max 1 (min len host.maxStrLen)))) ∧
    ((waitStatusText host (leNat (m.bytes addr 4))).length < outSize.toNat →
      ((formatWaitStatus host m addr (new outSize.toNat init)).str =
          waitStatusText host (leNat (m.bytes addr 4)) ↔ addr ≠ 0 ∧ WordsMapped m addr 4)) := by
  have hone : WordsMapped m addr 4 ↔ Peekable m addr := by
    rw [wordsMapped_iff]
    constructor
    · intro h
      have := h 0 rfl (by decide)
      rwa [show addr + BitVec.ofNat 64 0 = addr from BitVec.add_zero addr] at this
    · intro h g hg hlt
      obtain rfl : g = 0 := by omega
      rwa [show addr + BitVec.ofNat 64 0 = addr from BitVec.add_zero addr]
  refine ⟨fun want => ⟨fun h => length_readChildRaw_iff.mp h.1,
      fun h => ⟨length_readChildRaw_iff.mpr h, readChildRaw_whole h⟩⟩,
    fun len hroom => bufferDump_shows_iff hmax.2 outSize.isLt hroom,
    fun len hstr hroom => stringDump_shows_iff hmax outSize.isLt hstr hroom, fun hroom => ?_⟩
  rw [hone]
  exact formatWaitStatus_decodes_iff hnames outSize.isLt hroom

/-- One page of letters, with a NUL in its last byte and nothing mapped behind it. -/
def lastPage : Mem := fun a =>
  if a.toNat < 0xfff then some 0x61 else if a = 0xfff then some 0 else none

/-- Read in the middle of the page, eight letters are whole. -/
theorem reads_whole_inside : (default : Host).CleanNames ∧
    ShowsBytes (readChildBuffer default lastPage 0x100 8 (new (64 : Word).toNat fun _ => 0)).str
      (lastPage.bytes 0x100 8) := by
  have h := (@reads_whole_iff default (by decide) default_cleanNames lastPage 0x100 64
    fun _ => 0).2.1 8 (show dumpWidth _ _ _ + 6 ≤ _ by with_unfolding_all decide)
  refine ⟨default_cleanNames, (h.mpr (Or.inr ⟨by decide, ?_⟩)).resolve_left (by decide)⟩
  intro p hp
  have hp8 : p < 8 := hp
  interval_cases p <;> with_unfolding_all decide

/-- At the end of the page, a string of one letter, a buffer of two bytes and a wait
status are mapped and not shown. -/
theorem reads_fail_at_page_end :
    StringAt lastPage 0xffe 1 ∧
    (readChildString default lastPage 0xffe (new 64 fun _ => 0)).str = lit "0xffe" ∧
    (readChildBuffer default lastPage 0xffe 2 (new 64 fun _ => 0)).str = lit "0xffe" ∧
    readChildRaw lastPage 0xffe 2 = [] ∧
    (∀ i, i < 4 → (lastPage (0xffc + BitVec.ofNat 64 i)).isSome) ∧
    (formatWaitStatus default lastPage 0xffc (new 64 fun _ => 0)).str = lit "0xffc" := by
  refine ⟨⟨?_, by with_unfolding_all decide⟩, by with_unfolding_all decide,
    by with_unfolding_all decide, by with_unfolding_all decide, by with_unfolding_all decide,
    by with_unfolding_all decide⟩
  intro i hi
  obtain rfl : i = 0 := by omega
  exact ⟨0x61, by decide, by with_unfolding_all decide⟩

end MiniStrace
