/-
  Decoders/StructText.lean --- the texts of the decoders of fixed-size structs.

  THE SHAPE.  `structText` is `formatStruct` with the array taken away: `NULL`, the
  address of a struct that cannot be read whole, or the text of its bytes.  For each
  decoder `Fills` says that it prints that text into any array, in calls that all
  start inside it.  The bytes a text depends on are named by a predicate on offsets.

  TEXTS IN TEXTS.  Where a decoder goes through an array of its own, its text holds
  what that array keeps.
-/
import MiniStrace.ChildText
import MiniStrace.Decoders.Pure

set_option autoImplicit false

namespace MiniStrace

open CLib OutBuf

/-! ## Fields -/

/-- Two byte strings that agree on a field have the same value there. -/
theorem field_congr {bs bs' : Text} {off len : Nat} (hlen : bs.length = bs'.length)
    (h : ∀ p, off ≤ p → p < off + len → bs.getD p 0 = bs'.getD p 0) :
    field bs off len = field bs' off len := by
  unfold field
  refine congrArg leNat (List.ext_getElem (by simp [hlen]) fun j h₁ h₂ => ?_)
  rw [List.length_take, List.length_drop] at h₁ h₂
  have hj := h (off + j) (by omega) (by omega)
  rw [List.getD_eq_getElem _ _ (by omega), List.getD_eq_getElem _ _ (by omega)] at hj
  simpa using hj

/-! ## Structs -/

/-- The text of `formatStruct`. -/
def structText (m : Mem) (addr : Word) (size : Nat) (text : Text → Text) : Text :=
  if addr = 0 then lit "NULL"
  else
    let raw := readChildRaw m addr size
    if raw.length < size then hex0x addr.toNat else text raw

theorem formatStruct_fills {k size : Nat} (hk : 1 ≤ k) {body : Text → OutBuf → OutBuf}
    {text : Text → Text} (h : ∀ raw, Fills k (body raw) (text raw)) (m : Mem) (addr : Word) :
    Fills k (formatStruct m addr size body) (structText m addr size text) := by
  unfold formatStruct structText
  split
  · exact (fills_snprintf _).mono hk
  · dsimp only
    split
    · exact (fills_snprintf _).mono hk
    · exact h _

theorem structText_plain {size : Nat} {text : Text → Text} (h : ∀ raw, Plain (text raw)) (m : Mem)
    (addr : Word) : Plain (structText m addr size text) := by
  unfold structText
  split
  · exact plain_null
  · dsimp only
    split
    · exact plain_hex0x _
    · exact h _

theorem structText_ne_nil {size : Nat} {text : Text → Text} (h : ∀ raw, text raw ≠ []) (m : Mem)
    (addr : Word) : structText m addr size text ≠ [] := by
  unfold structText
  split
  · exact plain_null.ne_nil
  · dsimp only
    split
    · exact (plain_hex0x _).ne_nil
    · exact h _

/-- A struct in a slot. -/
theorem formatStruct_str {k size : Nat} (hk : k ≤ strArgBufLen) {body : Text → OutBuf → OutBuf}
    {text : Text → Text} (h : ∀ raw, Fills k (body raw) (text raw)) (hne : ∀ raw, text raw ≠ [])
    (m : Mem) (addr : Word) (init : Nat → Byte) :
    (formatStruct m addr size body (new strArgBufLen init)).str =
      structText m addr size fun raw => cut strArgBufLen (text raw) := by
  unfold formatStruct structText
  split
  · exact str_null init
  · dsimp only
    split
    · exact str_hex0x addr init
    · exact (h _).str_eq_cut hk strArgBufLen_lt (by decide) (hne _) init

/-- The text of a struct depends on the bytes its body depends on. -/
theorem structText_congr {m m' : Mem} {addr : Word} {size : Nat} {text : Text → Text}
    {shown : Nat → Prop} (hmap : m.SameMap m')
    (htext : ∀ raw raw' : Text, raw.length = size → raw'.length = size →
      (∀ p, shown p → p < size → raw.getD p 0 = raw'.getD p 0) → text raw = text raw')
    (hb : addr ≠ 0 → ∀ p, shown p → m.byteAt addr p = m'.byteAt addr p) :
    structText m addr size text = structText m' addr size text := by
  unfold structText
  split
  · rfl
  · rename_i haddr
    have hlen := length_readChildRaw_congr hmap addr size
    have hle := length_readChildRaw_le m addr size
    dsimp only
    rw [← hlen]
    split
    · rfl
    · refine htext _ _ (by omega) (by omega) fun p hp hlt => ?_
      rw [readChildRaw_eq m, readChildRaw_eq m', Mem.getD_bytes _ _ (by omega),
        Mem.getD_bytes _ _ (by omega)]
      exact hb haddr p hp

/-- A struct in mapped memory is shown by its bytes. -/
theorem structText_mapped {m : Mem} (hm : ∀ a, (m a).isSome) {addr : Word} (haddr : addr ≠ 0)
    (size : Nat) (text : Text → Text) :
    structText m addr size text = text (m.bytes addr size) := by
  have hread : readChildRaw m addr size = m.bytes addr size :=
    readChildRaw_whole fun _ _ => hm _
  unfold structText
  rw [if_neg haddr]
  dsimp only
  rw [hread, Mem.length_bytes, if_neg (lt_irrefl size)]

/-! ## File status -/

theorem statFileTypeName_clean {mode : Nat} {name : String} (h : statFileTypeName mode = some name) :
    Clean (lit name) := by
  have hnames : ∀ s ∈ ["S_IFREG", "S_IFDIR", "S_IFCHR", "S_IFBLK", "S_IFIFO", "S_IFLNK",
      "S_IFSOCK"], Clean (lit s) := by with_unfolding_all decide
  refine hnames name ?_
  unfold statFileTypeName at h
  split at h <;> simp at h <;> simp [← h]

theorem modeText_clean (mode : Nat) : Clean (modeText mode) := by
  have hzero : Clean (lit "|0") ∧ Clean (lit "0") := by with_unfolding_all decide
  unfold modeText
  split
  · rename_i name hname
    simp [hzero, statFileTypeName_clean hname]
  · simp [hzero]

/-- The text of a `struct stat`. -/
def statText (st : Text) : Text :=
  lit "\x7bst_mode=" ++ modeText (field st 24 4) ++ (lit ", st_size=" ++ decInt (fieldInt st 48 8)) ++
    (lit ", st_nlink=" ++ dec (field st 16 8)) ++ (lit ", st_uid=" ++ dec (field st 28 4)) ++
    (lit ", st_gid=" ++ dec (field st 32 4) ++ lit "\x7d")

theorem formatStatBuf_fills (m : Mem) (addr : Word) :
    Fills 1 (formatStatBuf m addr) (structText m addr 144 statText) :=
  formatStruct_fills (le_refl 1)
    (fun _ => ((((fills_snprintf _).append _).append _).append _).append _) m addr

theorem statText_plain (st : Text) : Plain (statText st) := by
  have hlit : Plain (lit "\x7bst_mode=") ∧ Clean (lit ", st_size=") ∧ Clean (lit ", st_nlink=") ∧
      Clean (lit ", st_uid=") ∧ Clean (lit ", st_gid=") ∧ Clean (lit "\x7d") := by with_unfolding_all decide
  simp only [statText, List.append_assoc]
  exact hlit.1.append (by simp [hlit, modeText_clean])

/-- The text of a `struct statx`. -/
def statxText (stx : Text) : Text :=
  lit "\x7bstx_mode=" ++ modeText (field stx 28 2) ++ (lit ", stx_size=" ++ dec (field stx 40 8)) ++
    (lit ", stx_nlink=" ++ dec (field stx 16 4)) ++ (lit ", stx_uid=" ++ dec (field stx 20 4)) ++
    (lit ", stx_gid=" ++ dec (field stx 24 4) ++ lit "\x7d")

theorem formatStatxBuf_fills (m : Mem) (addr : Word) :
    Fills 1 (formatStatxBuf m addr) (structText m addr 256 statxText) :=
  formatStruct_fills (le_refl 1)
    (fun _ => ((((fills_snprintf _).append _).append _).append _).append _) m addr

theorem statxText_plain (stx : Text) : Plain (statxText stx) := by
  have hlit : Plain (lit "\x7bstx_mode=") ∧ Clean (lit ", stx_size=") ∧
      Clean (lit ", stx_nlink=") ∧ Clean (lit ", stx_uid=") ∧ Clean (lit ", stx_gid=") ∧
      Clean (lit "\x7d") := by with_unfolding_all decide
  simp only [statxText, List.append_assoc]
  exact hlit.1.append (by simp [hlit, modeText_clean])

/-! ## Times and limits -/

theorem timespecText_plain (ts : Text) : Plain (timespecText ts) := by
  have hlit : Plain (lit "\x7btv_sec=") ∧ Clean (lit ", tv_nsec=") ∧ Clean (lit "\x7d") := by
    with_unfolding_all decide
  simp only [timespecText, List.append_assoc]
  exact hlit.1.append (by simp [hlit])

theorem formatTimespec_fills (m : Mem) (addr : Word) :
    Fills 1 (formatTimespec m addr) (structText m addr 16 timespecText) :=
  formatStruct_fills (le_refl 1) (fun _ => fills_snprintf _) m addr

theorem formatTimespec_str (m : Mem) (addr : Word) (init : Nat → Byte) :
    (formatTimespec m addr (new strArgBufLen init)).str =
      structText m addr 16 fun ts => cut strArgBufLen (timespecText ts) :=
  formatStruct_str (by decide) (fun _ => fills_snprintf _) (fun ts => (timespecText_plain ts).ne_nil)
    m addr init

/-- The text of a `struct rlimit`. -/
def rlimitText (lim : Text) : Text :=
  lit "\x7brlim_cur=" ++ cut 32 (rlimValueText (field lim 0 8)) ++ lit ", rlim_max=" ++
    cut 32 (rlimValueText (field lim 8 8)) ++ lit "\x7d"

theorem rlimitText_plain (lim : Text) : Plain (rlimitText lim) := by
  have hlit : Plain (lit "\x7brlim_cur=") ∧ Clean (lit ", rlim_max=") ∧ Clean (lit "\x7d") := by
    with_unfolding_all decide
  have hval : ∀ v, Clean (cut 32 (rlimValueText v)) := fun v =>
    clean_cut (rlimValueText_plain v).clean 32
  simp only [rlimitText, List.append_assoc]
  exact hlit.1.append (by simp [hlit, hval])

theorem formatRlimit_body (host : Host) :
    ∀ lim, Fills 1 (fun out => out.snprintf (lit "\x7brlim_cur=" ++
      (formatRlimValue (field lim 0 8) (new 32 host.junk)).str ++ lit ", rlim_max=" ++
      (formatRlimValue (field lim 8 8) (new 32 host.junk)).str ++ lit "\x7d")) (rlimitText lim) := by
  intro lim
  have hval : ∀ v, (formatRlimValue v (new 32 host.junk)).str = cut 32 (rlimValueText v) := fun v =>
    (prints_snprintf _).str_eq_cut (by decide) (by decide) (rlimValueText_plain v).ne_nil _
  rw [hval, hval]
  exact fills_snprintf _

theorem formatRlimit_fills (host : Host) (m : Mem) (addr : Word) :
    Fills 1 (formatRlimit host m addr) (structText m addr 16 rlimitText) :=
  formatStruct_fills (le_refl 1) (formatRlimit_body host) m addr

theorem formatRlimit_str (host : Host) (m : Mem) (addr : Word) (init : Nat → Byte) :
    (formatRlimit host m addr (new strArgBufLen init)).str =
      structText m addr 16 fun lim => cut strArgBufLen (rlimitText lim) :=
  formatStruct_str (by decide) (formatRlimit_body host) (fun lim => (rlimitText_plain lim).ne_nil)
    m addr init

/-- The text of a `struct rusage`. -/
def rusageText (ru : Text) : Text :=
  lit "\x7bru_utime=\x7btv_sec=" ++ decInt (fieldInt ru 0 8) ++ lit ", tv_usec=" ++
    decInt (fieldInt ru 8 8) ++ lit "\x7d, ru_stime=\x7btv_sec=" ++ decInt (fieldInt ru 16 8) ++
    lit ", tv_usec=" ++ decInt (fieldInt ru 24 8) ++ lit "\x7d, ru_maxrss=" ++
    decInt (fieldInt ru 32 8) ++ lit "\x7d"

theorem rusageText_plain (ru : Text) : Plain (rusageText ru) := by
  have hlit : Plain (lit "\x7bru_utime=\x7btv_sec=") ∧ Clean (lit ", tv_usec=") ∧
      Clean (lit "\x7d, ru_stime=\x7btv_sec=") ∧ Clean (lit "\x7d, ru_maxrss=") ∧
      Clean (lit "\x7d") := by with_unfolding_all decide
  simp only [rusageText, List.append_assoc]
  exact hlit.1.append (by simp [hlit])

theorem formatRusage_fills (m : Mem) (addr : Word) :
    Fills 1 (formatRusage m addr) (structText m addr 144 rusageText) :=
  formatStruct_fills (le_refl 1) (fun ru => fills_snprintf (rusageText ru)) m addr

theorem formatRusage_str (m : Mem) (addr : Word) (init : Nat → Byte) :
    (formatRusage m addr (new strArgBufLen init)).str =
      structText m addr 144 fun ru => cut strArgBufLen (rusageText ru) :=
  formatStruct_str (by decide) (fun ru => fills_snprintf (rusageText ru))
    (fun ru => (rusageText_plain ru).ne_nil) m addr init

/-! ## Signal dispositions -/

/-- The signals of a set among those still to look at. -/
def sigsetItems (host : Host) (mask : Nat) : List Nat → Bool → Text
  | [], _ => []
  | sig :: sigs, first =>
      if mask.testBit (sig - 1) then
        (if first then [] else lit " ") ++ sigText host sig ++ sigsetItems host mask sigs false
      else sigsetItems host mask sigs first

/-- The text of a signal set. -/
def sigsetText (host : Host) (mask : Nat) : Text :=
  lit "[" ++ sigsetItems host mask (List.range' 1 64) true ++ lit "]"

theorem sigsetLoop_size (host : Host) (mask : Nat) (sigs : List Nat) (first : Bool) (b : OutBuf) :
    (sigsetLoop host mask sigs first b).size = b.size := by
  induction sigs generalizing first b with
  | nil => rfl
  | cons sig sigs ih =>
      rw [sigsetLoop]
      split
      · split
        · rw [ih, snprintf_size]
        · exact ih first b
      · rfl

theorem sigsetLoop_renders (host : Host) (mask : Nat) (sigs : List Nat) (first : Bool)
    {init : Nat → Byte} {b : OutBuf} {t : Text} (h : b.Renders init t) :
    (sigsetLoop host mask sigs first b).Renders init (t ++ sigsetItems host mask sigs first) := by
  induction sigs generalizing first b t with
  | nil =>
      rw [sigsetItems, List.append_nil]
      exact h
  | cons sig sigs ih =>
      by_cases hroom : b.oi < b.size
      · rw [sigsetLoop, if_pos hroom, sigsetItems]
        split
        · rw [← List.append_assoc]
          exact ih false (h.snprintf hroom.le _)
        · exact ih first h
      · rw [sigsetLoop, if_neg hroom]
        exact h.extend hroom _

theorem formatSigsetValue_prints (host : Host) (mask : Nat) :
    Prints (formatSigsetValue host mask) (sigsetText host mask) where
  renders := fun _ init hn =>
    (sigsetLoop_renders host mask _ true ((renders_new hn init).snprintf (Nat.zero_le _) _)).append _
  size := fun _ _ => by
    rw [formatSigsetValue, append_size, sigsetLoop_size, snprintf_size, new_size]

theorem sigsetItems_zero (host : Host) (sigs : List Nat) (first : Bool) :
    sigsetItems host 0 sigs first = [] := by
  induction sigs with
  | nil => rfl
  | cons sig sigs ih => rw [sigsetItems, if_neg (by simp), ih]

/-- A set with a signal in it starts with the name or the number of one. -/
theorem sigsetItems_head (host : Host) {mask : Nat} {sigs : List Nat}
    (h : ∃ sig ∈ sigs, mask.testBit (sig - 1) = true) :
    ∃ sig rest, sigsetItems host mask sigs true = sigText host sig ++ rest := by
  induction sigs with
  | nil => simp at h
  | cons sig sigs ih =>
      rw [sigsetItems]
      by_cases hbit : mask.testBit (sig - 1) = true
      · rw [if_pos hbit]
        exact ⟨sig, sigsetItems host mask sigs false, rfl⟩
      · rw [if_neg hbit]
        refine ih ?_
        obtain ⟨sig', hmem, hb⟩ := h
        rcases List.mem_cons.mp hmem with rfl | hmem
        · exact absurd hb hbit
        · exact ⟨sig', hmem, hb⟩

/-- The first character of a signal is a letter or a digit. -/
theorem sigText_head (host : Host) (sig : Nat) :
    ∃ c rest, sigText host sig = c :: rest ∧ c ≠ 0 ∧ c ≠ 0x5d := by
  unfold sigText
  split
  · rename_i name _
    rw [lit_sig]
    exact ⟨0x53, 0x49 :: 0x47 :: name, rfl, by decide, by decide⟩
  · obtain ⟨c, rest, hc⟩ := List.exists_cons_of_ne_nil (numeral_ne_nil 10 sig)
    have hle := mem_dec (n := sig) (b := c) (by rw [dec, hc]; exact List.mem_cons_self)
    refine ⟨c, rest, hc, ?_, ?_⟩ <;> rintro rfl
    · exact absurd hle.1 (by decide)
    · exact absurd hle.2 (by decide)

/-- The text of a `struct kernel_sigaction`. -/
def sigactionText (host : Host) (sa : Text) : Text :=
  lit "\x7bsa_handler=" ++ handlerText (field sa 0 8) ++
    (lit ", sa_flags=" ++
      cut 256 (flagsText "0" sigactionFlagTable (BitVec.ofNat 64 (field sa 8 8)))) ++
    (lit ", sa_mask=" ++ cut 512 (sigsetText host (field sa 24 8)) ++ lit "\x7d")

theorem sigactionText_ne_nil (host : Host) (sa : Text) : sigactionText host sa ≠ [] := by
  have hlit : lit "\x7bsa_handler=" ≠ [] := by with_unfolding_all decide
  simp [sigactionText, hlit]

theorem sigsetItems_clean {host : Host} (hn : host.CleanNames) (mask : Nat) (sigs : List Nat)
    (first : Bool) : Clean (sigsetItems host mask sigs first) := by
  have hlit : Clean (lit " ") ∧ Clean (lit "SIG") := by with_unfolding_all decide
  have hsig : ∀ sig, Clean (sigText host sig) := by
    intro sig
    unfold sigText
    split
    · rename_i name hname
      exact clean_append.mpr ⟨hlit.2, hn.sigabbrev _ _ hname⟩
    · exact clean_dec _
  induction sigs generalizing first with
  | nil => exact clean_nil
  | cons sig sigs ih =>
      rw [sigsetItems]
      split
      · cases first <;> simp [hlit, hsig, ih]
      · exact ih first

theorem sigactionFlags_plain (v : Word) : Plain (flagsText "0" sigactionFlagTable v) :=
  flagsText_plain (by with_unfolding_all decide) (by with_unfolding_all decide) v

theorem sigactionText_plain {host : Host} (hn : host.CleanNames) (sa : Text) :
    Plain (sigactionText host sa) := by
  have hlit : Plain (lit "\x7bsa_handler=") ∧ Clean (lit ", sa_flags=") ∧ Clean (lit ", sa_mask=") ∧
      Clean (lit "\x7d") ∧ Clean (lit "[") ∧ Clean (lit "]") := by with_unfolding_all decide
  have hhandler : Clean (handlerText (field sa 0 8)) := by
    have hnames : Clean (lit "SIG_DFL") ∧ Clean (lit "SIG_IGN") := by with_unfolding_all decide
    unfold handlerText
    split_ifs <;> simp [hnames]
  have hflags : ∀ v, Clean (cut 256 (flagsText "0" sigactionFlagTable v)) := fun v =>
    clean_cut (sigactionFlags_plain v).clean 256
  have hmask : ∀ v, Clean (cut 512 (sigsetText host v)) := fun v =>
    clean_cut (by simp [sigsetText, hlit, sigsetItems_clean hn]) 512
  simp only [sigactionText, List.append_assoc]
  exact hlit.1.append (by simp [hlit, hhandler, hflags, hmask])

/-- One of the appends is not guarded: an array of twelve cells or less would be
overrun. -/
theorem formatSigaction_body (host : Host) (sa : Text) : Fills 13
    (fun out => (((out.snprintf (lit "\x7bsa_handler=")).snprintf (handlerText (field sa 0 8))).append
      (lit ", sa_flags=" ++ (formatSigactionFlagsValue (BitVec.ofNat 64 (field sa 8 8))
        (new 256 host.junk)).str)).append
      (lit ", sa_mask=" ++ (formatSigsetValue host (field sa 24 8) (new 512 host.junk)).str ++
        lit "\x7d")) (sigactionText host sa) := by
  have hopen : (lit "\x7bsa_handler=").length = 12 := by with_unfolding_all decide
  have hflags : ∀ v, (formatSigactionFlagsValue v (new 256 host.junk)).str =
      cut 256 (flagsText "0" sigactionFlagTable v) := fun v =>
    (formatFlags_prints "0" sigactionFlagTable v).str_eq_cut (by decide) (by decide)
      (sigactionFlags_plain v).ne_nil _
  have hmask : ∀ v, (formatSigsetValue host v (new 512 host.junk)).str =
      cut 512 (sigsetText host v) := fun v => by
    refine (formatSigsetValue_prints host v).str_eq_cut (by decide) (by decide) ?_ _
    have hlit : lit "[" ≠ [] := by with_unfolding_all decide
    simp [sigsetText, hlit]
  have hhead : Fills 13 (fun out => (out.snprintf (lit "\x7bsa_handler=")).snprintf
      (handlerText (field sa 0 8))) (lit "\x7bsa_handler=" ++ handlerText (field sa 0 8)) := by
    refine ⟨fun n init hk hn => ?_, fun n init => ?_⟩
    · have h₁ := guarded_snprintf (by omega : 0 < n) hn init (lit "\x7bsa_handler=")
      refine h₁.snprintf ?_ _
      rw [snprintf_oi, snprintf_size, hopen, new_oi, new_size]
      omega
    · exact (snprintf_size _ _).trans (snprintf_size _ _)
  rw [hflags, hmask]
  exact (hhead.append _).append _

theorem formatSigaction_fills (host : Host) (m : Mem) (addr : Word) :
    Fills 13 (formatSigaction host m addr) (structText m addr 32 (sigactionText host)) :=
  formatStruct_fills (by decide) (formatSigaction_body host) m addr

theorem formatSigaction_str (host : Host) (m : Mem) (addr : Word) (init : Nat → Byte) :
    (formatSigaction host m addr (new strArgBufLen init)).str =
      structText m addr 32 fun sa => cut strArgBufLen (sigactionText host sa) :=
  formatStruct_str (by decide) (formatSigaction_body host) (sigactionText_ne_nil host) m addr init

/-! ## Socket addresses -/

theorem sockaddrText_ne_nil (host : Host) (m : Mem) (addr : Word) (addrlen : Nat) :
    sockaddrText host m addr addrlen ≠ [] := by
  have hlit : lit "\x7bsa_family=AF_INET, sin_port=htons(" ≠ [] ∧
      lit "\x7bsa_family=AF_INET6, sin6_port=htons(" ≠ [] ∧ lit "\x7bsa_family=AF_INET6, ...\x7d" ≠ [] ∧
      lit "\x7bsa_family=AF_UNIX, sun_path=\"@" ≠ [] ∧ lit "\x7bsa_family=AF_UNIX, sun_path=\"" ≠ [] ∧
      lit "\x7bsa_family=" ≠ [] := by with_unfolding_all decide
  unfold sockaddrText
  split
  · exact plain_null.ne_nil
  · dsimp only
    split
    · exact (plain_hex0x _).ne_nil
    · unfold sockaddrBytesText
      dsimp only
      split_ifs
      · simp [hlit]
      · split <;> simp [hlit]
      all_goals simp [hlit]

theorem formatSockaddr_str (host : Host) (m : Mem) (addr : Word) (addrlen : Nat)
    (init : Nat → Byte) :
    (formatSockaddr host m addr addrlen (new strArgBufLen init)).str =
      cut strArgBufLen (sockaddrText host m addr addrlen) :=
  (prints_snprintf _).str_eq_cut strArgBufLen_lt (by decide) (sockaddrText_ne_nil _ _ _ _) init

theorem formatSockaddr_fills (host : Host) (m : Mem) (addr : Word) (addrlen : Nat) :
    Fills 1 (formatSockaddr host m addr addrlen) (sockaddrText host m addr addrlen) :=
  fills_snprintf _

/-! ## Wait statuses -/

theorem waitStatusText_plain {host : Host} (hn : host.CleanNames) (wstatus : Nat) :
    Plain (waitStatusText host wstatus) := by
  have hlit : Plain (lit "[\x7bWIFEXITED(s) && WEXITSTATUS(s) == ") ∧
      Plain (lit "[\x7bWIFSIGNALED(s) && WTERMSIG(s) == SIG") ∧
      Plain (lit "[\x7bWIFSTOPPED(s) && WSTOPSIG(s) == SIG") ∧ Plain (lit "[0x") ∧
      Clean (lit "\x7d]") ∧ Clean (lit "]") := by with_unfolding_all decide
  obtain ⟨h₁, h₂, h₃, h₄, h₅, h₆⟩ := hlit
  have hsig : ∀ n, Clean (orNull (host.sigabbrev n)) := fun n => clean_orNull (hn.sigabbrev n)
  unfold waitStatusText
  split_ifs
  · exact (h₁.append (clean_dec _)).append h₅
  · exact (h₂.append (hsig _)).append h₅
  · exact (h₃.append (hsig _)).append h₅
  · exact (h₄.append (clean_hex _)).append h₆

/-! ## `clone3` and `epoll_ctl` -/

/-- The text of `format_clone3_flags`. -/
def clone3Text (host : Host) (m : Mem) (addr : Word) : Text :=
  if addr = 0 then lit "NULL"
  else
    let raw := readChildRaw m addr 40
    if raw.length < 8 then hex0x addr.toNat
    else
      let exitSignal := if raw.length ≥ 40 then field raw 32 8 else 0
      cloneFlagsText host (BitVec.ofNat 64 (field raw 0 8)) (BitVec.ofNat 64 exitSignal)

theorem walkFlags_tight (skipZero : Bool) (es : List FlagEntry) {b : OutBuf} (h : b.Tight)
    (remaining : Word) : (walkFlags skipZero es b remaining).1.Tight := by
  induction es generalizing b remaining with
  | nil => exact h
  | cons e es ih =>
      rw [walkFlags]
      split
      · split
        · exact ih (h.snprintf ‹_› _) _
        · exact ih h remaining
      · exact h

theorem formatCloneFlagsValue_fills (host : Host) (flags exitSignal : Word) :
    Fills 1 (formatCloneFlagsValue host flags exitSignal) (cloneFlagsText host flags exitSignal) := by
  have hp := formatCloneFlagsValue_prints host flags exitSignal
  refine ⟨fun n init hpos hn => ⟨(hp.renders n init hn).toShows, ?_⟩, hp.size⟩
  unfold formatCloneFlagsValue
  generalize cloneFlagTable = table
  have hwalk := walkFlags_tight false table (tight_new n init) flags
  have hsize := walkFlags_size false table (new n init) flags
  dsimp only
  generalize walkFlags false table (new n init) flags = r at hwalk hsize ⊢
  -- the array with the exit signal in it
  obtain ⟨b, hb, hbsize, hbeq⟩ : ∃ b : OutBuf, b.Tight ∧ b.size = n ∧
      (if exitSignal ≠ 0 then r.1.append (bar r.1 ++ exitSignalText host exitSignal) else r.1) = b := by
    refine ⟨_, ?_, ?_, rfl⟩
    · split
      · exact hwalk.append _
      · exact hwalk
    · split
      · rw [append_size, hsize, new_size]
      · rw [hsize, new_size]
  rw [hbeq]
  by_cases h0 : b.oi = 0
  · rw [if_pos h0]
    exact hb.snprintf (by omega) _
  · rw [if_neg h0]
    split
    · exact hb.append _
    · exact hb

theorem formatClone3Flags_fills (host : Host) (m : Mem) (addr : Word) :
    Fills 1 (formatClone3Flags host m addr) (clone3Text host m addr) := by
  unfold formatClone3Flags clone3Text
  split
  · exact fills_snprintf _
  · dsimp only
    split
    · exact fills_snprintf _
    · exact formatCloneFlagsValue_fills host _ _

theorem clone3Text_ne_nil (host : Host) (m : Mem) (addr : Word) : clone3Text host m addr ≠ [] := by
  unfold clone3Text
  split
  · exact plain_null.ne_nil
  · dsimp only
    split
    · exact (plain_hex0x _).ne_nil
    · exact cloneFlagsText_ne_nil host _ _

theorem clone3Text_plain {host : Host} (hn : host.CleanNames) (m : Mem) (addr : Word) :
    Plain (clone3Text host m addr) := by
  unfold clone3Text
  split
  · exact plain_null
  · dsimp only
    split
    · exact plain_hex0x _
    · exact cloneFlagsText_plain hn _ _

/-- The text of one event. -/
def epollEventText (ev : Text) : Text :=
  lit "\x7bevents=" ++ cut 256 (flagsText "0" epollEventsFlagTable
    ((BitVec.ofNat 32 (field ev 0 4)).setWidth 64)) ++ lit ", data=\x7bu32=" ++
    dec (field ev 4 4) ++ lit ", u64=" ++ dec (field ev 4 8) ++ lit "\x7d\x7d"

theorem epollEvents_plain (v : Word) : Plain (flagsText "0" epollEventsFlagTable v) :=
  flagsText_plain (by with_unfolding_all decide) (by with_unfolding_all decide) v

theorem formatOneEpollEvent_eq (host : Host) (ev : Text) :
    formatOneEpollEvent host ev = (·.snprintf (epollEventText ev)) := by
  have hevents : ∀ v, (formatEpollEventsValue v (new 256 host.junk)).str =
      cut 256 (flagsText "0" epollEventsFlagTable (v.setWidth 64)) := fun v =>
    (formatFlags_prints "0" epollEventsFlagTable _).str_eq_cut (by decide) (by decide)
      (epollEvents_plain _).ne_nil _
  funext out
  rw [formatOneEpollEvent, epollEventText, hevents]

theorem formatOneEpollEvent_fills (host : Host) (ev : Text) :
    Fills 1 (formatOneEpollEvent host ev) (epollEventText ev) := by
  rw [formatOneEpollEvent_eq]
  exact fills_snprintf _

theorem epollEventText_plain (ev : Text) : Plain (epollEventText ev) := by
  have hlit : Plain (lit "\x7bevents=") ∧ Clean (lit ", data=\x7bu32=") ∧ Clean (lit ", u64=") ∧
      Clean (lit "\x7d\x7d") := by with_unfolding_all decide
  have hevents : ∀ v, Clean (cut 256 (flagsText "0" epollEventsFlagTable v)) := fun v =>
    clean_cut (epollEvents_plain v).clean 256
  simp only [epollEventText, List.append_assoc]
  exact hlit.1.append (by simp [hlit, hevents])

theorem formatEpollEvent_fills (host : Host) (m : Mem) (addr : Word) :
    Fills 1 (formatEpollEvent host m addr) (structText m addr 12 epollEventText) :=
  formatStruct_fills (le_refl 1) (formatOneEpollEvent_fills host) m addr

end MiniStrace
