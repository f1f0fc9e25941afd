/-
  Decoders/ListText.lean --- the texts of the decoders that print a list of elements
  read from the tracee.

  THE SHAPE.  As for the structs, each decoder has a text, which is what it would print
  with unlimited room, and `Fills` says that the array keeps the beginning of it.  The
  loops stop when the array is full; the text goes on, and an array that is full shows
  the longer text just as well.

  THE WALK OVER DIRECTORY ENTRIES.  Which entries are printed does not depend on the
  array.  `getdentsWalk` lists them, each by the bytes from its start on, with the
  position where the walk ended and whether it ended early.
-/
import MiniStrace.Decoders.StructText

set_option autoImplicit false

namespace MiniStrace

open CLib OutBuf

/-! ## Arrays -/

section Array

variable {σ : Type} (item : Nat → σ → Option (Text × σ))

/-- The elements that are printed, with `k` elements left from index `i` on. -/
def arrayItems : Nat → Nat → σ → Text
  | 0, _, _ => []
  | k + 1, i, s =>
      match item i s with
      | none => []
      | some (t, s) => (if i = 0 then [] else lit ", ") ++ t ++ arrayItems k (i + 1) s

/-- The text of `formatArray`. -/
def arrayText (count : Nat) (s : σ) : Text :=
  lit "[" ++ arrayItems item (if count > arrayMax then arrayMax else count) 0 s ++
    (if count > arrayMax then lit ", ..." else []) ++ lit "]"

theorem arrayLoop_guarded (k i : Nat) (s : σ) {init : Nat → Byte} {b : OutBuf} {t : Text}
    (h : b.Guarded init t) :
    (arrayLoop item k i s b).Guarded init (t ++ arrayItems item k i s) := by
  induction k generalizing i s b t with
  | zero =>
      rw [arrayItems, List.append_nil]
      exact h
  | succ k ih =>
      rw [arrayLoop]
      by_cases hroom : b.oi < b.size
      · rw [if_pos hroom, arrayItems]
        cases item i s with
        | none =>
            rw [List.append_nil]
            exact h
        | some elem =>
            rw [← List.append_assoc]
            exact ih _ _ (h.snprintf hroom _)
      · rw [if_neg hroom]
        exact h.extend hroom _

theorem arrayLoop_size (k i : Nat) (s : σ) (b : OutBuf) :
    (arrayLoop item k i s b).size = b.size := by
  induction k generalizing i s b with
  | zero => rfl
  | succ k ih =>
      rw [arrayLoop]
      split
      · split
        · rfl
        · rw [ih, snprintf_size]
      · rfl

theorem formatArray_fills (count : Nat) (s : σ) :
    Fills 1 (formatArray item count s) (arrayText item count s) := by
  have hloop := (fills_snprintf (lit "[")).bind
    (fun init b hb => arrayLoop_guarded item (if count > arrayMax then arrayMax else count) 0 s hb)
    (arrayLoop_size item _ 0 s)
  exact (hloop.append_if (count > arrayMax) (lit ", ...")).append (lit "]")

variable {item}

theorem arrayItems_clean (h : ∀ i s t s', item i s = some (t, s') → Clean t) (k i : Nat) (s : σ) :
    Clean (arrayItems item k i s) := by
  have hsep : Clean (lit ", ") := by with_unfolding_all decide
  induction k generalizing i s with
  | zero => exact clean_nil
  | succ k ih =>
      rw [arrayItems]
      split
      · exact clean_nil
      · rename_i t s' hitem
        have hfirst : Clean (if i = 0 then [] else lit ", ") := by
          split
          · exact clean_nil
          · exact hsep
        exact clean_append.mpr ⟨clean_append.mpr ⟨hfirst, h i s t s' hitem⟩, ih _ _⟩

theorem arrayText_plain (h : ∀ i s t s', item i s = some (t, s') → Clean t) (count : Nat) (s : σ) :
    Plain (arrayText item count s) := by
  have hlit : Plain (lit "[") ∧ Clean (lit ", ...") ∧ Clean (lit "]") := by
    with_unfolding_all decide
  have hmore : Clean (if count > arrayMax then lit ", ..." else []) := by
    split
    · exact hlit.2.1
    · exact clean_nil
  exact ((hlit.1.append (arrayItems_clean h _ 0 s)).append hmore).append hlit.2.2

end Array

/-! ## Vectors of buffers -/

/-- The text of `format_iovec_buf`. -/
def iovecText (host : Host) (m : Mem) (addr : Word) (iovcnt : Nat) (totalBytes : Int) : Text :=
  if addr = 0 then lit "NULL" else arrayText (iovecItem host m addr totalBytes) iovcnt totalBytes

theorem formatIovecBuf_fills (host : Host) (m : Mem) (addr : Word) (iovcnt : Nat)
    (totalBytes : Int) : Fills 1 (formatIovecBuf host m addr iovcnt totalBytes)
      (iovecText host m addr iovcnt totalBytes) := by
  unfold formatIovecBuf iovecText
  split
  · exact fills_snprintf _
  · exact formatArray_fills _ _ _

theorem iovecItem_clean (host : Host) (m : Mem) (addr : Word) (totalBytes : Int) (i : Nat)
    (remaining : Int) (t : Text) (remaining' : Int)
    (h : iovecItem host m addr totalBytes i remaining = some (t, remaining')) : Clean t := by
  have hlit : Clean (lit "\x7biov_base=") ∧ Clean (lit ", iov_len=") ∧ Clean (lit "\x7d") := by
    with_unfolding_all decide
  obtain ⟨iov, -, hiov⟩ := Option.map_eq_some_iff.mp h
  rw [← (Prod.mk.inj hiov).1, readChildBuffer_str]
  simp [hlit, bufferText_clean]

theorem iovecText_plain (host : Host) (m : Mem) (addr : Word) (iovcnt : Nat) (totalBytes : Int) :
    Plain (iovecText host m addr iovcnt totalBytes) := by
  unfold iovecText
  split
  · exact plain_null
  · exact arrayText_plain (iovecItem_clean host m addr totalBytes) _ _

/-! ## Events -/

/-- The text of `format_epoll_events_buf`. -/
def epollEventsText (host : Host) (m : Mem) (addr : Word) (ret : Int) : Text :=
  if ret ≤ 0 then hex0x addr.toNat else arrayText (epollItem host m addr) ret.toNat ()

theorem formatEpollEventsBuf_fills (host : Host) (m : Mem) (addr : Word) (ret : Int) :
    Fills 1 (formatEpollEventsBuf host m addr ret) (epollEventsText host m addr ret) := by
  unfold formatEpollEventsBuf epollEventsText
  split
  · exact fills_snprintf _
  · exact formatArray_fills _ _ _

theorem epollItem_clean (host : Host) (m : Mem) (addr : Word) (i : Nat) (s : Unit) (t : Text)
    (s' : Unit) (h : epollItem host m addr i s = some (t, s')) : Clean t := by
  obtain ⟨ev, -, hev⟩ := Option.map_eq_some_iff.mp h
  have hplain := epollEventText_plain ev
  rw [← (Prod.mk.inj hev).1, (formatOneEpollEvent_fills host ev).str_eq_cut (by decide) (by decide)
    (by decide) hplain.ne_nil]
  exact clean_cut hplain.clean 256

theorem epollEventsText_plain (host : Host) (m : Mem) (addr : Word) (ret : Int) :
    Plain (epollEventsText host m addr ret) := by
  unfold epollEventsText
  split
  · exact plain_hex0x _
  · exact arrayText_plain (epollItem_clean host m addr) _ _

/-- The text of `format_pollfds_buf`. -/
def pollfdsText (host : Host) (m : Mem) (addr : Word) (nfds : Nat) : Text :=
  if addr = 0 then lit "NULL" else arrayText (pollfdItem host m addr) nfds ()

theorem formatPollfdsBuf_fills (host : Host) (m : Mem) (addr : Word) (nfds : Nat) :
    Fills 1 (formatPollfdsBuf host m addr nfds) (pollfdsText host m addr nfds) := by
  unfold formatPollfdsBuf pollfdsText
  split
  · exact fills_snprintf _
  · exact formatArray_fills _ _ _

theorem pollfdItem_clean (host : Host) (m : Mem) (addr : Word) (i : Nat) (s : Unit) (t : Text)
    (s' : Unit) (h : pollfdItem host m addr i s = some (t, s')) : Clean t := by
  have hlit : Clean (lit "\x7bfd=") ∧ Clean (lit ", events=") ∧ Clean (lit ", revents=") ∧
      Clean (lit "\x7d") := by with_unfolding_all decide
  have hevents : ∀ v, Clean (formatPollEventsValue v (new 128 host.junk)).str := fun v =>
    (formatFlags_plain (by with_unfolding_all decide) (by with_unfolding_all decide) _).clean_str
      (by decide) (by decide) _
  obtain ⟨pfd, -, hpfd⟩ := Option.map_eq_some_iff.mp h
  rw [← (Prod.mk.inj hpfd).1]
  simp [hlit, hevents]

theorem pollfdsText_plain (host : Host) (m : Mem) (addr : Word) (nfds : Nat) :
    Plain (pollfdsText host m addr nfds) := by
  unfold pollfdsText
  split
  · exact plain_null
  · exact arrayText_plain (pollfdItem_clean host m addr) _ _

/-! ## Descriptor sets -/

/-- The descriptors of a set among those still to look at, with `count` printed. -/
def fdsetItems (bits : Text) : List Nat → Nat → Text
  | [], _ => []
  | fd :: fds, count =>
      if (bits.getD (fd / 8) 0).toNat.testBit (fd % 8) then
        if count ≥ 8 then lit ", ..."
        else (if count = 0 then [] else lit ", ") ++ dec fd ++ fdsetItems bits fds (count + 1)
      else fdsetItems bits fds count

/-- The text of `format_fdset_buf`. -/
def fdsetText (m : Mem) (addr : Word) (nfds : Nat) : Text :=
  if addr = 0 then lit "NULL"
  else
    let nbits := if nfds > 1024 then 1024 else nfds
    let nbytes := (nbits + 7) / 8
    let bits := readChildRaw m addr nbytes
    if bits.length < nbytes then hex0x addr.toNat
    else lit "[" ++ fdsetItems bits (List.range nbits) 0 ++ lit "]"

theorem fdsetLoop_guarded (bits : Text) (fds : List Nat) (count : Nat) {init : Nat → Byte}
    {b : OutBuf} {t : Text} (h : b.Guarded init t) :
    (fdsetLoop bits fds count b).Guarded init (t ++ fdsetItems bits fds count) := by
  induction fds generalizing count b t with
  | nil =>
      rw [fdsetItems, List.append_nil]
      exact h
  | cons fd fds ih =>
      rw [fdsetLoop, fdsetItems]
      split
      · split
        · exact h.append _
        · rw [← List.append_assoc]
          exact ih _ (h.append _)
      · exact ih _ h

theorem fdsetLoop_size (bits : Text) (fds : List Nat) (count : Nat) (b : OutBuf) :
    (fdsetLoop bits fds count b).size = b.size := by
  induction fds generalizing count b with
  | nil => rfl
  | cons fd fds ih =>
      rw [fdsetLoop]
      split
      · split
        · exact append_size b _
        · rw [ih, append_size]
      · exact ih _ _

theorem formatFdsetBuf_fills (m : Mem) (addr : Word) (nfds : Nat) :
    Fills 1 (formatFdsetBuf m addr nfds) (fdsetText m addr nfds) := by
  unfold formatFdsetBuf fdsetText
  split
  · exact fills_snprintf _
  · dsimp only
    generalize (if nfds > 1024 then 1024 else nfds) = nbits
    split
    · exact fills_snprintf _
    · exact ((fills_snprintf (lit "[")).bind (fun _ _ hb => fdsetLoop_guarded _ _ 0 hb)
        (fdsetLoop_size _ _ 0)).append (lit "]")

theorem fdsetItems_clean (bits : Text) (fds : List Nat) (count : Nat) :
    Clean (fdsetItems bits fds count) := by
  have hlit : Clean (lit ", ") ∧ Clean (lit ", ...") := by with_unfolding_all decide
  induction fds generalizing count with
  | nil => exact clean_nil
  | cons fd fds ih =>
      rw [fdsetItems]
      split
      · split
        · exact hlit.2
        · have hfirst : Clean (if count = 0 then [] else lit ", ") := by
            split
            · exact clean_nil
            · exact hlit.1
          exact clean_append.mpr ⟨clean_append.mpr ⟨hfirst, clean_dec fd⟩, ih _⟩
      · exact ih _

theorem fdsetText_plain (m : Mem) (addr : Word) (nfds : Nat) : Plain (fdsetText m addr nfds) := by
  have hlit : Plain (lit "[") ∧ Clean (lit "]") := by with_unfolding_all decide
  unfold fdsetText
  split
  · exact plain_null
  · dsimp only
    generalize (if nfds > 1024 then 1024 else nfds) = nbits
    split
    · exact plain_hex0x _
    · exact (hlit.1.append (fdsetItems_clean _ _ 0)).append hlit.2

/-! ## Directory entries -/

/-- The entries of a walk, each as the bytes from its start on; where the walk ended, and
whether an entry that was not printed ended it. -/
structure GetdentsWalk where
  entries : List Text
  pos : Nat
  more : Bool

/-- The walk of `format_getdents_buf` from `pos` on, after `count` entries. -/
def getdentsWalk (buf : Text) (pos count : Nat) : GetdentsWalk :=
  if pos + getdentsHeaderSize ≤ buf.length then
    let entry := buf.drop pos
    let reclen := dReclen entry
    if reclen < getdentsHeaderSize ∨ pos + reclen > buf.length then ⟨[], pos, true⟩
    else if count ≥ getdentsMaxEntries then ⟨[], pos, true⟩
    else
      let w := getdentsWalk buf (pos + reclen) (count + 1)
      ⟨entry :: w.entries, w.pos, w.more⟩
  else ⟨[], pos, false⟩
termination_by buf.length - pos
decreasing_by
  have hlen : getdentsHeaderSize = 19 := rfl
  have hrec : dReclen (buf.drop pos) = reclen := rfl
  omega

/-- The texts of the entries of a walk, after `count` entries. -/
def direntsText : Nat → List Text → Text
  | _, [] => []
  | count, entry :: entries =>
      (if count = 0 then [] else lit ", ") ++ direntText entry ++ direntsText (count + 1) entries

/-- What follows the entries of a walk over `got` bytes. -/
def getdentsTail (w : GetdentsWalk) (got : Nat) : Text :=
  (if w.more || decide (w.pos < got) then
    (if w.entries.length = 0 then [] else lit ", ") ++ lit "..." else []) ++ lit "]"

/-- The text of `format_getdents_buf`. -/
def getdentsText (m : Mem) (addr : Word) (ret : Int) : Text :=
  if ret ≤ 0 then hex0x addr.toNat
  else
    let want := if ret.toNat < getdentsMaxBytes then ret.toNat else getdentsMaxBytes
    let buf := readChildRaw m addr want
    if buf.length < getdentsHeaderSize then hex0x addr.toNat
    else
      let w := getdentsWalk buf 0 0
      lit "[" ++ direntsText 0 w.entries ++ getdentsTail w buf.length

/-- The loop of the source does the walk and prints its entries. -/
theorem getdentsLoop_walk (buf : Text) (pos count : Nat) (b : OutBuf) :
    (getdentsLoop buf pos count b).pos = (getdentsWalk buf pos count).pos ∧
      (getdentsLoop buf pos count b).more = (getdentsWalk buf pos count).more ∧
      (getdentsLoop buf pos count b).count = count + (getdentsWalk buf pos count).entries.length ∧
      (getdentsLoop buf pos count b).out.size = b.size ∧
      ∀ {init : Nat → Byte} {t : Text}, b.Guarded init t →
        (getdentsLoop buf pos count b).out.Guarded init
          (t ++ direntsText count (getdentsWalk buf pos count).entries) := by
  fun_induction getdentsLoop buf pos count b with
  | case1 pos count out hle entry reclen hbad =>
      rw [getdentsWalk, if_pos hle, if_pos hbad]
      simp [direntsText]
  | case2 pos count out hle entry reclen hok hmax =>
      rw [getdentsWalk, if_pos hle, if_neg hok, if_pos hmax]
      simp [direntsText]
  | case3 pos count out hle entry reclen hok hmax ih =>
      simp only [dite_eq_ite] at ih
      obtain ⟨hpos, hmore, hcount, hsize, hguarded⟩ := ih
      rw [getdentsWalk, if_pos hle, if_neg hok, if_neg hmax]
      refine ⟨hpos, hmore, ?_, ?_, ?_⟩
      · rw [hcount, List.length_cons]
        exact (Nat.add_assoc count 1 _).trans (congrArg _ (Nat.add_comm 1 _))
      · rw [hsize, append_size]
      · intro init t h
        rw [direntsText, ← List.append_assoc]
        exact hguarded (h.append _)
  | case4 pos count out hle =>
      rw [getdentsWalk, if_neg hle]
      simp [direntsText]

theorem formatGetdentsBuf_fills (m : Mem) (addr : Word) (ret : Int) :
    Fills 1 (formatGetdentsBuf m addr ret) (getdentsText m addr ret) := by
  unfold formatGetdentsBuf getdentsText
  split
  · exact fills_snprintf _
  · dsimp only
    generalize readChildRaw m addr _ = buf
    split
    · exact fills_snprintf _
    · have hloop : Fills 1 (fun out => (getdentsLoop buf 0 0 (out.snprintf (lit "["))).out)
          (lit "[" ++ direntsText 0 (getdentsWalk buf 0 0).entries) :=
        (fills_snprintf (lit "[")).bind
          (fun init b hb => (getdentsLoop_walk buf 0 0 b).2.2.2.2 hb)
          fun b => (getdentsLoop_walk buf 0 0 b).2.2.2.1
      have hend := (hloop.append_if
        (((getdentsWalk buf 0 0).more || decide ((getdentsWalk buf 0 0).pos < buf.length)) = true)
        ((if (getdentsWalk buf 0 0).entries.length = 0 then [] else lit ", ") ++ lit "...")).append
        (lit "]")
      rw [getdentsTail, ← List.append_assoc]
      -- the loop's own position, count and flag are those of the walk
      have heq : ∀ b, (getdentsLoop buf 0 0 b).pos = (getdentsWalk buf 0 0).pos ∧
          (getdentsLoop buf 0 0 b).more = (getdentsWalk buf 0 0).more ∧
          (getdentsLoop buf 0 0 b).count = (getdentsWalk buf 0 0).entries.length := fun b => by
        obtain ⟨hpos, hmore, hcount, -⟩ := getdentsLoop_walk buf 0 0 b
        exact ⟨hpos, hmore, by rw [hcount, Nat.zero_add]⟩
      simp only [heq]
      exact hend

theorem getdentsText_ne_nil (m : Mem) (addr : Word) (ret : Int) : getdentsText m addr ret ≠ [] := by
  have hlit : lit "[" ≠ [] := by with_unfolding_all decide
  unfold getdentsText
  split
  · exact (plain_hex0x _).ne_nil
  · dsimp only
    generalize readChildRaw m addr _ = buf
    split
    · exact (plain_hex0x _).ne_nil
    · simp [hlit]

/-! ## The memory-reading decoders -/

/-- The decoders that print what they read from the tracee's memory, message headers
apart, with the arguments besides the memory they are called with. -/
inductive MemDecoder where
  | sockaddr (addr : Word) (addrlen : Nat)
  | clone3Flags (addr : Word)
  | iovecBuf (addr : Word) (iovcnt : Nat) (totalBytes : Int)
  | statBuf (addr : Word)
  | statxBuf (addr : Word)
  | getdentsBuf (addr : Word) (ret : Int)
  | sigaction (addr : Word)
  | epollEvent (addr : Word)
  | epollEventsBuf (addr : Word) (ret : Int)
  | pollfdsBuf (addr : Word) (nfds : Nat)
  | fdsetBuf (addr : Word) (nfds : Nat)
  | rlimit (addr : Word)
  | rusage (addr : Word)
  | timespec (addr : Word)

namespace MemDecoder

/-- The function a member stands for. -/
def run (host : Host) (m : Mem) : MemDecoder → OutBuf → OutBuf
  | sockaddr addr addrlen => formatSockaddr host m addr addrlen
  | clone3Flags addr => formatClone3Flags host m addr
  | iovecBuf addr iovcnt totalBytes => formatIovecBuf host m addr iovcnt totalBytes
  | statBuf addr => formatStatBuf m addr
  | statxBuf addr => formatStatxBuf m addr
  | getdentsBuf addr ret => formatGetdentsBuf m addr ret
  | sigaction addr => formatSigaction host m addr
  | epollEvent addr => formatEpollEvent host m addr
  | epollEventsBuf addr ret => formatEpollEventsBuf host m addr ret
  | pollfdsBuf addr nfds => formatPollfdsBuf host m addr nfds
  | fdsetBuf addr nfds => formatFdsetBuf m addr nfds
  | rlimit addr => formatRlimit host m addr
  | rusage addr => formatRusage m addr
  | timespec addr => formatTimespec m addr

/-- The text it prints, given unlimited room. -/
def text (host : Host) (m : Mem) : MemDecoder → Text
  | sockaddr addr addrlen => sockaddrText host m addr addrlen
  | clone3Flags addr => clone3Text host m addr
  | iovecBuf addr iovcnt totalBytes => iovecText host m addr iovcnt totalBytes
  | statBuf addr => structText m addr 144 statText
  | statxBuf addr => structText m addr 256 statxText
  | getdentsBuf addr ret => getdentsText m addr ret
  | sigaction addr => structText m addr 32 (sigactionText host)
  | epollEvent addr => structText m addr 12 epollEventText
  | epollEventsBuf addr ret => epollEventsText host m addr ret
  | pollfdsBuf addr nfds => pollfdsText host m addr nfds
  | fdsetBuf addr nfds => fdsetText m addr nfds
  | rlimit addr => structText m addr 16 rlimitText
  | rusage addr => structText m addr 144 rusageText
  | timespec addr => structText m addr 16 timespecText

theorem run_fills (host : Host) (m : Mem) (d : MemDecoder) : Fills 13 (d.run host m) (d.text host m) := by
  have hmono : ∀ {p : OutBuf → OutBuf} {t : Text}, Fills 1 p t → Fills 13 p t :=
    fun h => h.mono (by decide)
  cases d with
  | sockaddr addr addrlen => exact hmono (formatSockaddr_fills host m addr addrlen)
  | clone3Flags addr => exact hmono (formatClone3Flags_fills host m addr)
  | iovecBuf addr iovcnt totalBytes => exact hmono (formatIovecBuf_fills host m addr iovcnt totalBytes)
  | statBuf addr => exact hmono (formatStatBuf_fills m addr)
  | statxBuf addr => exact hmono (formatStatxBuf_fills m addr)
  | getdentsBuf addr ret => exact hmono (formatGetdentsBuf_fills m addr ret)
  | sigaction addr => exact formatSigaction_fills host m addr
  | epollEvent addr => exact hmono (formatEpollEvent_fills host m addr)
  | epollEventsBuf addr ret => exact hmono (formatEpollEventsBuf_fills host m addr ret)
  | pollfdsBuf addr nfds => exact hmono (formatPollfdsBuf_fills host m addr nfds)
  | fdsetBuf addr nfds => exact hmono (formatFdsetBuf_fills m addr nfds)
  | rlimit addr => exact hmono (formatRlimit_fills host m addr)
  | rusage addr => exact hmono (formatRusage_fills m addr)
  | timespec addr => exact hmono (formatTimespec_fills m addr)

theorem text_ne_nil (host : Host) (m : Mem) (d : MemDecoder) : d.text host m ≠ [] := by
  cases d with
  | sockaddr addr addrlen => exact sockaddrText_ne_nil host m addr addrlen
  | clone3Flags addr => exact clone3Text_ne_nil host m addr
  | iovecBuf addr iovcnt totalBytes => exact (iovecText_plain host m addr iovcnt totalBytes).ne_nil
  | statBuf addr => exact (structText_plain statText_plain m addr).ne_nil
  | statxBuf addr => exact (structText_plain statxText_plain m addr).ne_nil
  | getdentsBuf addr ret => exact getdentsText_ne_nil m addr ret
  | sigaction addr => exact structText_ne_nil (sigactionText_ne_nil host) m addr
  | epollEvent addr => exact (structText_plain epollEventText_plain m addr).ne_nil
  | epollEventsBuf addr ret => exact (epollEventsText_plain host m addr ret).ne_nil
  | pollfdsBuf addr nfds => exact (pollfdsText_plain host m addr nfds).ne_nil
  | fdsetBuf addr nfds => exact (fdsetText_plain m addr nfds).ne_nil
  | rlimit addr => exact (structText_plain rlimitText_plain m addr).ne_nil
  | rusage addr => exact (structText_plain rusageText_plain m addr).ne_nil
  | timespec addr => exact (structText_plain timespecText_plain m addr).ne_nil

end MemDecoder

/-- Each of these decoders prints one text into every array of at least the size of an
argument slot, in calls that start inside the array, and the array holds the beginning of
that text. -/
theorem memDecoders_truncate (host : Host) (m : Mem) (d : MemDecoder) :
    ∃ text : Text, text ≠ [] ∧ ∀ (outSize : Word) (init : Nat → Byte),
      strArgBufLen ≤ outSize.toNat →
        Truncates init (d.run host m (new outSize.toNat init)) outSize.toNat text ∧
          ∀ o ∈ (d.run host m (new outSize.toNat init)).calls, o < outSize.toNat := by
  refine ⟨d.text host m, d.text_ne_nil host m, fun outSize init hsize => ?_⟩
  have hroom : 13 ≤ outSize.toNat := le_trans (by decide) hsize
  exact (d.run_fills host m).truncates (d.text_ne_nil host m) hroom outSize.isLt init

end MiniStrace
