/-
  Decoders/Structs.lean --- the decoders of `decoders.c` that read the tracee's
  memory or its descriptor table.

  A STRUCT IS A BYTE STRING.  The source copies a struct with `read_child_raw` and
  then reads its fields; here a field is a range of the copied bytes at the offset
  it has on x86-64.  A struct that could not be copied whole is shown as its address,
  and a null pointer as `NULL`.

  ARRAYS.  `format_iovec_array`, `format_epoll_events_buf` and `format_pollfds_buf`
  share one loop: at most eight elements, each read on its own, stopping at the first
  one that cannot be read.
-/
import MiniStrace.Decoders.Flags
import MiniStrace.Decoders.Cmsg

set_option autoImplicit false

namespace MiniStrace

open CLib OutBuf

/-- What the tracer can see of a stopped process. -/
structure Tracee where
  pid : Nat
  mem : Mem
  /-- the target of `/proc/pid/fd/N`, when there is one -/
  link : Nat → Option Text

/-! ## Descriptors -/

/-- `resolve_fd_path` into a buffer of `size` characters: `readlink` cuts the target
to `size - 1` bytes. -/
def resolveFdPath (t : Tracee) (fd : Int) (size : Nat) : Option Text :=
  if fd < 0 then none else (t.link fd.toNat).map (·.take (size - 1))

/-- The text of `format_hex_or_fd_arg`. -/
def hexOrFdText (t : Tracee) (raw : Word) (isFdArg : Bool) : Text :=
  match if isFdArg then resolveFdPath t raw.toInt 192 else none with
  | some path => hex0x raw.toNat ++ lit "<" ++ cstr path ++ lit ">"
  | none => hex0x raw.toNat

def formatHexOrFdArg (t : Tracee) (raw : Word) (isFdArg : Bool) (out : OutBuf) : OutBuf :=
  out.snprintf (hexOrFdText t raw isFdArg)

/-- `AT_FDCWD`. -/
def atFdcwd : Int := -100

/-- `format_dirfd`: only the low 32 bits are compared with `AT_FDCWD`. -/
def formatDirfd (t : Tracee) (raw : Word) (isFdArg : Bool) (out : OutBuf) : OutBuf :=
  if signed 32 (raw.toNat % 2 ^ 32) = atFdcwd then out.snprintf (lit "AT_FDCWD")
  else formatHexOrFdArg t raw isFdArg out

/-! ## Socket addresses -/

/-- `want` of `format_sockaddr`: at most the 128 bytes of its array, and at least the
two of `sa_family`. -/
def sockaddrWant (addrlen : Nat) : Nat :=
  let want := if addrlen < 128 then addrlen else 128
  if want < 2 then 2 else want

/-- The text of the bytes of a socket address. -/
def sockaddrBytesText (host : Host) (raw : Text) : Text :=
  let got := raw.length
  let family := field raw 0 2
  let port := (raw.getD 2 0).toNat * 2 ^ 8 + (raw.getD 3 0).toNat
  if family = 2 ∧ got ≥ 8 then
    lit "\x7bsa_family=AF_INET, sin_port=htons(" ++ dec port ++
      lit "), sin_addr=inet_addr(\"" ++ dec (raw.getD 4 0).toNat ++ lit "." ++
      dec (raw.getD 5 0).toNat ++ lit "." ++ dec (raw.getD 6 0).toNat ++ lit "." ++
      dec (raw.getD 7 0).toNat ++ lit "\")\x7d"
  else if family = 10 ∧ got ≥ 8 + 16 then
    match host.inetNtop6 ((raw.drop 8).take 16) with
    | some ipstr =>
        lit "\x7bsa_family=AF_INET6, sin6_port=htons(" ++ dec port ++
          lit "), sin6_addr=inet_pton(AF_INET6, \"" ++ ipstr ++ lit "\")\x7d"
    | none => lit "\x7bsa_family=AF_INET6, ...\x7d"
  else if family = 1 then
    let pathLen := if got > 2 then got - 2 else 0
    if pathLen > 0 ∧ raw.getD 2 0 = 0 then
      lit "\x7bsa_family=AF_UNIX, sun_path=\"@" ++ cstrPrec (pathLen - 1) (raw.drop 3) ++
        lit "\"\x7d"
    else
      lit "\x7bsa_family=AF_UNIX, sun_path=\"" ++ cstrPrec pathLen (raw.drop 2) ++ lit "\"\x7d"
  else lit "\x7bsa_family=" ++ dec family ++ lit ", ...\x7d"

/-- The text of `format_sockaddr`. -/
def sockaddrText (host : Host) (m : Mem) (addr : Word) (addrlen : Nat) : Text :=
  if addr = 0 then lit "NULL"
  else
    let raw := readChildRaw m addr (sockaddrWant addrlen)
    if raw.length < 2 then hex0x addr.toNat else sockaddrBytesText host raw

def formatSockaddr (host : Host) (m : Mem) (addr : Word) (addrlen : Nat) (out : OutBuf) : OutBuf :=
  out.snprintf (sockaddrText host m addr addrlen)

/-! ## Wait statuses -/

/-- `WTERMSIG`. -/
def wTermSig (status : Nat) : Nat := status % 0x80

/-- `WEXITSTATUS` and `WSTOPSIG`. -/
def wExitStatus (status : Nat) : Nat := status / 0x100 % 0x100

/-- `WIFEXITED`. -/
def wIfExited (status : Nat) : Bool := wTermSig status == 0

/-- `WIFSIGNALED`. -/
def wIfSignaled (status : Nat) : Bool := 0 < wTermSig status && wTermSig status < 0x7f

/-- `WIFSTOPPED`. -/
def wIfStopped (status : Nat) : Bool := status % 0x100 == 0x7f

/-- The text of a wait status. -/
def waitStatusText (host : Host) (wstatus : Nat) : Text :=
  if wIfExited wstatus then
    lit "[\x7bWIFEXITED(s) && WEXITSTATUS(s) == " ++ dec (wExitStatus wstatus) ++ lit "\x7d]"
  else if wIfSignaled wstatus then
    lit "[\x7bWIFSIGNALED(s) && WTERMSIG(s) == SIG" ++
      orNull (host.sigabbrev (wTermSig wstatus)) ++ lit "\x7d]"
  else if wIfStopped wstatus then
    lit "[\x7bWIFSTOPPED(s) && WSTOPSIG(s) == SIG" ++
      orNull (host.sigabbrev (wExitStatus wstatus)) ++ lit "\x7d]"
  else lit "[0x" ++ hex wstatus ++ lit "]"

/-- `format_wait_status`: one word is peeked, its low half is the status. -/
def formatWaitStatus (host : Host) (m : Mem) (addr : Word) (out : OutBuf) : OutBuf :=
  if addr = 0 then out.snprintf (lit "NULL")
  else match peekData m addr with
    | none => out.snprintf (hex0x addr.toNat)
    | some word => out.snprintf (waitStatusText host (leNat word % 2 ^ 32))

/-! ## Fixed-size structs -/

/-- A struct of `size` bytes at `addr`: `NULL`, its address when it cannot be read
whole, and otherwise what `body` prints of its bytes. -/
def formatStruct (m : Mem) (addr : Word) (size : Nat) (body : Text → OutBuf → OutBuf)
    (out : OutBuf) : OutBuf :=
  if addr = 0 then out.snprintf (lit "NULL")
  else
    let raw := readChildRaw m addr size
    if raw.length < size then out.snprintf (hex0x addr.toNat) else body raw out

/-- `stat_file_type_name`. -/
def statFileTypeName (mode : Nat) : Option String :=
  match mode / 0x1000 % 0x10 * 0x1000 with
  | 0x8000 => some "S_IFREG"
  | 0x4000 => some "S_IFDIR"
  | 0x2000 => some "S_IFCHR"
  | 0x6000 => some "S_IFBLK"
  | 0x1000 => some "S_IFIFO"
  | 0xa000 => some "S_IFLNK"
  | 0xc000 => some "S_IFSOCK"
  | _ => none

/-- The mode with its file type split off, as both stat decoders print it. -/
def modeText (mode : Nat) : Text :=
  match statFileTypeName mode with
  | some name => lit name ++ lit "|0" ++ oct (mode - mode / 0x1000 % 0x10 * 0x1000)
  | none => lit "0" ++ oct mode

/-- `format_stat_buf`. -/
def formatStatBuf (m : Mem) (addr : Word) : OutBuf → OutBuf :=
  formatStruct m addr 144 fun st out =>
    ((((out.snprintf (lit "\x7bst_mode=" ++ modeText (field st 24 4))).append
      (lit ", st_size=" ++ decInt (fieldInt st 48 8))).append
      (lit ", st_nlink=" ++ dec (field st 16 8))).append
      (lit ", st_uid=" ++ dec (field st 28 4))).append
      (lit ", st_gid=" ++ dec (field st 32 4) ++ lit "\x7d")

/-- `format_statx_buf`. -/
def formatStatxBuf (m : Mem) (addr : Word) : OutBuf → OutBuf :=
  formatStruct m addr 256 fun stx out =>
    ((((out.snprintf (lit "\x7bstx_mode=" ++ modeText (field stx 28 2))).append
      (lit ", stx_size=" ++ dec (field stx 40 8))).append
      (lit ", stx_nlink=" ++ dec (field stx 16 4))).append
      (lit ", stx_uid=" ++ dec (field stx 20 4))).append
      (lit ", stx_gid=" ++ dec (field stx 24 4) ++ lit "\x7d")

/-- The text of a `struct timespec`. -/
def timespecText (ts : Text) : Text :=
  lit "\x7btv_sec=" ++ decInt (fieldInt ts 0 8) ++ lit ", tv_nsec=" ++ decInt (fieldInt ts 8 8) ++
    lit "\x7d"

/-- `format_timespec`. -/
def formatTimespec (m : Mem) (addr : Word) : OutBuf → OutBuf :=
  formatStruct m addr 16 fun ts out => out.snprintf (timespecText ts)

/-- `format_rusage`. -/
def formatRusage (m : Mem) (addr : Word) : OutBuf → OutBuf :=
  formatStruct m addr 144 fun ru out =>
    out.snprintf (lit "\x7bru_utime=\x7btv_sec=" ++ decInt (fieldInt ru 0 8) ++ lit ", tv_usec=" ++
      decInt (fieldInt ru 8 8) ++ lit "\x7d, ru_stime=\x7btv_sec=" ++ decInt (fieldInt ru 16 8) ++
      lit ", tv_usec=" ++ decInt (fieldInt ru 24 8) ++ lit "\x7d, ru_maxrss=" ++
      decInt (fieldInt ru 32 8) ++ lit "\x7d")

/-- `format_rlimit`; each limit goes through a buffer of 32 characters. -/
def formatRlimit (host : Host) (m : Mem) (addr : Word) : OutBuf → OutBuf :=
  formatStruct m addr 16 fun lim out =>
    let cur := (formatRlimValue (field lim 0 8) (new 32 host.junk)).str
    let max := (formatRlimValue (field lim 8 8) (new 32 host.junk)).str
    out.snprintf (lit "\x7brlim_cur=" ++ cur ++ lit ", rlim_max=" ++ max ++ lit "\x7d")

/-! ## Signal dispositions -/

/-- The text of a signal number that may have no name. -/
def sigText (host : Host) (sig : Nat) : Text :=
  match host.sigabbrev sig with
  | some name => lit "SIG" ++ name
  | none => dec sig

/-- The signal loop of `format_sigset_value`, over the signals still to look at. -/
def sigsetLoop (host : Host) (mask : Nat) : List Nat → Bool → OutBuf → OutBuf
  | [], _, out => out
  | sig :: sigs, first, out =>
      if out.oi < out.size then
        if mask.testBit (sig - 1) then
          sigsetLoop host mask sigs false
            (out.snprintf ((if first then [] else lit " ") ++ sigText host sig))
        else sigsetLoop host mask sigs first out
      else out

/-- `format_sigset_value`. -/
def formatSigsetValue (host : Host) (mask : Nat) (out : OutBuf) : OutBuf :=
  (sigsetLoop host mask (List.range' 1 64) true (out.snprintf (lit "["))).append (lit "]")

/-- The text of a handler. -/
def handlerText (handler : Nat) : Text :=
  if handler = 0 then lit "SIG_DFL" else if handler = 1 then lit "SIG_IGN" else hex0x handler

/-- `format_sigaction`, over the kernel's own layout. -/
def formatSigaction (host : Host) (m : Mem) (addr : Word) : OutBuf → OutBuf :=
  formatStruct m addr 32 fun sa out =>
    let out := out.snprintf (lit "\x7bsa_handler=")
    let out := out.snprintf (handlerText (field sa 0 8))
    let flagbuf := (formatSigactionFlagsValue (BitVec.ofNat 64 (field sa 8 8))
      (new 256 host.junk)).str
    let out := out.append (lit ", sa_flags=" ++ flagbuf)
    let maskbuf := (formatSigsetValue host (field sa 24 8) (new 512 host.junk)).str
    out.append (lit ", sa_mask=" ++ maskbuf ++ lit "\x7d")

/-! ## `clone3` -/

/-- `format_clone3_flags`: `flags` and, when it was read, `exit_signal`. -/
def formatClone3Flags (host : Host) (m : Mem) (addr : Word) (out : OutBuf) : OutBuf :=
  if addr = 0 then out.snprintf (lit "NULL")
  else
    let raw := readChildRaw m addr 40
    if raw.length < 8 then out.snprintf (hex0x addr.toNat)
    else
      let exitSignal := if raw.length ≥ 40 then field raw 32 8 else 0
      formatCloneFlagsValue host (BitVec.ofNat 64 (field raw 0 8)) (BitVec.ofNat 64 exitSignal) out

/-- `PR_SET_NAME`. -/
def prSetName : Word := 15

/-- `format_prctl_name_arg`. -/
def formatPrctlNameArg (host : Host) (m : Mem) (option addr : Word) (out : OutBuf) : OutBuf :=
  if option = prSetName then readChildString host m addr out
  else out.snprintf (hex0x addr.toNat)

/-! ## Arrays -/

/-- `IOVEC_ARRAY_MAX`, `EPOLL_EVENTS_MAX_ENTRIES` and `POLLFDS_MAX_ENTRIES`. -/
def arrayMax : Nat := 8

section Array

variable {σ : Type}

/-- The element loop shared by the array decoders, with `k` elements left from index
`i` on.  `item` reads one element and gives its text, or nothing when the element
cannot be read. -/
def arrayLoop (item : Nat → σ → Option (Text × σ)) : Nat → Nat → σ → OutBuf → OutBuf
  | 0, _, _, out => out
  | k + 1, i, s, out =>
      if out.oi < out.size then
        match item i s with
        | none => out
        | some (t, s) =>
            arrayLoop item k (i + 1) s (out.snprintf ((if i = 0 then [] else lit ", ") ++ t))
      else out

/-- The bracketed list of the first `arrayMax` of `count` elements. -/
def formatArray (item : Nat → σ → Option (Text × σ)) (count : Nat) (s : σ) (out : OutBuf) :
    OutBuf :=
  let truncated := count > arrayMax
  let out := arrayLoop item (if truncated then arrayMax else count) 0 s (out.snprintf (lit "["))
  let out := if truncated then out.append (lit ", ...") else out
  out.append (lit "]")

end Array

/-- The `i`-th element of an array of structs of `size` bytes, if it can be read whole. -/
def readElem (m : Mem) (addr : Word) (size i : Nat) : Option Text :=
  let raw := readChildRaw m (addr + BitVec.ofNat 64 (i * size)) size
  if raw.length < size then none else some raw

/-- `show_len` of one iovec: with a budget of received bytes, no more than what is
left of it. -/
def showLen (totalBytes remaining : Int) (iovLen : Nat) : Nat :=
  if totalBytes ≥ 0 then
    let avail := if remaining > 0 then remaining.toNat else 0
    if iovLen > avail then avail else iovLen
  else iovLen

/-- One iovec, with what is left of the budget after it. -/
def iovecItem (host : Host) (m : Mem) (addr : Word) (totalBytes : Int) (i : Nat)
    (remaining : Int) : Option (Text × Int) :=
  (readElem m addr 16 i).map fun iov =>
    let shown := showLen totalBytes remaining (field iov 8 8)
    let iovbuf := (readChildBuffer host m (BitVec.ofNat 64 (field iov 0 8)) shown
      (new strArgBufLen host.junk)).str
    (lit "\x7biov_base=" ++ iovbuf ++ lit ", iov_len=" ++ dec (field iov 8 8) ++ lit "\x7d",
      if totalBytes ≥ 0 then remaining - shown else remaining)

/-- `format_iovec_array`, which is also `format_iovec_buf`. -/
def formatIovecBuf (host : Host) (m : Mem) (addr : Word) (iovcnt : Nat) (totalBytes : Int)
    (out : OutBuf) : OutBuf :=
  if addr = 0 then out.snprintf (lit "NULL")
  else formatArray (iovecItem host m addr totalBytes) iovcnt totalBytes out

/-- `format_one_epoll_event`. -/
def formatOneEpollEvent (host : Host) (ev : Text) (out : OutBuf) : OutBuf :=
  let eventsbuf := (formatEpollEventsValue (BitVec.ofNat 32 (field ev 0 4))
    (new 256 host.junk)).str
  out.snprintf (lit "\x7bevents=" ++ eventsbuf ++ lit ", data=\x7bu32=" ++ dec (field ev 4 4) ++
    lit ", u64=" ++ dec (field ev 4 8) ++ lit "\x7d\x7d")

/-- `format_epoll_event`. -/
def formatEpollEvent (host : Host) (m : Mem) (addr : Word) : OutBuf → OutBuf :=
  formatStruct m addr 12 (formatOneEpollEvent host)

def epollItem (host : Host) (m : Mem) (addr : Word) (i : Nat) (_ : Unit) : Option (Text × Unit) :=
  (readElem m addr 12 i).map fun ev =>
    ((formatOneEpollEvent host ev (new 256 host.junk)).str, ())

/-- `format_epoll_events_buf`: the return value is the number of events. -/
def formatEpollEventsBuf (host : Host) (m : Mem) (addr : Word) (ret : Int) (out : OutBuf) :
    OutBuf :=
  if ret ≤ 0 then out.snprintf (hex0x addr.toNat)
  else formatArray (epollItem host m addr) ret.toNat () out

def pollfdItem (host : Host) (m : Mem) (addr : Word) (i : Nat) (_ : Unit) :
    Option (Text × Unit) :=
  (readElem m addr 8 i).map fun pfd =>
    let eventsbuf := (formatPollEventsValue (BitVec.ofNat 16 (field pfd 4 2))
      (new 128 host.junk)).str
    let reventsbuf := (formatPollEventsValue (BitVec.ofNat 16 (field pfd 6 2))
      (new 128 host.junk)).str
    (lit "\x7bfd=" ++ decInt (fieldInt pfd 0 4) ++ lit ", events=" ++ eventsbuf ++
      lit ", revents=" ++ reventsbuf ++ lit "\x7d", ())

/-- `format_pollfds_buf`. -/
def formatPollfdsBuf (host : Host) (m : Mem) (addr : Word) (nfds : Nat) (out : OutBuf) : OutBuf :=
  if addr = 0 then out.snprintf (lit "NULL")
  else formatArray (pollfdItem host m addr) nfds () out

/-! ## Descriptor sets -/

/-- The descriptor loop of `format_fdset_buf`, over the descriptors still to look at. -/
def fdsetLoop (bits : Text) : List Nat → Nat → OutBuf → OutBuf
  | [], _, out => out
  | fd :: fds, count, out =>
      if (bits.getD (fd / 8) 0).toNat.testBit (fd % 8) then
        if count ≥ 8 then out.append (lit ", ...")
        else fdsetLoop bits fds (count + 1)
          (out.append ((if count = 0 then [] else lit ", ") ++ dec fd))
      else fdsetLoop bits fds count out

/-- `format_fdset_buf`. -/
def formatFdsetBuf (m : Mem) (addr : Word) (nfds : Nat) (out : OutBuf) : OutBuf :=
  if addr = 0 then out.snprintf (lit "NULL")
  else
    let nbits := if nfds > 1024 then 1024 else nfds
    let nbytes := (nbits + 7) / 8
    let bits := readChildRaw m addr nbytes
    if bits.length < nbytes then out.snprintf (hex0x addr.toNat)
    else (fdsetLoop bits (List.range nbits) 0 (out.snprintf (lit "["))).append (lit "]")

/-! ## Directory entries -/

/-- `GETDENTS_HEADER_SIZE`. -/
def getdentsHeaderSize : Nat := 19

/-- `GETDENTS_MAX_BYTES`. -/
def getdentsMaxBytes : Nat := 4096

/-- `GETDENTS_MAX_ENTRIES`. -/
def getdentsMaxEntries : Nat := 8

/-- `dirent_type_name`. -/
def direntTypeName (dType : Nat) : String :=
  match dType with
  | 8 => "DT_REG"
  | 4 => "DT_DIR"
  | 10 => "DT_LNK"
  | 2 => "DT_CHR"
  | 6 => "DT_BLK"
  | 1 => "DT_FIFO"
  | 12 => "DT_SOCK"
  | _ => "DT_UNKNOWN"

/-- `d_reclen` of the entry at the head of `buf`. -/
def dReclen (buf : Text) : Nat := field buf 16 2

/-- The name of the entry at the head of `buf`, up to its NUL or the end of the entry. -/
def dName (buf : Text) : Text :=
  cstrPrec (dReclen buf - getdentsHeaderSize) (buf.drop getdentsHeaderSize)

/-- The text of the entry at the head of `buf`. -/
def direntText (buf : Text) : Text :=
  lit "\x7bd_ino=" ++ dec (field buf 0 8) ++ lit ", d_off=" ++ decInt (fieldInt buf 8 8) ++
    lit ", d_reclen=" ++ dec (dReclen buf) ++ lit ", d_name=\"" ++ dName buf ++
    lit "\", d_type=" ++ lit (direntTypeName (field buf 18 1)) ++ lit "\x7d"

/-- What the entry loop of `format_getdents_buf` leaves. -/
structure GetdentsState where
  out : OutBuf
  pos : Nat
  count : Nat
  more : Bool

/-- `while (pos + GETDENTS_HEADER_SIZE <= got)`: an entry that is too short, or that
runs past the copied bytes, ends the walk, and so does the ninth one. -/
def getdentsLoop (buf : Text) (pos count : Nat) (out : OutBuf) : GetdentsState :=
  if pos + getdentsHeaderSize ≤ buf.length then
    let entry := buf.drop pos
    let reclen := dReclen entry
    if reclen < getdentsHeaderSize ∨ pos + reclen > buf.length then ⟨out, pos, count, true⟩
    else if count ≥ getdentsMaxEntries then ⟨out, pos, count, true⟩
    else
      getdentsLoop buf (pos + reclen) (count + 1)
        (out.append ((if count = 0 then [] else lit ", ") ++ direntText entry))
  else ⟨out, pos, count, false⟩
termination_by buf.length - pos
decreasing_by
  have hlen : getdentsHeaderSize = 19 := rfl
  have hrec : dReclen (buf.drop pos) = reclen := rfl
  omega

/-- `format_getdents_buf`: the return value is the number of bytes filled in. -/
def formatGetdentsBuf (m : Mem) (addr : Word) (ret : Int) (out : OutBuf) : OutBuf :=
  if ret ≤ 0 then out.snprintf (hex0x addr.toNat)
  else
    let want := if ret.toNat < getdentsMaxBytes then ret.toNat else getdentsMaxBytes
    let buf := readChildRaw m addr want
    if buf.length < getdentsHeaderSize then out.snprintf (hex0x addr.toNat)
    else
      let s := getdentsLoop buf 0 0 (out.snprintf (lit "["))
      let more := s.more || decide (s.pos < buf.length)
      let out := if more then s.out.append ((if s.count = 0 then [] else lit ", ") ++ lit "...")
        else s.out
      out.append (lit "]")

/-! ## Message headers -/

/-- `format_msghdr`.  `totalBytes` is negative for `sendmsg`, whose iovecs hold the
caller's own data, and the return value for `recvmsg`. -/
def formatMsghdr (host : Host) (m : Mem) (addr : Word) (totalBytes : Int) : OutBuf → OutBuf :=
  formatStruct m addr 56 fun hdr out =>
    let name := BitVec.ofNat 64 (field hdr 0 8)
    let control := BitVec.ofNat 64 (field hdr 32 8)
    let controllen := field hdr 40 8
    let out := out.snprintf (lit "\x7bmsg_name=")
    let out := out.append
      (if name ≠ 0 then
        (formatSockaddr host m name (field hdr 8 4) (new strArgBufLen host.junk)).str
      else lit "NULL")
    let out := out.append (lit ", msg_iov=")
    let out := out.append
      (formatIovecBuf host m (BitVec.ofNat 64 (field hdr 16 8)) (field hdr 24 8) totalBytes
        (new strArgBufLen host.junk)).str
    let out := out.append (lit ", msg_control=")
    let out := out.append
      (if control ≠ 0 ∧ controllen > 0 then
        (formatCmsg host m control controllen (new strArgBufLen host.junk)).out.str
      else lit "NULL")
    out.append (lit ", msg_flags=" ++
      (formatMsgFlags (BitVec.ofNat 64 (field hdr 48 4)) (new 128 host.junk)).str ++ lit "\x7d")

end MiniStrace
