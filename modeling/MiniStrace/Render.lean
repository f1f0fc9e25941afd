/-
  Render.lean --- what the tracer prints for one call.

  THE SLOTS.  Each of the six argument slots has an array of its own, filled by the
  decoder the ladder of `run_tracer` picks: at the entry-stop for most calls, at the
  exit-stop for those with a kernel-populated argument.  `print_call` then prints as
  many of them as the syscall has.

  THE TWO GROUPS.  A call is a `name(args) ` group followed by a `= ret` group that
  ends the line.
-/
import MiniStrace.Decoders.Structs
import MiniStrace.Routing.Dispatch

set_option autoImplicit false

namespace MiniStrace

open CLib OutBuf

/-- The six argument registers, by slot. -/
abbrev Args : Type := Nat → Word

/-- The options of the command line that `run_tracer` is given. -/
structure Options where
  followForks : Bool
  showTiming : Bool
  summaryMode : Bool
  showFdPaths : Bool
  deriving DecidableEq, Repr

/-- `fd_mask & (1 << i)`. -/
def isFdArg (showFdPaths : Bool) (name : String) (i : Nat) : Bool :=
  (if showFdPaths then fdArgMask name else 0).testBit i

/-! ## The decoders behind the lookups -/

section Decode

variable (host : Host) (t : Tracee) (showFdPaths : Bool) (name : String) (args : Args)

/-- The slot of the length that belongs to a two-slot entry. -/
def lenArg (entry : Option BufferArgEntry) : Word := args ((entry.map (·.lenIdx)).getD 0)

/-- The last branch of both ladders. -/
def formatPlain (i : Nat) : OutBuf → OutBuf :=
  formatHexOrFdArg t (args i) (isFdArg showFdPaths name i)

/-- The decoder a lookup of caller-populated arguments leads to. -/
def decodeInput (l : Lookup) (i : Nat) : OutBuf → OutBuf :=
  match l with
  | .stringArg => readChildString host t.mem (args i)
  | .argvArg => readChildArgv host t.mem (args i)
  | .openFlagsArg => formatOpenFlags (args i)
  | .protFlagsArg => formatProtFlags (args i)
  | .mapFlagsArg => formatMapFlags (args i)
  | .mountFlagsArg => formatMountFlags (args i)
  | .epollOpArg => formatEpollOp (args i)
  | .epollEventArg => formatEpollEvent host t.mem (args i)
  | .socketDomainArg => formatSocketDomain (args i)
  | .socketTypeArg => formatSocketType (args i)
  | .sockoptLevelArg => formatSockoptLevel (args i)
  | .sockoptOptnameArg => formatSockoptOptname (args (i - 1)) (args i)
  | .fdsetArg => formatFdsetBuf t.mem (args i) (args 0).toNat
  | .msgFlagsArg => formatMsgFlags (args i)
  | .prctlOptionArg => formatPrctlOption (args i)
  | .prctlNameArg => formatPrctlNameArg host t.mem (args (i - 1)) (args i)
  | .dirfdArg => formatDirfd t (args i) (isFdArg showFdPaths name i)
  | .rlimitInArg => formatRlimit host t.mem (args i)
  | .waitidIdtypeArg => formatWaitidIdtype (args i)
  | .waitidOptionsArg => formatWaitidOptions (args i)
  | .schedPolicyArg => formatSchedPolicy (args i)
  | .renameat2FlagsArg => formatRenameat2Flags (args i)
  | .mremapFlagsArg => formatMremapFlags (args i)
  | .memfdFlagsArg => formatMemfdFlags (args i)
  | .eventfdFlagsArg => formatEventfdFlags (args i)
  | .rlimitResourceArg => formatRlimitResource (args i)
  | .fileModeArg => formatFileMode (args i)
  | .openModeArg => formatOpenMode (args (i - 1)) (args i)
  | .pipe2FlagsArg => formatPipe2Flags (args i)
  | .getrandomFlagsArg => formatGetrandomFlags (args i)
  | .flockOpArg => formatFlockOp (args i)
  | .madviseAdviceArg => formatMadviseAdvice (args i)
  | .futexOpArg => formatFutexOp (args i)
  | .atFlagsArg => formatAtFlags (args i)
  | .unlinkatFlagsArg => formatUnlinkatFlags (args i)
  | .faccessatFlagsArg => formatFaccessatFlags (args i)
  | .signalArg => formatSignalArg host (args i)
  | .lseekWhenceArg => formatLseekWhence (args i)
  | .fcntlCmdArg => formatFcntlCmd (args i)
  | .sigprocmaskHowArg => formatSigprocmaskHow (args i)
  | .accessModeArg => formatAccessMode (args i)
  | .clockidArg => formatClockid (args i)
  | .timespecInArg => formatTimespec t.mem (args i)
  | .cloneFlagsArg => formatCloneFlags host (args i)
  | .clone3ArgsArg => formatClone3Flags host t.mem (args i)
  | .ioctlRequestArg => formatIoctlRequest (args i)
  | .msghdrSendArg => formatMsghdr host t.mem (args i) (-1)
  | .bufferArg =>
      readChildBuffer host t.mem (args i) (lenArg args (bufferArgLookup name)).toNat
  | .sockaddrArg =>
      formatSockaddr host t.mem (args i) (lenArg args (sockaddrArgLookup name)).toNat
  | .iovecWriteArg =>
      formatIovecBuf host t.mem (args i) (lenArg args (iovecWriteArgLookup name)).toNat (-1)
  | .sigactionNewArg => formatSigaction host t.mem (args i)
  | .statxMaskArg => formatStatxMask (args i)
  | .wait4OptionsArg => formatWait4Options (args i)
  | .rusageWhoArg => formatRusageWho (args i)
  -- the kernel-populated arguments are not in the ladder of the entry-stop
  | .readArg | .acceptArg | .waitStatusArg | .msghdrRecvArg | .statBufArg | .getdentsBufArg
  | .sigactionOldArg | .timespecOutArg | .rusageArg | .rlimitOutArg | .epollEventsArg
  | .pollfdsArg | .statxBufArg | .iovecReadArg => formatPlain t showFdPaths name args i

/-- `addrlen`: what the kernel wrote behind the length pointer, if the call succeeded
and it can be read. -/
def readAddrlen (p : Pending) (ret : Int) : Nat :=
  match p.sockaddrEntry with
  | none => 128
  | some e =>
      let addrlenPtr := args e.lenIdx
      if ret ≥ 0 ∧ addrlenPtr ≠ 0 then
        match peekData t.mem addrlenPtr with
        | some word => leNat word % 2 ^ 32
        | none => 128
      else 128

/-- The decoder a lookup leads to at the exit-stop. -/
def decodeOutput (p : Pending) (ret : Int) (l : Lookup) (i : Nat) : OutBuf → OutBuf :=
  match l with
  | .readArg => readChildBuffer host t.mem (args i) ret.toNat
  | .acceptArg => formatSockaddr host t.mem (args i) (readAddrlen t args p ret)
  | .waitStatusArg => formatWaitStatus host t.mem (args i)
  | .msghdrRecvArg => formatMsghdr host t.mem (args i) ret
  | .statBufArg => formatStatBuf t.mem (args i)
  | .getdentsBufArg => formatGetdentsBuf t.mem (args i) ret
  | .sigactionOldArg => formatSigaction host t.mem (args i)
  | .timespecOutArg => formatTimespec t.mem (args i)
  | .rusageArg => formatRusage t.mem (args i)
  | .rlimitOutArg => formatRlimit host t.mem (args i)
  | .epollEventsArg => formatEpollEventsBuf host t.mem (args i) ret
  | .pollfdsArg => formatPollfdsBuf host t.mem (args i) (lenArg args p.pollfdsEntry).toNat
  | .statxBufArg => formatStatxBuf t.mem (args i)
  | .iovecReadArg =>
      formatIovecBuf host t.mem (args i) (lenArg args p.iovecEntry).toNat ret
  | l => decodeInput host t showFdPaths name args l i

/-- `argbuf[i]` at the entry-stop. -/
def entryArg (i : Nat) : Text :=
  (match entryDispatch name i with
    | some l => decodeInput host t showFdPaths name args l i
    | none => formatPlain t showFdPaths name args i) (new strArgBufLen host.junk) |>.str

/-- `argbuf[i]` at the exit-stop of a deferred call. -/
def exitArg (p : Pending) (ret : Int) (i : Nat) : Text :=
  (match exitDispatch p name ret i with
    | some l => decodeOutput host t showFdPaths name args p ret l i
    | none => formatPlain t showFdPaths name args i) (new strArgBufLen host.junk) |>.str

end Decode

/-! ## The line -/

/-- `pid_prefix`. -/
def pidPrefix (followForks : Bool) (pid : Nat) : Text :=
  if followForks then lit "[pid " ++ dec pid ++ lit "] " else []

/-- `print_call`. -/
def printCall (pidPfx : Text) (name : String) (argbuf : Nat → Text) : Text :=
  pidPfx ++ lit name ++ lit "(" ++
    List.intercalate (lit ", ") ((List.range (printedArgs name)).map argbuf) ++ lit ") "

/-- The `= ret` group. -/
def printRet (host : Host) (ret : Int) (timingBuf : Text) : Text :=
  if ret < 0 then
    lit "= " ++ decInt ret ++ lit " (" ++
      (host.strerrorname (signed 32 ((-ret) % 2 ^ 32).toNat)).getD (lit "unknown errno") ++ lit ")" ++
      timingBuf ++ lit "\n"
  else lit "= " ++ decInt ret ++ timingBuf ++ lit "\n"

/-- The `name(args) ` group of a call printed at its entry-stop. -/
def entryCall (host : Host) (opts : Options) (t : Tracee) (name : String) (args : Args) : Text :=
  printCall (pidPrefix opts.followForks t.pid) name (entryArg host t opts.showFdPaths name args)

/-- The `name(args) ` group of a call printed at its exit-stop. -/
def exitCall (host : Host) (opts : Options) (t : Tracee) (name : String) (args : Args)
    (p : Pending) (ret : Int) : Text :=
  printCall (pidPrefix opts.followForks t.pid) name
    (exitArg host t opts.showFdPaths name args p ret)

/-- The line for a signal about to be delivered. -/
def signalLine (host : Host) (opts : Options) (pid : Nat) (sig : Nat) : Text :=
  pidPrefix opts.followForks pid ++ lit "--- SIG" ++ orNull (host.sigabbrev sig) ++ lit " (" ++
    orNull (host.sigdescr sig) ++ lit ") ---\n"

end MiniStrace
