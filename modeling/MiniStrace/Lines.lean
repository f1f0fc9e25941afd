/-
  Lines.lean --- where a control byte of the tracee can get into a line of the trace.

  THE QUESTION.  A line is `name(args) = ret`.  A tracee that gets a newline into its
  arguments can make the trace show a call that never happened, so every byte the tracee
  chooses has to be escaped.

  THE ANSWER.  For each slot `rawBytes` names the bytes of the tracee that are printed as
  they are: socket paths, names of directory entries and, when descriptors are resolved,
  their targets.  Everything else is a numeral, a name of a table or escaped.  A line is
  free of control bytes exactly when these bytes are, over the slots that are printed.
-/
import MiniStrace.Decoders.Embedded
import MiniStrace.Exit.Slots

set_option autoImplicit false

namespace MiniStrace

open CLib OutBuf

/-! ## Slots -/

section Raw

variable (t : Tracee) (showFdPaths : Bool) (name : String) (args : Args)

/-- The bytes of the tracee that the last branch of the ladders prints as they are. -/
def rawPlain (i : Nat) : Text := fdPath t (args i) (isFdArg showFdPaths name i)

/-- The bytes of the tracee that a caller-populated slot shows as they are. -/
def rawInput (l : Lookup) (i : Nat) : Text :=
  match l with
  | .dirfdArg => dirfdPath t (args i) (isFdArg showFdPaths name i)
  | .sockaddrArg => sunPath t.mem (args i) (lenArg args (sockaddrArgLookup name)).toNat
  | .msghdrSendArg => msghdrPath t.mem (args i)
  | _ => []

/-- The bytes of the tracee that a slot shows as they are at the exit-stop. -/
def rawOutput (p : Pending) (ret : Int) (l : Lookup) (i : Nat) : Text :=
  match l with
  | .acceptArg => sunPath t.mem (args i) (readAddrlen t args p ret)
  | .msghdrRecvArg => msghdrPath t.mem (args i)
  | .getdentsBufArg => getdentsNames t.mem (args i) ret
  | l => rawInput t showFdPaths name args l i

end Raw

theorem formatPrctlNameArg_clean (host : Host) (m : Mem) (option addr : Word) (init : Nat → Byte) :
    Clean (formatPrctlNameArg host m option addr (new strArgBufLen init)).str := by
  unfold formatPrctlNameArg
  split
  · rw [readChildString_str]
    exact stringText_clean host m addr
  · rw [str_hex0x]
    exact clean_hex0x _

section Slots

variable {host : Host} (hn : host.CleanNames) (t : Tracee) (showFdPaths : Bool) (name : String)
  (args : Args)

include hn

/-- A decoder of the pure family prints nothing of the tracee. -/
theorem pure_clean (d : PureDecoder) (value : Word) (init : Nat → Byte) :
    Clean (d.run host t value (new strArgBufLen init)).str := by
  obtain ⟨text, hprints, hne, hclean⟩ := d.run_names host t value
  exact hprints.clean_str ⟨hclean hn, hne⟩ strArgBufLen_lt (by decide) init

theorem decodeInput_clean_iff {l : Lookup} (hl : l ∉ outputLadder) (i : Nat) (init : Nat → Byte) :
    Clean (decodeInput host t showFdPaths name args l i (new strArgBufLen init)).str ↔
      Clean (rawInput t showFdPaths name args l i) := by
  have hpure : ∀ (d : PureDecoder) (value : Word),
      Clean (d.run host t value (new strArgBufLen init)).str ↔ Clean [] :=
    fun d value => iff_of_true (pure_clean hn t d value init) clean_nil
  have hfills : ∀ {k : Nat} {p : OutBuf → OutBuf} {text : Text}, Fills k p text → k ≤ strArgBufLen →
      Plain text → (Clean (p (new strArgBufLen init)).str ↔ Clean []) :=
    fun h hk ht => iff_of_true (h.clean_str ht hk strArgBufLen_lt (by decide) init) clean_nil
  cases l with
  -- decoders of strings and buffers
  | stringArg =>
      refine iff_of_true ?_ clean_nil
      exact (readChildString_str host t.mem (args i) init).symm ▸ stringText_clean host t.mem (args i)
  | argvArg => exact iff_of_true (readChildArgv_clean host t.mem (args i) init) clean_nil
  | bufferArg =>
      refine iff_of_true ?_ clean_nil
      exact (readChildBuffer_str host t.mem (args i) _ init).symm ▸ bufferText_clean host t.mem _ _
  | prctlNameArg =>
      exact iff_of_true (formatPrctlNameArg_clean host t.mem (args (i - 1)) (args i) init) clean_nil
  -- decoders that embed bytes of the tracee
  | dirfdArg => exact formatDirfd_clean_iff t (args i) (isFdArg showFdPaths name i) init
  | sockaddrArg => exact formatSockaddr_clean_iff hn t.mem (args i) _ init
  | msghdrSendArg => exact formatMsghdr_clean_iff hn t.mem (args i) (-1) init
  -- decoders of structs and lists
  | epollEventArg =>
      exact hfills (formatEpollEvent_fills host t.mem (args i)) (by decide)
        (structText_plain epollEventText_plain _ _)
  | fdsetArg =>
      exact hfills (formatFdsetBuf_fills t.mem (args i) _) (by decide) (fdsetText_plain _ _ _)
  | rlimitInArg =>
      exact hfills (formatRlimit_fills host t.mem (args i)) (by decide)
        (structText_plain rlimitText_plain _ _)
  | timespecInArg =>
      exact hfills (formatTimespec_fills t.mem (args i)) (by decide)
        (structText_plain timespecText_plain _ _)
  | clone3ArgsArg =>
      exact hfills (formatClone3Flags_fills host t.mem (args i)) (by decide)
        (clone3Text_plain hn _ _)
  | iovecWriteArg =>
      exact hfills (formatIovecBuf_fills host t.mem (args i) _ (-1)) (by decide)
        (iovecText_plain _ _ _ _ _)
  | sigactionNewArg =>
      exact hfills (formatSigaction_fills host t.mem (args i)) (by decide)
        (structText_plain (sigactionText_plain hn) _ _)
  -- decoders of values
  | openFlagsArg => exact hpure .openFlags (args i)
  | protFlagsArg => exact hpure .protFlags (args i)
  | mapFlagsArg => exact hpure .mapFlags (args i)
  | mountFlagsArg => exact hpure .mountFlags (args i)
  | epollOpArg => exact hpure .epollOp (args i)
  | socketDomainArg => exact hpure .socketDomain (args i)
  | socketTypeArg => exact hpure .socketType (args i)
  | sockoptLevelArg => exact hpure .sockoptLevel (args i)
  | sockoptOptnameArg => exact hpure (.sockoptOptname (args (i - 1))) (args i)
  | msgFlagsArg => exact hpure .msgFlags (args i)
  | prctlOptionArg => exact hpure .prctlOption (args i)
  | waitidIdtypeArg => exact hpure .waitidIdtype (args i)
  | waitidOptionsArg => exact hpure .waitidOptions (args i)
  | schedPolicyArg => exact hpure .schedPolicy (args i)
  | renameat2FlagsArg => exact hpure .renameat2Flags (args i)
  | mremapFlagsArg => exact hpure .mremapFlags (args i)
  | memfdFlagsArg => exact hpure .memfdFlags (args i)
  | eventfdFlagsArg => exact hpure .eventfdFlags (args i)
  | rlimitResourceArg => exact hpure .rlimitResource (args i)
  | fileModeArg => exact hpure .fileMode (args i)
  | openModeArg => exact hpure (.openMode (args (i - 1))) (args i)
  | pipe2FlagsArg => exact hpure .pipe2Flags (args i)
  | getrandomFlagsArg => exact hpure .getrandomFlags (args i)
  | flockOpArg => exact hpure .flockOp (args i)
  | madviseAdviceArg => exact hpure .madviseAdvice (args i)
  | futexOpArg => exact hpure .futexOp (args i)
  | atFlagsArg => exact hpure .atFlags (args i)
  | unlinkatFlagsArg => exact hpure .unlinkatFlags (args i)
  | faccessatFlagsArg => exact hpure .faccessatFlags (args i)
  | signalArg => exact hpure .signalArg (args i)
  | lseekWhenceArg => exact hpure .lseekWhence (args i)
  | fcntlCmdArg => exact hpure .fcntlCmd (args i)
  | sigprocmaskHowArg => exact hpure .sigprocmaskHow (args i)
  | accessModeArg => exact hpure .accessMode (args i)
  | clockidArg => exact hpure .clockid (args i)
  | cloneFlagsArg => exact hpure .cloneFlags (args i)
  | ioctlRequestArg => exact hpure .ioctlRequest (args i)
  | statxMaskArg => exact hpure .statxMask (args i)
  | wait4OptionsArg => exact hpure .wait4Options (args i)
  | rusageWhoArg => exact hpure .rusageWho (args i)
  -- the kernel-populated arguments
  | readArg | acceptArg | waitStatusArg | msghdrRecvArg | statBufArg | getdentsBufArg
  | sigactionOldArg | timespecOutArg | rusageArg | rlimitOutArg | epollEventsArg | pollfdsArg
  | statxBufArg | iovecReadArg => exact absurd (by decide) hl

theorem formatWaitStatus_clean (m : Mem) (addr : Word) (init : Nat → Byte) :
    Clean (formatWaitStatus host m addr (new strArgBufLen init)).str := by
  have hprint : ∀ {text : Text}, Plain text → Clean ((new strArgBufLen init).snprintf text).str :=
    fun h => (fills_snprintf _).clean_str h (by decide) strArgBufLen_lt (by decide) init
  unfold formatWaitStatus
  split
  · exact hprint plain_null
  · split
    · exact hprint (plain_hex0x _)
    · exact hprint (waitStatusText_plain hn _)

theorem decodeOutput_clean_iff (p : Pending) (ret : Int) {l : Lookup} (i : Nat)
    (init : Nat → Byte) :
    Clean (decodeOutput host t showFdPaths name args p ret l i (new strArgBufLen init)).str ↔
      Clean (rawOutput t showFdPaths name args p ret l i) := by
  have hfills : ∀ {k : Nat} {q : OutBuf → OutBuf} {text : Text}, Fills k q text → k ≤ strArgBufLen →
      Plain text → (Clean (q (new strArgBufLen init)).str ↔ Clean []) :=
    fun h hk ht => iff_of_true (h.clean_str ht hk strArgBufLen_lt (by decide) init) clean_nil
  by_cases hl : l ∈ outputLadder
  · simp only [outputLadder, List.mem_cons, List.not_mem_nil, or_false] at hl
    rcases hl with rfl | rfl | rfl | rfl | rfl | rfl | rfl | rfl | rfl | rfl | rfl | rfl | rfl | rfl
    · refine iff_of_true ?_ clean_nil
      exact (readChildBuffer_str host t.mem (args i) _ init).symm ▸ bufferText_clean host t.mem _ _
    · exact formatSockaddr_clean_iff hn t.mem (args i) _ init
    · exact iff_of_true (formatWaitStatus_clean hn t.mem (args i) init) clean_nil
    · exact formatMsghdr_clean_iff hn t.mem (args i) ret init
    · exact hfills (formatStatBuf_fills t.mem (args i)) (by decide)
        (structText_plain statText_plain _ _)
    · exact formatGetdentsBuf_clean_iff t.mem (args i) ret init
    · exact hfills (formatSigaction_fills host t.mem (args i)) (by decide)
        (structText_plain (sigactionText_plain hn) _ _)
    · exact hfills (formatTimespec_fills t.mem (args i)) (by decide)
        (structText_plain timespecText_plain _ _)
    · exact hfills (formatRusage_fills t.mem (args i)) (by decide)
        (structText_plain rusageText_plain _ _)
    · exact hfills (formatRlimit_fills host t.mem (args i)) (by decide)
        (structText_plain rlimitText_plain _ _)
    · exact hfills (formatEpollEventsBuf_fills host t.mem (args i) ret) (by decide)
        (epollEventsText_plain _ _ _ _)
    · exact hfills (formatPollfdsBuf_fills host t.mem (args i) _) (by decide)
        (pollfdsText_plain _ _ _ _)
    · exact hfills (formatStatxBuf_fills t.mem (args i)) (by decide)
        (structText_plain statxText_plain _ _)
    · exact hfills (formatIovecBuf_fills host t.mem (args i) _ ret) (by decide)
        (iovecText_plain _ _ _ _ _)
  · have hin := decodeInput_clean_iff hn t showFdPaths name args hl i init
    cases l <;> first | exact absurd (by decide) hl | exact hin

end Slots

/-! ## Lines -/

/-- The bytes of the tracee that slot `i` of a call shows as they are. -/
def rawBytes (opts : Options) (t : Tracee) (name : String) (args : Args) (ret : Int) (i : Nat) :
    Text :=
  if deferred name then
    match exitDispatch (.ofName name) name ret i with
    | some l => rawOutput t opts.showFdPaths name args (.ofName name) ret l i
    | none => rawPlain t opts.showFdPaths name args i
  else
    match entryDispatch name i with
    | some l => rawInput t opts.showFdPaths name args l i
    | none => rawPlain t opts.showFdPaths name args i

/-- The line of a call: the call at the stop where it is printed, then its result. -/
def callLine (host : Host) (opts : Options) (t : Tracee) (name : String) (args : Args) (ret : Int)
    (timingBuf : Text) : Text :=
  (if deferred name then exitCall host opts t name args (.ofName name) ret
    else entryCall host opts t name args) ++ printRet host ret timingBuf

theorem printCall_clean_iff {pidPfx : Text} (hpid : Clean pidPfx) {name : String}
    (hname : Clean (lit name)) (argbuf : Nat → Text) :
    Clean (printCall pidPfx name argbuf) ↔ ∀ i < printedArgs name, Clean (argbuf i) := by
  have hlit : Clean (lit "(") ∧ Clean (lit ", ") ∧ Clean (lit ") ") := by with_unfolding_all decide
  have hsep : ∀ texts : List Text,
      Clean (List.intercalate (lit ", ") texts) ↔ ∀ s ∈ texts, Clean s := by
    intro texts
    induction texts with
    | nil => simp
    | cons s texts ih =>
        cases texts with
        | nil => simp
        | cons s' texts => simp [List.intercalate_cons_cons, hlit, ih]
  unfold printCall
  simp [hpid, hname, hlit, hsep]

/-- The result group without its newline. -/
theorem printRet_clean {host : Host} (hn : host.CleanNames) (ret : Int) {timingBuf : Text}
    (htime : Clean timingBuf) :
    ∃ body, printRet host ret timingBuf = body ++ [0x0a] ∧ Clean body := by
  have hlit : Clean (lit "= ") ∧ Clean (lit " (") ∧ Clean (lit ")") ∧ Clean (lit "unknown errno") := by
    with_unfolding_all decide
  have hnl : lit "\n" = [0x0a] := by with_unfolding_all decide
  have herr : ∀ e, Clean ((host.strerrorname e).getD (lit "unknown errno")) := by
    intro e
    cases he : host.strerrorname e with
    | none => exact hlit.2.2.2
    | some text => exact hn.strerrorname e text he
  unfold printRet
  rw [hnl]
  split
  · exact ⟨_, rfl, by simp [hlit, herr, htime]⟩
  · exact ⟨_, rfl, by simp [hlit, htime]⟩

theorem pidPrefix_clean (followForks : Bool) (pid : Nat) : Clean (pidPrefix followForks pid) := by
  have hlit : Clean (lit "[pid ") ∧ Clean (lit "] ") := by with_unfolding_all decide
  cases followForks <;> simp [pidPrefix, hlit]

section Line

variable {host : Host} (hn : host.CleanNames) (opts : Options) (t : Tracee) {name : String}
  (hname : Clean (lit name)) (args : Args) (ret : Int)

include hn hname

/-- What the group before the result shows of the tracee. -/
theorem call_clean_iff :
    Clean (if deferred name then exitCall host opts t name args (.ofName name) ret
      else entryCall host opts t name args) ↔
      ∀ i < printedArgs name, Clean (rawBytes opts t name args ret i) := by
  have hplain : ∀ i, Clean (formatPlain t opts.showFdPaths name args i
      (new strArgBufLen host.junk)).str ↔ Clean (rawPlain t opts.showFdPaths name args i) :=
    fun i => formatHexOrFdArg_clean_iff t (args i) _ host.junk
  unfold rawBytes
  by_cases hd : deferred name = true
  · rw [if_pos hd, exitCall, printCall_clean_iff (pidPrefix_clean _ _) hname]
    simp only [hd, if_true]
    refine forall₂_congr fun i _ => ?_
    unfold exitArg
    cases exitDispatch (.ofName name) name ret i with
    | none => exact hplain i
    | some l => exact decodeOutput_clean_iff hn t opts.showFdPaths name args _ ret i host.junk
  · rw [if_neg hd, entryCall, printCall_clean_iff (pidPrefix_clean _ _) hname]
    simp only [hd]
    refine forall₂_congr fun i _ => ?_
    unfold entryArg
    cases hdisp : entryDispatch name i with
    | none => exact hplain i
    | some l =>
        have hentry : l ∈ entryLadder := List.mem_of_find?_eq_some hdisp
        have hnot : l ∉ outputLadder := fun ho => not_mem_entryLadder ho hentry
        exact decodeInput_clean_iff hn t opts.showFdPaths name args hnot i host.junk

end Line

/-- With printable names and a printable time, the text of a call from its beginning to
the newline that ends it is free of control bytes exactly when the socket paths, directory
entry names and descriptor targets in its printed slots are. -/
theorem callLine_clean_iff {host : Host} (hn : host.CleanNames) (opts : Options) (t : Tracee)
    {name : String} (hname : Clean (lit name)) (args : Args) (ret : Int) {timingBuf : Text}
    (htime : Clean timingBuf) :
    Clean (callLine host opts t name args ret timingBuf).dropLast ↔
      ∀ i < printedArgs name, Clean (rawBytes opts t name args ret i) := by
  obtain ⟨body, hret, hbody⟩ := printRet_clean hn ret htime
  rw [callLine, hret, ← List.append_assoc, List.dropLast_concat, clean_append,
    call_clean_iff hn opts t hname args ret]
  exact and_iff_left hbody

/-- `connect` to the socket path `a`, a newline, `b`. -/
def connectArgs : Args := fun i => if i = 0 then 3 else if i = 1 then 0x1000 else 5

/-- The five bytes of that address. -/
def connectMem : Mem := fun a => some
  (if a = 0x1000 then 1 else if a = 0x1002 then 0x61 else if a = 0x1003 then 0x0a
    else if a = 0x1004 then 0x62 else 0)

theorem connect_line_clean_iff :
    (default : Host).CleanNames ∧ Clean (lit "connect") ∧
      (Clean (callLine default ⟨false, false, false, false⟩ ⟨1, connectMem, fun _ => none⟩ "connect"
        connectArgs 0 []).dropLast ↔
      ∀ i < printedArgs "connect", Clean (rawBytes ⟨false, false, false, false⟩
        ⟨1, connectMem, fun _ => none⟩ "connect" connectArgs 0 i)) :=
  ⟨default_cleanNames, by with_unfolding_all decide,
    callLine_clean_iff default_cleanNames _ _ (by with_unfolding_all decide) _ _ clean_nil⟩

/-- The newline of the socket path ends the line of `connect` in the middle. -/
theorem connect_path_splits_line :
    callLine default ⟨false, false, false, false⟩ ⟨1, connectMem, fun _ => none⟩ "connect"
      connectArgs 0 [] =
      lit "connect(0x3, \x7bsa_family=AF_UNIX, sun_path=\"a\nb\"\x7d, 0x5) = 0\n" ∧
    ¬ Clean (callLine default ⟨false, false, false, false⟩ ⟨1, connectMem, fun _ => none⟩ "connect"
      connectArgs 0 []).dropLast := by
  decide +kernel

end MiniStrace
