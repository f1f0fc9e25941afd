/-
  Decoders/Pure.lean --- the decoders that look at nothing but a value, as one family.

  THE FAMILY.  The property harness of the repository sweeps these functions: each takes
  a 64-bit value and an array.  Two of them also take the value of a neighbouring slot,
  which is part of the member here; the two that can print the target of a descriptor
  are members with that switched off.

  WHAT IS PROVED.  Every member prints one text, whatever the size of the array, and an
  array of any size holds the beginning of that text.  The tables, the walks and the
  guards behind that are in the lemmas about the shapes of decoders.
-/
import MiniStrace.Decoders.Plain
import MiniStrace.Decoders.Structs

set_option autoImplicit false

namespace MiniStrace

open CLib OutBuf

/-- The functions the property harness sweeps. -/
inductive PureDecoder where
  | openFlags | protFlags | mapFlags | mountFlags | epollOp | statxMask | sockoptLevel
  | sockoptOptname (level : Word)
  | socketDomain | socketType | signalArg | lseekWhence | fcntlCmd | sigprocmaskHow | accessMode
  | clockid | cloneFlags | ioctlRequest | msgFlags | prctlOption | dirfd | rusageWho
  | wait4Options | waitidOptions | waitidIdtype | schedPolicy | renameat2Flags | mremapFlags
  | memfdFlags | eventfdFlags | rlimitResource | fileMode
  | openMode (flags : Word)
  | pipe2Flags | getrandomFlags | flockOp | madviseAdvice | futexOp | atFlags | unlinkatFlags
  | faccessatFlags | hexOrFdArg
  deriving DecidableEq, Repr

/-- The function a member stands for, called on a value. -/
def PureDecoder.run (host : Host) (t : Tracee) (d : PureDecoder) (value : Word) : OutBuf → OutBuf :=
  match d with
  | .openFlags => formatOpenFlags value
  | .protFlags => formatProtFlags value
  | .mapFlags => formatMapFlags value
  | .mountFlags => formatMountFlags value
  | .epollOp => formatEpollOp value
  | .statxMask => formatStatxMask value
  | .sockoptLevel => formatSockoptLevel value
  | .sockoptOptname level => formatSockoptOptname level value
  | .socketDomain => formatSocketDomain value
  | .socketType => formatSocketType value
  | .signalArg => formatSignalArg host value
  | .lseekWhence => formatLseekWhence value
  | .fcntlCmd => formatFcntlCmd value
  | .sigprocmaskHow => formatSigprocmaskHow value
  | .accessMode => formatAccessMode value
  | .clockid => formatClockid value
  | .cloneFlags => formatCloneFlags host value
  | .ioctlRequest => formatIoctlRequest value
  | .msgFlags => formatMsgFlags value
  | .prctlOption => formatPrctlOption value
  | .dirfd => formatDirfd t value false
  | .rusageWho => formatRusageWho value
  | .wait4Options => formatWait4Options value
  | .waitidOptions => formatWaitidOptions value
  | .waitidIdtype => formatWaitidIdtype value
  | .schedPolicy => formatSchedPolicy value
  | .renameat2Flags => formatRenameat2Flags value
  | .mremapFlags => formatMremapFlags value
  | .memfdFlags => formatMemfdFlags value
  | .eventfdFlags => formatEventfdFlags value
  | .rlimitResource => formatRlimitResource value
  | .fileMode => formatFileMode value
  | .openMode flags => formatOpenMode flags value
  | .pipe2Flags => formatPipe2Flags value
  | .getrandomFlags => formatGetrandomFlags value
  | .flockOp => formatFlockOp value
  | .madviseAdvice => formatMadviseAdvice value
  | .futexOp => formatFutexOp value
  | .atFlags => formatAtFlags value
  | .unlinkatFlags => formatUnlinkatFlags value
  | .faccessatFlags => formatFaccessatFlags value
  | .hexOrFdArg => formatHexOrFdArg t value false

/-! ## One text each -/

/-- `p` prints one text, which is not empty, and holds no control byte unless a name of
the C library does. -/
def PrintsNames (host : Host) (p : OutBuf → OutBuf) : Prop :=
  ∃ t, Prints p t ∧ t ≠ [] ∧ (host.CleanNames → Clean t)

theorem printsNames_of_plain {host : Host} {p : OutBuf → OutBuf} (h : PrintsPlain p) :
    PrintsNames host p := by
  obtain ⟨t, hp, ht⟩ := h
  exact ⟨t, hp, ht.ne_nil, fun _ => ht.clean⟩

theorem cloneFlagsText_ne_nil (host : Host) (flags exitSignal : Word) :
    cloneFlagsText host flags exitSignal ≠ [] := by
  have hzero : lit "0" ≠ [] := by with_unfolding_all decide
  rw [cloneFlagsText]
  generalize ((walkText false cloneFlagTable [] flags).1 ++ if exitSignal ≠ 0 then
    barText (walkText false cloneFlagTable [] flags).1 ++ exitSignalText host exitSignal else []) = t
  by_cases ht : t = []
  · rw [if_pos ht]
    exact hzero
  · rw [if_neg ht]
    exact fun h => ht (List.append_eq_nil_iff.mp h).1

theorem signalArgText_ne_nil (host : Host) (value : Word) : signalArgText host value ≠ [] := by
  have hlit : lit "SIG" ≠ [] := by with_unfolding_all decide
  rw [signalArgText]
  split
  · with_unfolding_all decide
  · split
    · exact fun h => hlit (List.append_eq_nil_iff.mp h).1
    · exact (plain_decInt _).ne_nil

theorem formatCloneFlags_names (host : Host) (value : Word) :
    PrintsNames host (formatCloneFlags host value) :=
  ⟨_, formatCloneFlagsValue_prints host _ _, cloneFlagsText_ne_nil host _ _,
    fun hh => (cloneFlagsText_plain hh _ _).clean⟩

theorem formatSignalArg_names (host : Host) (value : Word) :
    PrintsNames host (formatSignalArg host value) :=
  ⟨_, prints_snprintf _, signalArgText_ne_nil host value,
    fun hh => (signalArgText_plain hh value).clean⟩

theorem formatSockoptOptname_plain (level optname : Word) :
    PrintsPlain (formatSockoptOptname level optname) := by
  refine formatEnum_plain ?_ optname
  unfold sockoptOptnameTable
  split_ifs <;> with_unfolding_all decide

/-- The text of a value that may name a descriptor, when no descriptor is looked up. -/
theorem formatHexOrFdArg_plain (t : Tracee) (raw : Word) :
    PrintsPlain (formatHexOrFdArg t raw false) :=
  printsPlain_snprintf (plain_hex0x _)

theorem formatDirfd_plain (t : Tracee) (raw : Word) : PrintsPlain (formatDirfd t raw false) := by
  by_cases hcwd : signed 32 (raw.toNat % 2 ^ 32) = atFdcwd
  · have heq : formatDirfd t raw false = (·.snprintf (lit "AT_FDCWD")) := by
      funext out
      rw [formatDirfd, if_pos hcwd]
    rw [heq]
    exact printsPlain_snprintf (by with_unfolding_all decide)
  · have heq : formatDirfd t raw false = formatHexOrFdArg t raw false := by
      funext out
      rw [formatDirfd, if_neg hcwd]
    rw [heq]
    exact formatHexOrFdArg_plain t raw

theorem PureDecoder.run_names (host : Host) (t : Tracee) (d : PureDecoder) (value : Word) :
    PrintsNames host (d.run host t value) := by
  have hflags : ∀ {zero : String} {table : List FlagEntry}, Plain (lit zero) →
      plainTable table = true → PrintsNames host (formatFlags zero table value) :=
    fun hz h => printsNames_of_plain (formatFlags_plain hz h value)
  have henum : ∀ {table : List FlagEntry}, plainTable table = true →
      PrintsNames host (formatEnum table value) :=
    fun h => printsNames_of_plain (formatEnum_plain h value)
  have hhex : ∀ {table : List FlagEntry}, plainTable table = true →
      PrintsNames host (formatFlagsOrHex table value) :=
    fun h => printsNames_of_plain (formatFlagsOrHex_plain h value)
  have hpeel : ∀ {table flags : List FlagEntry}, plainTable table = true → plainTable flags = true →
      PrintsNames host (formatEnumFlags table flags value) :=
    fun h hf => printsNames_of_plain (formatEnumFlags_plain h hf value)
  have hat : ∀ bit : Option String, (∀ name, bit = some name → Plain (lit name)) →
      PrintsNames host (formatAtFlagsWalk bit value) :=
    fun _ h => printsNames_of_plain (formatAtFlagsWalk_plain h value)
  have hzero : Plain (lit "0") := by with_unfolding_all decide
  cases d with
  | openFlags => exact printsNames_of_plain (formatOpenFlags_plain value)
  | protFlags => exact hflags (by with_unfolding_all decide) (by with_unfolding_all decide)
  | accessMode => exact hflags (by with_unfolding_all decide) (by with_unfolding_all decide)
  | msgFlags | wait4Options | waitidOptions | renameat2Flags | mremapFlags | memfdFlags
  | eventfdFlags | pipe2Flags | getrandomFlags | flockOp =>
      exact hflags hzero (by with_unfolding_all decide)
  | mapFlags | mountFlags | statxMask => exact hhex (by with_unfolding_all decide)
  | epollOp | sockoptLevel | socketDomain | lseekWhence | fcntlCmd | sigprocmaskHow | clockid
  | prctlOption | waitidIdtype | rlimitResource | madviseAdvice =>
      exact henum (by with_unfolding_all decide)
  | sockoptOptname level => exact printsNames_of_plain (formatSockoptOptname_plain level value)
  | socketType | schedPolicy | futexOp =>
      exact hpeel (by with_unfolding_all decide) (by with_unfolding_all decide)
  | signalArg => exact formatSignalArg_names host value
  | cloneFlags => exact formatCloneFlags_names host value
  | ioctlRequest => exact printsNames_of_plain (printsPlain_snprintf (ioctlRequestText_plain value))
  | dirfd => exact printsNames_of_plain (formatDirfd_plain t value)
  | rusageWho => exact printsNames_of_plain (printsPlain_snprintf (rusageWhoText_plain value))
  | fileMode => exact printsNames_of_plain (printsPlain_snprintf (fileModeText_plain value))
  | openMode flags => exact printsNames_of_plain (formatOpenMode_plain flags value)
  | atFlags => exact hat none fun name h => absurd h (by simp)
  | unlinkatFlags =>
      refine hat (some "AT_REMOVEDIR") fun name h => ?_
      obtain rfl := Option.some.inj h
      with_unfolding_all decide
  | faccessatFlags =>
      refine hat (some "AT_EACCESS") fun name h => ?_
      obtain rfl := Option.some.inj h
      with_unfolding_all decide
  | hexOrFdArg => exact printsNames_of_plain (formatHexOrFdArg_plain t value)

/-! ## Truncation -/

/-- Every member prints one text, and an array of any size holds the beginning of it. -/
theorem pureDecoders_truncate (host : Host) (t : Tracee) (d : PureDecoder) (value : Word) :
    ∃ text : Text, text ≠ [] ∧ ∀ (outSize : Word) (init : Nat → Byte),
      Truncates init (d.run host t value (new outSize.toNat init)) outSize.toNat text := by
  obtain ⟨text, hprints, hne, -⟩ := d.run_names host t value
  exact ⟨text, hne, fun outSize init => hprints.truncates hne outSize.isLt init⟩

end MiniStrace
