/-
  Routing/Dispatch.lean --- which decoder `run_tracer` sends an argument slot to.

  WHAT IS MODELLED.  The two else-if ladders of `run_tracer` ask one lookup after
  the other whether it claims a slot.  A ladder is the list of these lookups in
  the source's order, and a slot goes to the first one that claims it.  The ladder
  of the exit-stop asks the lookups of caller-populated arguments again and the
  fourteen stashed results of the lookups of kernel-populated ones; some of these
  are gated by the sign of the return value.

  THE DEFERRAL.  A call is printed at its exit-stop when one of the fourteen
  lookups of kernel-populated arguments matches its name.
-/
import MiniStrace.Routing.Tables

set_option autoImplicit false

namespace MiniStrace

/-! ## The lookups -/

/-- The lookups of `arg_routing.h` that assign slots to decoders, that is, all but
`fd_arg_mask`. -/
inductive Lookup where
  | stringArg | dirfdArg | atFlagsArg | unlinkatFlagsArg | faccessatFlagsArg | argvArg
  | openFlagsArg | protFlagsArg | mapFlagsArg | mountFlagsArg | socketDomainArg | socketTypeArg
  | sockoptLevelArg | sockoptOptnameArg | fdsetArg | msgFlagsArg | fileModeArg | openModeArg
  | renameat2FlagsArg | mremapFlagsArg | memfdFlagsArg | eventfdFlagsArg | wait4OptionsArg
  | waitidIdtypeArg | waitidOptionsArg | schedPolicyArg | rusageWhoArg | rlimitInArg
  | rlimitOutArg | rlimitResourceArg | pipe2FlagsArg | getrandomFlagsArg | flockOpArg
  | madviseAdviceArg | futexOpArg | prctlOptionArg | prctlNameArg | signalArg | lseekWhenceArg
  | fcntlCmdArg | sigprocmaskHowArg | accessModeArg | clockidArg | waitStatusArg | rusageArg
  | epollOpArg | epollEventArg | epollEventsArg | statBufArg | statxMaskArg | statxBufArg
  | getdentsBufArg | cloneFlagsArg | clone3ArgsArg | ioctlRequestArg | msghdrSendArg
  | msghdrRecvArg | sigactionNewArg | sigactionOldArg | timespecInArg | timespecOutArg
  | bufferArg | iovecWriteArg | sockaddrArg | acceptArg | pollfdsArg | readArg | iovecReadArg
  deriving DecidableEq, Repr

/-- What a lookup returns: a mask of slots, or the entry of a syscall if it has one. -/
inductive Answer where
  | mask (slots : Nat)
  | entry (found : Option BufferArgEntry)

namespace Answer

/-- The answer names slot `i`: bit `i` of the mask, or `buf_idx`. -/
def names : Answer → Nat → Bool
  | mask slots, i => slots.testBit i
  | entry found, i => found.any (·.bufIdx == i)

/-- The slots the answer names, as a mask. -/
def slots : Answer → Nat
  | mask slots => slots
  | entry (some e) => 2 ^ e.bufIdx
  | entry none => 0

theorem testBit_slots (a : Answer) (i : Nat) : a.slots.testBit i = a.names i := by
  match a with
  | mask slots => rfl
  | entry none => simp [slots, names]
  | entry (some e) => simp [slots, names, Nat.testBit_two_pow, beq_eq_decide]

end Answer

/-- What a lookup scans. -/
inductive RouteTable where
  | mask (table : List (String × Nat))
  | entry (table : List BufferArgEntry)

namespace RouteTable

/-- The names a table mentions. -/
def names : RouteTable → List String
  | mask table => table.map (·.1)
  | entry table => table.map (·.name)

/-- What the scan of a table returns for a syscall. -/
def scan : RouteTable → String → Answer
  | mask table, syscall => .mask (maskLookup table syscall)
  | entry table, syscall => .entry (bufferLookup table syscall)

/-- Every slot the table names is one of the six. -/
def small : RouteTable → Bool
  | mask table => table.all (·.2 < 2 ^ 6)
  | entry table => table.all (·.bufIdx < 6)

theorem slots_lt {t : RouteTable} (h : t.small) (name : String) : (t.scan name).slots < 2 ^ 6 := by
  cases t with
  | mask table =>
      rw [small, List.all_eq_true] at h
      simp only [scan, Answer.slots, maskLookup]
      split
      · rename_i e he
        simpa using h e (List.mem_of_find?_eq_some he)
      · decide
  | entry table =>
      rw [small, List.all_eq_true] at h
      rw [scan]
      cases he : bufferLookup table name with
      | none => decide
      | some e =>
          have hlt : e.bufIdx < 6 := by simpa using h e (List.mem_of_find?_eq_some he)
          exact Nat.pow_lt_pow_right (by decide) hlt

theorem names_scan_of_not_mem {t : RouteTable} {name : String} (h : name ∉ t.names) (i : Nat) :
    (t.scan name).names i = false := by
  cases t with
  | mask table => simp [scan, Answer.names, maskLookup_of_not_mem h]
  | entry table => simp [scan, Answer.names, bufferLookup_of_not_mem h]

end RouteTable

namespace Lookup

/-- What a lookup of `arg_routing.h` returns for a syscall. -/
def ask (l : Lookup) (syscall : String) : Answer :=
  match l with
  | .stringArg => .mask (stringArgMask syscall)
  | .dirfdArg => .mask (dirfdArgMask syscall)
  | .atFlagsArg => .mask (atFlagsArgMask syscall)
  | .unlinkatFlagsArg => .mask (unlinkatFlagsArgMask syscall)
  | .faccessatFlagsArg => .mask (faccessatFlagsArgMask syscall)
  | .argvArg => .mask (argvArgMask syscall)
  | .openFlagsArg => .mask (openFlagsArgMask syscall)
  | .protFlagsArg => .mask (protFlagsArgMask syscall)
  | .mapFlagsArg => .mask (mapFlagsArgMask syscall)
  | .mountFlagsArg => .mask (mountFlagsArgMask syscall)
  | .socketDomainArg => .mask (socketDomainArgMask syscall)
  | .socketTypeArg => .mask (socketTypeArgMask syscall)
  | .sockoptLevelArg => .mask (sockoptLevelArgMask syscall)
  | .sockoptOptnameArg => .mask (sockoptOptnameArgMask syscall)
  | .fdsetArg => .mask (fdsetArgMask syscall)
  | .msgFlagsArg => .mask (msgFlagsArgMask syscall)
  | .fileModeArg => .mask (fileModeArgMask syscall)
  | .openModeArg => .mask (openModeArgMask syscall)
  | .renameat2FlagsArg => .mask (renameat2FlagsArgMask syscall)
  | .mremapFlagsArg => .mask (mremapFlagsArgMask syscall)
  | .memfdFlagsArg => .mask (memfdFlagsArgMask syscall)
  | .eventfdFlagsArg => .mask (eventfdFlagsArgMask syscall)
  | .wait4OptionsArg => .mask (wait4OptionsArgMask syscall)
  | .waitidIdtypeArg => .mask (waitidIdtypeArgMask syscall)
  | .waitidOptionsArg => .mask (waitidOptionsArgMask syscall)
  | .schedPolicyArg => .mask (schedPolicyArgMask syscall)
  | .rusageWhoArg => .mask (rusageWhoArgMask syscall)
  | .rlimitInArg => .mask (rlimitInArgMask syscall)
  | .rlimitOutArg => .mask (rlimitOutArgMask syscall)
  | .rlimitResourceArg => .mask (rlimitResourceArgMask syscall)
  | .pipe2FlagsArg => .mask (pipe2FlagsArgMask syscall)
  | .getrandomFlagsArg => .mask (getrandomFlagsArgMask syscall)
  | .flockOpArg => .mask (flockOpArgMask syscall)
  | .madviseAdviceArg => .mask (madviseAdviceArgMask syscall)
  | .futexOpArg => .mask (futexOpArgMask syscall)
  | .prctlOptionArg => .mask (prctlOptionArgMask syscall)
  | .prctlNameArg => .mask (prctlNameArgMask syscall)
  | .signalArg => .mask (signalArgMask syscall)
  | .lseekWhenceArg => .mask (lseekWhenceArgMask syscall)
  | .fcntlCmdArg => .mask (fcntlCmdArgMask syscall)
  | .sigprocmaskHowArg => .mask (sigprocmaskHowArgMask syscall)
  | .accessModeArg => .mask (accessModeArgMask syscall)
  | .clockidArg => .mask (clockidArgMask syscall)
  | .waitStatusArg => .mask (waitStatusArgMask syscall)
  | .rusageArg => .mask (rusageArgMask syscall)
  | .epollOpArg => .mask (epollOpArgMask syscall)
  | .epollEventArg => .mask (epollEventArgMask syscall)
  | .epollEventsArg => .mask (epollEventsArgMask syscall)
  | .statBufArg => .mask (statBufArgMask syscall)
  | .statxMaskArg => .mask (statxMaskArgMask syscall)
  | .statxBufArg => .mask (statxBufArgMask syscall)
  | .getdentsBufArg => .mask (getdentsBufArgMask syscall)
  | .cloneFlagsArg => .mask (cloneFlagsArgMask syscall)
  | .clone3ArgsArg => .mask (clone3ArgsArgMask syscall)
  | .ioctlRequestArg => .mask (ioctlRequestArgMask syscall)
  | .msghdrSendArg => .mask (msghdrSendArgMask syscall)
  | .msghdrRecvArg => .mask (msghdrRecvArgMask syscall)
  | .sigactionNewArg => .mask (sigactionNewArgMask syscall)
  | .sigactionOldArg => .mask (sigactionOldArgMask syscall)
  | .timespecInArg => .mask (timespecInArgMask syscall)
  | .timespecOutArg => .mask (timespecOutArgMask syscall)
  | .bufferArg => .entry (bufferArgLookup syscall)
  | .iovecWriteArg => .entry (iovecWriteArgLookup syscall)
  | .sockaddrArg => .entry (sockaddrArgLookup syscall)
  | .acceptArg => .entry (acceptArgLookup syscall)
  | .pollfdsArg => .entry (pollfdsArgLookup syscall)
  | .readArg => .entry (readArgLookup syscall)
  | .iovecReadArg => .entry (iovecReadArgLookup syscall)

/-- The table a lookup scans. -/
def table : Lookup → RouteTable
  | .stringArg => .mask stringArgTable
  | .dirfdArg => .mask dirfdArgTable
  | .atFlagsArg => .mask atFlagsArgTable
  | .unlinkatFlagsArg => .mask unlinkatFlagsArgTable
  | .faccessatFlagsArg => .mask faccessatFlagsArgTable
  | .argvArg => .mask argvArgTable
  | .openFlagsArg => .mask openFlagsArgTable
  | .protFlagsArg => .mask protFlagsArgTable
  | .mapFlagsArg => .mask mapFlagsArgTable
  | .mountFlagsArg => .mask mountFlagsArgTable
  | .socketDomainArg => .mask socketDomainArgTable
  | .socketTypeArg => .mask socketTypeArgTable
  | .sockoptLevelArg => .mask sockoptLevelArgTable
  | .sockoptOptnameArg => .mask sockoptOptnameArgTable
  | .fdsetArg => .mask fdsetArgTable
  | .msgFlagsArg => .mask msgFlagsArgTable
  | .fileModeArg => .mask fileModeArgTable
  | .openModeArg => .mask openModeArgTable
  | .renameat2FlagsArg => .mask renameat2FlagsArgTable
  | .mremapFlagsArg => .mask mremapFlagsArgTable
  | .memfdFlagsArg => .mask memfdFlagsArgTable
  | .eventfdFlagsArg => .mask eventfdFlagsArgTable
  | .wait4OptionsArg => .mask wait4OptionsArgTable
  | .waitidIdtypeArg => .mask waitidIdtypeArgTable
  | .waitidOptionsArg => .mask waitidOptionsArgTable
  | .schedPolicyArg => .mask schedPolicyArgTable
  | .rusageWhoArg => .mask rusageWhoArgTable
  | .rlimitInArg => .mask rlimitInArgTable
  | .rlimitOutArg => .mask rlimitOutArgTable
  | .rlimitResourceArg => .mask rlimitResourceArgTable
  | .pipe2FlagsArg => .mask pipe2FlagsArgTable
  | .getrandomFlagsArg => .mask getrandomFlagsArgTable
  | .flockOpArg => .mask flockOpArgTable
  | .madviseAdviceArg => .mask madviseAdviceArgTable
  | .futexOpArg => .mask futexOpArgTable
  | .prctlOptionArg => .mask prctlOptionArgTable
  | .prctlNameArg => .mask prctlNameArgTable
  | .signalArg => .mask signalArgTable
  | .lseekWhenceArg => .mask lseekWhenceArgTable
  | .fcntlCmdArg => .mask fcntlCmdArgTable
  | .sigprocmaskHowArg => .mask sigprocmaskHowArgTable
  | .accessModeArg => .mask accessModeArgTable
  | .clockidArg => .mask clockidArgTable
  | .waitStatusArg => .mask waitStatusArgTable
  | .rusageArg => .mask rusageArgTable
  | .epollOpArg => .mask epollOpArgTable
  | .epollEventArg => .mask epollEventArgTable
  | .epollEventsArg => .mask epollEventsArgTable
  | .statBufArg => .mask statBufArgTable
  | .statxMaskArg => .mask statxMaskArgTable
  | .statxBufArg => .mask statxBufArgTable
  | .getdentsBufArg => .mask getdentsBufArgTable
  | .cloneFlagsArg => .mask cloneFlagsArgTable
  | .clone3ArgsArg => .mask clone3ArgsArgTable
  | .ioctlRequestArg => .mask ioctlRequestArgTable
  | .msghdrSendArg => .mask msghdrSendArgTable
  | .msghdrRecvArg => .mask msghdrRecvArgTable
  | .sigactionNewArg => .mask sigactionNewArgTable
  | .sigactionOldArg => .mask sigactionOldArgTable
  | .timespecInArg => .mask timespecInArgTable
  | .timespecOutArg => .mask timespecOutArgTable
  | .bufferArg => .entry bufferArgTable
  | .iovecWriteArg => .entry iovecWriteArgTable
  | .sockaddrArg => .entry sockaddrArgTable
  | .acceptArg => .entry acceptArgTable
  | .pollfdsArg => .entry pollfdsArgTable
  | .readArg => .entry readArgTable
  | .iovecReadArg => .entry iovecReadArgTable

/-- A lookup scans its table. -/
theorem ask_eq_scan (l : Lookup) (syscall : String) : l.ask syscall = l.table.scan syscall := by
  cases l <;> rfl

/-- The lookup assigns slot `i` of the syscall `name`. -/
def assigns (l : Lookup) (name : String) (i : Nat) : Bool := (l.ask name).names i

theorem testBit_slots (l : Lookup) (name : String) (i : Nat) :
    (l.ask name).slots.testBit i = l.assigns name i := (l.ask name).testBit_slots i

theorem table_small (l : Lookup) : l.table.small = true := by
  cases l <;> decide

theorem lt_of_assigns {l : Lookup} {name : String} {i : Nat} (h : l.assigns name i = true) :
    i < 6 := by
  rw [← testBit_slots, ask_eq_scan] at h
  by_contra hi
  have hlt : (l.table.scan name).slots < 2 ^ i :=
    lt_of_lt_of_le (RouteTable.slots_lt l.table_small name)
      (Nat.pow_le_pow_right (by decide) (by omega))
  rw [Nat.testBit_lt_two_pow hlt] at h
  exact absurd h (by decide)

theorem mem_names_of_assigns {l : Lookup} {name : String} {i : Nat}
    (h : l.assigns name i = true) : name ∈ l.table.names := by
  by_contra hn
  rw [assigns, ask_eq_scan, RouteTable.names_scan_of_not_mem hn] at h
  exact absurd h (by decide)

end Lookup

/-! ## The ladder of the entry-stop -/

/-- The lookups the entry-stop asks, in its order. -/
def entryLadder : List Lookup :=
  [.stringArg, .argvArg, .openFlagsArg, .protFlagsArg, .mapFlagsArg, .mountFlagsArg,
   .epollOpArg, .epollEventArg, .socketDomainArg, .socketTypeArg, .sockoptLevelArg,
   .sockoptOptnameArg, .fdsetArg, .msgFlagsArg, .prctlOptionArg, .prctlNameArg, .dirfdArg,
   .rlimitInArg, .waitidIdtypeArg, .waitidOptionsArg, .schedPolicyArg, .renameat2FlagsArg,
   .mremapFlagsArg, .memfdFlagsArg, .eventfdFlagsArg, .rlimitResourceArg, .fileModeArg,
   .openModeArg, .pipe2FlagsArg, .getrandomFlagsArg, .flockOpArg, .madviseAdviceArg,
   .futexOpArg, .atFlagsArg, .unlinkatFlagsArg, .faccessatFlagsArg, .signalArg, .lseekWhenceArg,
   .fcntlCmdArg, .sigprocmaskHowArg, .accessModeArg, .clockidArg, .timespecInArg,
   .cloneFlagsArg, .clone3ArgsArg, .ioctlRequestArg, .msghdrSendArg, .bufferArg, .sockaddrArg,
   .iovecWriteArg]

/-- The lookup whose decoder the entry-stop uses for slot `i`; `none` is the plain
hex value. -/
def entryDispatch (name : String) (i : Nat) : Option Lookup :=
  entryLadder.find? (·.assigns name i)

/-! ## Deferral -/

/-- The lowest slot of a mask, `-1` when it is empty. -/
def maskIdx (mask : Nat) : Int :=
  match (List.range 6).find? (mask.testBit ·) with
  | some i => i
  | none => -1

/-- The fourteen `pending_*` fields that say which slots wait for the exit-stop. -/
structure Pending where
  readEntry : Option BufferArgEntry
  sockaddrEntry : Option BufferArgEntry
  waitStatusIdx : Int
  msghdrIdx : Int
  statIdx : Int
  getdentsIdx : Int
  sigactionIdx : Int
  timespecOutIdx : Int
  rusageIdx : Int
  epollEventsIdx : Int
  pollfdsEntry : Option BufferArgEntry
  statxIdx : Int
  iovecEntry : Option BufferArgEntry
  rlimitIdx : Int
  deriving DecidableEq, Repr

namespace Pending

/-- No slot waits. -/
def clear : Pending := ⟨none, none, -1, -1, -1, -1, -1, -1, -1, -1, none, -1, none, -1⟩

/-- What `memset` leaves: no entries, and every index naming slot 0. -/
def zeroed : Pending := ⟨none, none, 0, 0, 0, 0, 0, 0, 0, 0, none, 0, none, 0⟩

/-- What the entry-stop looks up for a syscall. -/
def ofName (name : String) : Pending where
  readEntry := readArgLookup name
  sockaddrEntry := acceptArgLookup name
  waitStatusIdx := maskIdx (waitStatusArgMask name)
  msghdrIdx := maskIdx (msghdrRecvArgMask name)
  statIdx := maskIdx (statBufArgMask name)
  getdentsIdx := maskIdx (getdentsBufArgMask name)
  sigactionIdx := maskIdx (sigactionOldArgMask name)
  timespecOutIdx := maskIdx (timespecOutArgMask name)
  rusageIdx := maskIdx (rusageArgMask name)
  epollEventsIdx := maskIdx (epollEventsArgMask name)
  pollfdsEntry := pollfdsArgLookup name
  statxIdx := maskIdx (statxBufArgMask name)
  iovecEntry := iovecReadArgLookup name
  rlimitIdx := maskIdx (rlimitOutArgMask name)

/-- The disjunction that decides both to defer a call and to print a deferred
one. -/
def any (p : Pending) : Bool :=
  p.readEntry.isSome || p.sockaddrEntry.isSome || 0 ≤ p.waitStatusIdx || 0 ≤ p.msghdrIdx ||
    0 ≤ p.statIdx || 0 ≤ p.getdentsIdx || 0 ≤ p.sigactionIdx || 0 ≤ p.timespecOutIdx ||
    0 ≤ p.rusageIdx || 0 ≤ p.epollEventsIdx || p.pollfdsEntry.isSome || 0 ≤ p.statxIdx ||
    p.iovecEntry.isSome || 0 ≤ p.rlimitIdx

@[simp] theorem any_clear : clear.any = false := by decide

end Pending

/-- The call is printed at its exit-stop. -/
def deferred (name : String) : Bool := (Pending.ofName name).any

/-! ## The ladder of the exit-stop -/

/-- The lookups of caller-populated arguments the exit-stop asks first. -/
def inputLadder : List Lookup :=
  [.stringArg, .signalArg, .sigactionNewArg, .timespecInArg, .clockidArg, .statxMaskArg,
   .msgFlagsArg, .dirfdArg, .atFlagsArg, .wait4OptionsArg, .rusageWhoArg, .rlimitResourceArg,
   .rlimitInArg]

/-- The kernel-populated arguments, in the order the exit-stop tries them. -/
def outputLadder : List Lookup :=
  [.readArg, .acceptArg, .waitStatusArg, .msghdrRecvArg, .statBufArg, .getdentsBufArg,
   .sigactionOldArg, .timespecOutArg, .rusageArg, .rlimitOutArg, .epollEventsArg, .pollfdsArg,
   .statxBufArg, .iovecReadArg]

/-- The condition on the return value under which the exit-stop takes a branch. -/
def Lookup.gate (l : Lookup) (ret : Int) : Bool :=
  match l with
  | .readArg => 0 < ret
  | .acceptArg | .waitStatusArg | .msghdrRecvArg | .statBufArg | .sigactionOldArg
  | .rusageArg | .rlimitOutArg | .statxBufArg | .iovecReadArg => 0 ≤ ret
  | _ => true

/-- The stashed result of a lookup names slot `i`. -/
def Pending.claims (p : Pending) (l : Lookup) (i : Nat) : Bool :=
  match l with
  | .readArg => p.readEntry.any (·.bufIdx == i)
  | .acceptArg => p.sockaddrEntry.any (·.bufIdx == i)
  | .waitStatusArg => p.waitStatusIdx == i
  | .msghdrRecvArg => p.msghdrIdx == i
  | .statBufArg => p.statIdx == i
  | .getdentsBufArg => p.getdentsIdx == i
  | .sigactionOldArg => p.sigactionIdx == i
  | .timespecOutArg => p.timespecOutIdx == i
  | .rusageArg => p.rusageIdx == i
  | .rlimitOutArg => p.rlimitIdx == i
  | .epollEventsArg => p.epollEventsIdx == i
  | .pollfdsArg => p.pollfdsEntry.any (·.bufIdx == i)
  | .statxBufArg => p.statxIdx == i
  | .iovecReadArg => p.iovecEntry.any (·.bufIdx == i)
  | _ => false

/-- A mask of at most one slot is named by its index. -/
theorem maskIdx_beq {mask i : Nat} (h : mask = 0 ∨ ∃ k, k < 6 ∧ mask = 2 ^ k) :
    (maskIdx mask == (i : Int)) = mask.testBit i := by
  rcases h with rfl | ⟨k, hk, rfl⟩
  · have : maskIdx 0 = -1 := by decide
    rw [this, Nat.zero_testBit]
    exact beq_false_of_ne (by omega)
  · have hidx : maskIdx (2 ^ k) = k := by
      interval_cases k <;> decide
    rw [hidx, Nat.testBit_two_pow]
    simp [beq_eq_decide]

/-- Every mask of the table is a single slot. -/
def singleSlots (table : List (String × Nat)) : Bool :=
  table.all fun e => (List.range 6).any fun k => e.2 == 2 ^ k

theorem maskLookup_single {table : List (String × Nat)} (h : singleSlots table = true)
    (name : String) : maskLookup table name = 0 ∨ ∃ k, k < 6 ∧ maskLookup table name = 2 ^ k := by
  rw [singleSlots, List.all_eq_true] at h
  unfold maskLookup
  split
  · rename_i e he
    have := h e (List.mem_of_find?_eq_some he)
    simp only [List.any_eq_true, List.mem_range, beq_iff_eq] at this
    exact Or.inr this
  · exact Or.inl rfl

/-- What was stashed at the entry-stop claims the slots the lookups assign. -/
theorem claims_ofName {l : Lookup} (hl : l ∈ outputLadder) (name : String) (i : Nat) :
    (Pending.ofName name).claims l i = l.assigns name i := by
  have hmask : ∀ {table : List (String × Nat)}, singleSlots table = true →
      (maskIdx (maskLookup table name) == (i : Int)) = (maskLookup table name).testBit i :=
    fun h => maskIdx_beq (maskLookup_single h name)
  have hcases : l = .readArg ∨ l = .acceptArg ∨ l = .waitStatusArg ∨ l = .msghdrRecvArg ∨
      l = .statBufArg ∨ l = .getdentsBufArg ∨ l = .sigactionOldArg ∨ l = .timespecOutArg ∨
      l = .rusageArg ∨ l = .rlimitOutArg ∨ l = .epollEventsArg ∨ l = .pollfdsArg ∨
      l = .statxBufArg ∨ l = .iovecReadArg := by
    simpa [outputLadder] using hl
  rcases hcases with rfl | rfl | rfl | rfl | rfl | rfl | rfl | rfl | rfl | rfl | rfl | rfl |
    rfl | rfl
  · rfl
  · rfl
  · exact hmask (by decide)
  · exact hmask (by decide)
  · exact hmask (by decide)
  · exact hmask (by decide)
  · exact hmask (by decide)
  · exact hmask (by decide)
  · exact hmask (by decide)
  · exact hmask (by decide)
  · exact hmask (by decide)
  · rfl
  · exact hmask (by decide)
  · rfl

/-- The lookup whose decoder the exit-stop uses for slot `i` of a deferred call;
`none` is the plain hex value. -/
def exitDispatch (p : Pending) (name : String) (ret : Int) (i : Nat) : Option Lookup :=
  match inputLadder.find? (·.assigns name i) with
  | some l => some l
  | none => outputLadder.find? fun l => p.claims l i && l.gate ret

/-- The other slot a decoder reads next to its own: the length, the slot before, or
slot 0. -/
def Lookup.sibling (l : Lookup) (name : String) (i : Nat) : Option Int :=
  match l with
  | .sockoptOptnameArg | .prctlNameArg | .openModeArg => some (i - 1)
  | .fdsetArg => some 0
  | l => match l.ask name with
    | .mask _ => none
    | .entry found => found.map fun e => (e.lenIdx : Int)

end MiniStrace
