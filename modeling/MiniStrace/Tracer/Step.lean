/-
  Tracer/Step.lean --- the loop of `run_tracer`.

  ONE ROUND.  `waitpid` reports a process; everything the tracer then learns about it
  through ptrace and `/proc` is part of the report: the message of a fork event, the
  registers, the memory, the descriptor links, the clock.  The body of the loop is a
  function from the tracer's state and a report to the next state.

  THE STATE.  The 64-slot table, the two counters, the summary of `-c`, and what has
  been written so far: the trace as chunks labelled with the pid that stopped, and the
  status messages.  Durations are kept in a type of their own, with the one operation
  the tracer needs.
-/
import MiniStrace.Lib.SlotTable
import MiniStrace.Render
import MiniStrace.TraceFilter

set_option autoImplicit false

namespace MiniStrace

open CLib

/-! ## Registers (`arch.h`, x86-64) -/

/-- The registers of `user_regs_struct` the tracer looks at. -/
structure Regs where
  origRax : Word
  rax : Word
  rdi : Word
  rsi : Word
  rdx : Word
  r10 : Word
  r8 : Word
  r9 : Word
  deriving DecidableEq, Repr

def syscallNoOf (r : Regs) : Int := r.origRax.toInt

def returnValOf (r : Regs) : Int := r.rax.toInt

/-- `arg0` to `arg5`. -/
def argsOf (r : Regs) : Args
  | 0 => r.rdi
  | 1 => r.rsi
  | 2 => r.rdx
  | 3 => r.r10
  | 4 => r.r8
  | _ => r.r9

/-! ## State -/

structure Timespec where
  sec : Int
  nsec : Int
  deriving DecidableEq, Repr

/-- `tracee_state`, without the pid and the `active` flag, which belong to its slot. -/
structure TraceeState where
  inSyscall : Bool
  pendingName : Option String
  pendingArgs : Args
  pending : Pending
  suppressed : Bool
  entryTime : Timespec
  currentName : Option String

/-- What `memset` leaves in a new slot. -/
def TraceeState.zeroed : TraceeState where
  inSyscall := false
  pendingName := none
  pendingArgs := fun _ => 0
  pending := .zeroed
  suppressed := false
  entryTime := ⟨0, 0⟩
  currentName := none

/-- `MAX_TRACEES`. -/
def maxTracees : Nat := 64

/-- The table `tracees[MAX_TRACEES]`. -/
abbrev Tracees : Type := SlotTable Nat TraceeState maxTracees

/-- `add_tracee`. -/
def Tracees.addTracee (t : Tracees) (pid : Nat) : Option Tracees := t.add pid .zeroed

/-- `remove_tracee`. -/
abbrev Tracees.removeTracee (t : Tracees) (pid : Nat) : Tracees := t.remove pid

/-- A row of the `-c` summary. -/
structure SummaryEntry (τ : Type) where
  name : String
  calls : Nat
  errors : Nat
  totalTime : τ

/-- What `run_tracer` is started with, and what it takes from elsewhere. -/
structure Config (τ : Type) where
  host : Host
  opts : Options
  filter : Filter
  /-- `syscall_name`, generated from the system headers -/
  syscallName : Int → String
  /-- the time between two readings of the clock -/
  elapsed : Timespec → Timespec → τ
  /-- `" <%.6f>"` -/
  timing : τ → Text

/-- A piece of the trace, labelled with the process whose stop produced it. -/
structure Chunk where
  pid : Nat
  text : Text
  deriving DecidableEq

/-- How the loop was left. -/
inductive LoopExit where
  /-- `waitpid` failed with `ECHILD` -/
  | noTracees
  /-- `active_count <= 0` -/
  | counted
  deriving DecidableEq, Repr

structure Tracer (τ : Type) where
  tracees : Tracees
  activeCount : Int
  callCount : Nat
  summary : List (SummaryEntry τ)
  trace : List Chunk
  status : List Text
  left : Option LoopExit

/-- A status reported by `waitpid`, with what ptrace and `/proc` say about the process
at that moment. -/
structure Stop where
  pid : Nat
  status : Nat
  /-- `PTRACE_GETEVENTMSG` -/
  eventMsg : Option Nat
  /-- `get_regs` -/
  regs : Option Regs
  mem : Mem
  link : Nat → Option Text
  /-- `CLOCK_MONOTONIC` -/
  now : Timespec

/-- The result of `waitpid(-1, &status, __WALL)`. -/
inductive Wait where
  | noChild
  | interrupted
  | report (s : Stop)

namespace Stop

def stopsig (s : Stop) : Nat := wExitStatus s.status

def event (s : Stop) : Nat := s.status / 2 ^ 16

/-- `SIGTRAP`. -/
def sigtrap : Nat := 5

/-- `WIFEXITED(status) || WIFSIGNALED(status)`. -/
def isGone (s : Stop) : Bool := wIfExited s.status || wIfSignaled s.status

/-- A stop with the event of a fork, a vfork or a clone. -/
def isForkEvent (s : Stop) : Bool :=
  s.stopsig == sigtrap && (s.event == 1 || s.event == 2 || s.event == 3)

/-- `SIGTRAP | 0x80`. -/
def isSyscallStop (s : Stop) : Bool := s.stopsig == sigtrap + 0x80

/-- What the tracer sees of the stopped process. -/
def tracee (s : Stop) : Tracee := ⟨s.pid, s.mem, s.link⟩

end Stop

/-! ## Syscall-stops -/

section Stops

variable {τ : Type} (cfg : Config τ)

/-- The state of a process after its entry-stop. -/
def entryState (s : Stop) (regs : Regs) (ts : TraceeState) : TraceeState :=
  let name := cfg.syscallName (syscallNoOf regs)
  let ts := { ts with currentName := some name }
  let p := Pending.ofName name
  let ts := if cfg.opts.showTiming || cfg.opts.summaryMode then { ts with entryTime := s.now }
    else ts
  let ts := { ts with suppressed := !syscallAllowed cfg.filter name, inSyscall := true }
  if ts.suppressed then { ts with pending := .clear }
  else if p.any then
    { ts with pendingName := some name, pendingArgs := argsOf regs, pending := p }
  else { ts with pending := .clear }

/-- What the entry-stop prints. -/
def entryTexts (s : Stop) (regs : Regs) : List Text :=
  let name := cfg.syscallName (syscallNoOf regs)
  if !syscallAllowed cfg.filter name then []
  else if (Pending.ofName name).any then []
  else if cfg.opts.summaryMode then []
  else [entryCall cfg.host cfg.opts s.tracee name (argsOf regs)]

/-- The state of a process after its exit-stop. -/
def exitState (ts : TraceeState) : TraceeState :=
  if ts.suppressed then { ts with inSyscall := false }
  else if ts.pending.any then { ts with pending := .clear, inSyscall := false }
  else { ts with inSyscall := false }

/-- `timing_buf`. -/
def timingBuf (s : Stop) (ts : TraceeState) : Text :=
  if cfg.opts.showTiming then cfg.timing (cfg.elapsed ts.entryTime s.now) else []

/-- What the exit-stop prints: the call, if it was deferred, and its result. -/
def exitTexts (s : Stop) (regs : Regs) (ts : TraceeState) : List Text :=
  let ret := returnValOf regs
  if ts.suppressed then []
  else
    (if ts.pending.any && !cfg.opts.summaryMode then
      [exitCall cfg.host cfg.opts s.tracee (ts.pendingName.getD "") ts.pendingArgs ts.pending ret]
    else []) ++
    (if cfg.opts.summaryMode then [] else [printRet cfg.host ret (timingBuf cfg s ts)])

/-- `MAX_SUMMARY_ENTRIES`. -/
def maxSummaryEntries : Nat := 256

/-- One call in its row. -/
def SummaryEntry.count [Add τ] (ret : Int) (elapsed : τ) (e : SummaryEntry τ) : SummaryEntry τ :=
  { e with
    calls := e.calls + 1
    errors := if ret < 0 then e.errors + 1 else e.errors
    totalTime := e.totalTime + elapsed }

/-- `summary_lookup_or_add`, and the call counted in the row it returns; a name that is
not in a full table is dropped. -/
def recordCall [Zero τ] [Add τ] (name : String) (ret : Int) (elapsed : τ) :
    List (SummaryEntry τ) → Nat → List (SummaryEntry τ)
  | [], room => match room with
    | 0 => []
    | _ + 1 => [SummaryEntry.count ret elapsed ⟨name, 0, 0, 0⟩]
  | e :: es, room =>
      if strcmpEq e.name name then e.count ret elapsed :: es
      else e :: recordCall name ret elapsed es (room - 1)

/-- The summary after an exit-stop. -/
def exitSummary [Zero τ] [Add τ] (s : Stop) (regs : Regs) (ts : TraceeState)
    (summary : List (SummaryEntry τ)) : List (SummaryEntry τ) :=
  if ts.suppressed || !cfg.opts.summaryMode then summary
  else
    recordCall (ts.currentName.getD "") (returnValOf regs) (cfg.elapsed ts.entryTime s.now)
      summary maxSummaryEntries

end Stops

/-! ## The loop -/

section Loop

variable {τ : Type} [Zero τ] [Add τ] (cfg : Config τ)

/-- The messages for a process that is gone, with `active` tracees left. -/
def goneMessages (s : Stop) (active : Int) (callCount : Nat) : List Text :=
  if !cfg.opts.followForks then
    if wIfExited s.status then
      [lit "\n[mini-strace] process exited, code " ++ dec (wExitStatus s.status) ++
        lit ", total syscalls: " ++ dec callCount ++ lit "\n"]
    else
      [lit "\n[mini-strace] process killed by signal " ++ dec (wTermSig s.status) ++ lit "\n"]
  else
    [if wIfExited s.status then
      lit "\n[mini-strace] pid " ++ dec s.pid ++ lit " exited, code " ++
        dec (wExitStatus s.status) ++ lit "\n"
    else
      lit "\n[mini-strace] pid " ++ dec s.pid ++ lit " killed by signal " ++
        dec (wTermSig s.status) ++ lit "\n"] ++
    (if active ≤ 0 then
      [lit "[mini-strace] all tracees exited, total syscalls: " ++ dec callCount ++ lit "\n"]
    else [])

/-- A process has exited or was killed. -/
def handleGone (st : Tracer τ) (s : Stop) : Tracer τ :=
  let active := st.activeCount - 1
  { st with
    tracees := st.tracees.removeTracee s.pid
    activeCount := active
    status := st.status ++ goneMessages cfg s active st.callCount
    left := if active ≤ 0 then some .counted else none }

/-- A fork event: the new process is tracked, and counted if it could be. -/
def handleForkEvent (st : Tracer τ) (s : Stop) : Tracer τ :=
  match s.eventMsg with
  | none => st
  | some newPid =>
      match st.tracees.addTracee newPid with
      | none => st
      | some tracees =>
          { st with
            tracees := tracees
            activeCount := st.activeCount + 1
            status := st.status ++ [lit "[mini-strace] new child pid " ++ dec newPid ++ lit "\n"] }

/-- Any other stop that is not a syscall-stop. -/
def handleSignalStop (st : Tracer τ) (s : Stop) : Tracer τ :=
  let deliver := if s.stopsig ≠ Stop.sigtrap then s.stopsig else 0
  let chunks := if deliver ≠ 0 then [⟨s.pid, signalLine cfg.host cfg.opts s.pid deliver⟩] else []
  { st with
    tracees := (st.tracees.addTracee s.pid).getD st.tracees
    trace := st.trace ++ chunks }

/-- A syscall-stop of a tracked process whose registers could be read. -/
def handleRegs (st : Tracer τ) (s : Stop) (regs : Regs) (ts : TraceeState) : Tracer τ :=
  if !ts.inSyscall then
    { st with
      tracees := st.tracees.modify s.pid (entryState cfg s regs)
      trace := st.trace ++ (entryTexts cfg s regs).map (⟨s.pid, ·⟩)
      callCount := st.callCount + 1 }
  else
    { st with
      tracees := st.tracees.modify s.pid exitState
      trace := st.trace ++ (exitTexts cfg s regs ts).map (⟨s.pid, ·⟩)
      summary := exitSummary cfg s regs ts st.summary }

/-- A syscall-stop. -/
def handleSyscallStop (st : Tracer τ) (s : Stop) : Tracer τ :=
  match st.tracees.addTracee s.pid with
  | none => st
  | some tracees =>
      let st := { st with tracees := tracees }
      match s.regs, tracees.find s.pid with
      | some regs, some ts => handleRegs cfg st s regs ts
      | _, _ => st

/-- One round of the loop for a reported status. -/
def handleReport (st : Tracer τ) (s : Stop) : Tracer τ :=
  if s.isGone then handleGone cfg st s
  else if !wIfStopped s.status then st
  else if cfg.opts.followForks && s.isForkEvent then handleForkEvent st s
  else if !s.isSyscallStop then handleSignalStop cfg st s
  else handleSyscallStop cfg st s

/-- One round of the loop. -/
def loopBody (st : Tracer τ) : Wait → Tracer τ
  | .noChild => { st with left := some .noTracees }
  | .interrupted => st
  | .report s => handleReport cfg st s

/-- The state in which the loop is entered. -/
def Tracer.init (child : Nat) : Tracer τ where
  tracees :=
    let t : Tracees := SlotTable.empty maxTracees 0 .zeroed
    (t.addTracee child).getD t
  activeCount := 1
  callCount := 0
  summary := []
  trace := []
  status := []
  left := none

end Loop

/-! ## Registration -/

section Registration

variable {τ : Type}

/-- The process a report makes the tracer register. -/
def Stop.registers (cfg : Config τ) (s : Stop) : Option Nat :=
  if s.isGone then none
  else if !wIfStopped s.status then none
  else if cfg.opts.followForks && s.isForkEvent then s.eventMsg
  else some s.pid

/-- The traced program is the only one in the table when the loop is entered. -/
theorem find_init (child q : Nat) :
    (Tracer.init child : Tracer τ).tracees.find q = if q = child then some .zeroed else none := by
  have hne : Tracees.addTracee (SlotTable.empty maxTracees 0 .zeroed) child ≠ none := by
    intro hnone
    have hlen := (SlotTable.add_eq_none_iff.mp hnone).2
    rw [SlotTable.keys_empty] at hlen
    exact absurd hlen (by decide)
  obtain ⟨t, ht⟩ := Option.ne_none_iff_exists'.mp hne
  simp only [Tracer.init, ht, Option.getD_some, SlotTable.find_of_add ht,
    SlotTable.find_empty, Option.getD_none]

theorem keys_init (child : Nat) : (Tracer.init child : Tracer τ).tracees.keys = [child] := by
  have hmem : ∀ q, q ∈ (Tracer.init child : Tracer τ).tracees.keys ↔ q ∈ [child] := by
    intro q
    rw [SlotTable.mem_keys_iff, find_init, List.mem_singleton]
    split_ifs with h <;> simp [h]
  exact List.perm_singleton.mp
    ((List.perm_ext_iff_of_nodup (SlotTable.nodup_keys _) (List.nodup_singleton _)).mpr hmem)

end Registration

end MiniStrace
