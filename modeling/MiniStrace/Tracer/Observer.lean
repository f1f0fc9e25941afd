/-
  Tracer/Observer.lean --- what the tracer sees, apart from what it shows.

  THE OBSERVER.  A second reading of the loop with the display taken away: for each tracked
  process the call it is in, the two counters, and the list of what happened.  It is told
  of `-f` and of the syscall names, and of no other option; it has no slots, no pending
  fields and no text.

  THE TRACER is the observer followed by a rendering of each event.  This holds for every
  sequence of results of `waitpid`, also for those in which registers cannot be read, slots
  run out or a stop is taken for the wrong kind.  So whatever an option does to the output,
  it does to the rendering of single events.
-/
import MiniStrace.Lib.BoundedMap
import MiniStrace.Tracer.Summary

set_option autoImplicit false

namespace MiniStrace

open CLib

/-! ## Whole runs of the loop -/

section Run

variable {τ : Type} [Zero τ] [Add τ] (cfg : Config τ)

/-- The loop on the results of its waits, as far as it asks for them. -/
def runLoop (st : Tracer τ) : List Wait → Tracer τ
  | [] => st
  | w :: ws => if st.left.isSome then st else runLoop (loopBody cfg st w) ws

/-- `run_tracer`, once the traced program has been resumed for the first time. -/
def runTracer (child : Nat) (ws : List Wait) : Tracer τ := runLoop cfg (.init child) ws

end Run

/-! ## The observer -/

/-- What happens to a process, as far as the tracer can tell. -/
inductive Event where
  | entered (t : Tracee) (c : Call)
  | returned (t : Tracee) (c : Call) (ret : Int) (now : Timespec)
  | signalled (pid sig : Nat)
  | created (pid : Nat)
  /-- with the call it was in, and what the counters say then -/
  | gone (pid status : Nat) (running : Option Call) (active : Int) (callCount : Nat)

/-- The tracked processes, each with the call it is in. -/
structure Observer where
  calls : BoundedMap Nat (Option Call) maxTracees
  activeCount : Int
  callCount : Nat
  events : List Event
  left : Option LoopExit

namespace Observer

/-- A process is gone. -/
def gone (o : Observer) (s : Stop) : Observer :=
  let active := o.activeCount - 1
  { o with
    calls := o.calls.erase s.pid
    activeCount := active
    events := o.events ++ [.gone s.pid s.status (o.calls.lookup s.pid).join active o.callCount]
    left := if active ≤ 0 then some .counted else none }

def forkEvent (o : Observer) (s : Stop) : Observer :=
  match s.eventMsg with
  | none => o
  | some newPid =>
      match o.calls.register newPid none with
      | none => o
      | some calls =>
          { o with
            calls := calls
            activeCount := o.activeCount + 1
            events := o.events ++ [.created newPid] }

def signalStop (o : Observer) (s : Stop) : Observer :=
  let deliver := if s.stopsig ≠ Stop.sigtrap then s.stopsig else 0
  { o with
    calls := (o.calls.register s.pid none).getD o.calls
    events := o.events ++ if deliver ≠ 0 then [.signalled s.pid deliver] else [] }

/-- A syscall-stop begins a call if the process is in none, and ends it otherwise. -/
def syscallStop (names : Int → String) (o : Observer) (s : Stop) : Observer :=
  match o.calls.register s.pid none with
  | none => o
  | some calls =>
      let o := { o with calls := calls }
      match s.regs, calls.lookup s.pid with
      | some regs, some none =>
          let c : Call := ⟨names (syscallNoOf regs), argsOf regs, s.now⟩
          { o with
            calls := calls.set s.pid (some c)
            callCount := o.callCount + 1
            events := o.events ++ [.entered s.tracee c] }
      | some regs, some (some c) =>
          { o with
            calls := calls.set s.pid none
            events := o.events ++ [.returned s.tracee c (returnValOf regs) s.now] }
      | _, _ => o

def report (follow : Bool) (names : Int → String) (o : Observer) (s : Stop) : Observer :=
  if s.isGone then o.gone s
  else if !wIfStopped s.status then o
  else if follow && s.isForkEvent then o.forkEvent s
  else if !s.isSyscallStop then o.signalStop s
  else o.syscallStop names s

def step (follow : Bool) (names : Int → String) (o : Observer) : Wait → Observer
  | .noChild => { o with left := some .noTracees }
  | .interrupted => o
  | .report s => o.report follow names s

def init (child : Nat) : Observer where
  calls := ((BoundedMap.empty maxTracees).register child none).getD (BoundedMap.empty maxTracees)
  activeCount := 1
  callCount := 0
  events := []
  left := none

/-- No process is in a call at the start. -/
theorem join_lookup_init (child pid : Nat) : ((init child).calls.lookup pid).join = none := by
  unfold init
  cases hr : (BoundedMap.empty maxTracees : BoundedMap Nat (Option Call) maxTracees).register child
      none with
  | none => rw [Option.getD_none, BoundedMap.lookup_empty, Option.join_none]
  | some calls =>
      rw [Option.getD_some, BoundedMap.lookup_of_register hr, BoundedMap.lookup_empty,
        BoundedMap.lookup_empty]
      split_ifs <;> rfl

def run (follow : Bool) (names : Int → String) (o : Observer) : List Wait → Observer
  | [] => o
  | w :: ws => if o.left.isSome then o else run follow names (o.step follow names w) ws

end Observer

/-- What there is to see in a run. -/
def observe (follow : Bool) (names : Int → String) (child : Nat) (ws : List Wait) : Observer :=
  (Observer.init child).run follow names ws

/-! ## Invariants of the observer -/

namespace Observer

/-- What a round can do to the observer, one change at a time. -/
structure Keeps (names : Int → String) (P : Observer → Prop) : Prop where
  track : ∀ {o : Observer} {pid calls}, P o → o.calls.register pid none = some calls →
    P { o with calls := calls }
  signal : ∀ {o : Observer} {pid sig}, P o → P { o with events := o.events ++ [.signalled pid sig] }
  create : ∀ {o : Observer} {pid}, P o →
    P { o with activeCount := o.activeCount + 1, events := o.events ++ [.created pid] }
  enter : ∀ {o : Observer} {s : Stop} {regs c}, P o → o.calls.lookup s.pid = some none →
    c = ⟨names (syscallNoOf regs), argsOf regs, s.now⟩ →
    P { o with
        calls := o.calls.set s.pid (some c)
        callCount := o.callCount + 1
        events := o.events ++ [.entered s.tracee c] }
  leave : ∀ {o : Observer} {s : Stop} {regs c}, P o → o.calls.lookup s.pid = some (some c) →
    P { o with
        calls := o.calls.set s.pid none
        events := o.events ++ [.returned s.tracee c (returnValOf regs) s.now] }
  gone : ∀ {o : Observer} {s : Stop}, P o → P (o.gone s)
  stop : ∀ {o : Observer}, P o → P { o with left := some .noTracees }

variable {names : Int → String} {P : Observer → Prop} {o : Observer}

theorem Keeps.report (h : Keeps names P) (ho : P o) (follow : Bool) (s : Stop) :
    P (o.report follow names s) := by
  unfold Observer.report
  split_ifs
  · exact h.gone ho
  · exact ho
  · unfold forkEvent
    split
    · exact ho
    · split
      · exact ho
      · exact h.create (h.track ho ‹_›)
  · have htrack : P { o with calls := (o.calls.register s.pid none).getD o.calls } := by
      cases hr : o.calls.register s.pid none with
      | none => exact ho
      | some calls => exact h.track ho hr
    unfold signalStop
    dsimp only
    generalize (if s.stopsig ≠ Stop.sigtrap then s.stopsig else 0) = deliver
    split_ifs
    · exact h.signal htrack
    · rw [List.append_nil]
      exact htrack
  · unfold syscallStop
    split
    · exact ho
    · have htrack := h.track ho ‹_›
      dsimp only
      split
      · exact h.enter htrack ‹_› rfl
      · exact h.leave htrack ‹_›
      · exact htrack

/-- What every change keeps, every run keeps. -/
theorem Keeps.run (h : Keeps names P) (ho : P o) (follow : Bool) (ws : List Wait) :
    P (o.run follow names ws) := by
  induction ws generalizing o with
  | nil => exact ho
  | cons w ws ih =>
      rw [Observer.run]
      split_ifs
      · exact ho
      · refine ih ?_
        cases w with
        | noChild => exact h.stop ho
        | interrupted => exact ho
        | report s => exact h.report ho follow s

end Observer

/-! ## Rendering -/

section Render

variable {τ : Type} (cfg : Config τ)

/-- The text of `timing_buf` for a call that ended at `now`. -/
def timingText (c : Call) (now : Timespec) : Text :=
  if cfg.opts.showTiming then cfg.timing (cfg.elapsed c.start now) else []

/-- The trace of an event. -/
def Event.chunks : Event → List Chunk
  | .entered t c =>
      if !syscallAllowed cfg.filter c.name || deferred c.name || cfg.opts.summaryMode then []
      else [⟨t.pid, entryCall cfg.host cfg.opts t c.name c.args⟩]
  | .returned t c ret now =>
      if !syscallAllowed cfg.filter c.name || cfg.opts.summaryMode then []
      else
        (if deferred c.name then
          [⟨t.pid, exitCall cfg.host cfg.opts t c.name c.args (.ofName c.name) ret⟩]
        else []) ++ [⟨t.pid, printRet cfg.host ret (timingText cfg c now)⟩]
  | .signalled pid sig => [⟨pid, signalLine cfg.host cfg.opts pid sig⟩]
  | .created _ | .gone .. => []

/-- The status messages of an event. -/
def Event.messages : Event → List Text
  | .created pid => [lit "[mini-strace] new child pid " ++ dec pid ++ lit "\n"]
  | .gone pid status _ active callCount =>
      goneMessages cfg (Stop.plain pid status) active callCount
  | .entered .. | .returned .. | .signalled .. => []

/-- The completed call of an event, for `-c`. -/
def Event.done : Event → List (Done τ)
  | .returned _ c ret now =>
      if syscallAllowed cfg.filter c.name then [⟨c.name, ret, cfg.elapsed c.start now⟩] else []
  | .entered .. | .signalled .. | .created _ | .gone .. => []

/-- The table of `-c`. -/
def tableOf [AddCommMonoid τ] (events : List Event) : List (SummaryEntry τ) :=
  if cfg.opts.summaryMode then rowsOf (events.flatMap (Event.done cfg)) else []

end Render

/-! ## The stops of a call -/

section Stops

variable {τ : Type} {cfg : Config τ}

theorem inCall_zeroed : InCall cfg none .zeroed := rfl

/-- What an entry-stop prints is the rendering of the call it begins. -/
theorem entryTexts_chunks (s : Stop) (regs : Regs) :
    (entryTexts cfg s regs).map (Chunk.mk s.pid) =
      Event.chunks cfg (.entered s.tracee (callOf cfg s regs)) := by
  unfold entryTexts Event.chunks callOf deferred
  dsimp only
  cases syscallAllowed cfg.filter (cfg.syscallName (syscallNoOf regs)) <;>
    cases (Pending.ofName (cfg.syscallName (syscallNoOf regs))).any <;>
    cases cfg.opts.summaryMode <;> rfl

/-- What an exit-stop prints is the rendering of the call it ends. -/
theorem exitTexts_chunks (s s₀ : Stop) (regs regs₀ : Regs) (ts : TraceeState) :
    (exitTexts cfg s regs (entryState cfg s₀ regs₀ ts)).map (Chunk.mk s.pid) =
      Event.chunks cfg (.returned s.tracee (callOf cfg s₀ regs₀) (returnValOf regs) s.now) := by
  cases hc : cfg.opts.summaryMode with
  | true =>
      unfold exitTexts
      simp only [hc, Event.chunks, Bool.or_true, if_true, Bool.not_true, Bool.and_false,
        Bool.false_eq_true, if_false, List.append_nil, ite_self, List.map_nil]
  | false =>
      rw [exitTexts_entryState hc]
      unfold callAtExit
      simp only [Event.chunks, hc, Bool.or_false, timingText]
      split_ifs <;> rfl

end Stops

/-! ## The tracer follows the observer -/

section Refinement

variable {τ : Type} [AddCommMonoid τ]

/-- The tracer has shown what the observer has seen. -/
structure Follows (cfg : Config τ) (st : Tracer τ) (o : Observer) : Prop where
  calls : st.tracees.Represents (fun ts cur => InCall cfg cur ts) o.calls
  activeCount : st.activeCount = o.activeCount
  callCount : st.callCount = o.callCount
  left : st.left = o.left
  trace : st.trace = o.events.flatMap (Event.chunks cfg)
  status : st.status = o.events.flatMap (Event.messages cfg)
  summary : st.summary = tableOf cfg o.events

variable {cfg : Config τ} {st : Tracer τ} {o : Observer}

theorem follows_init (child : Nat) : Follows cfg (.init child) (.init child) where
  calls := by
    have hadd := SlotTable.Represents.add (r := fun ts cur => InCall cfg cur ts)
      (.empty 0 TraceeState.zeroed) child (n := maxTracees) inCall_zeroed
    simp only [Tracer.init, Observer.init, Tracees.addTracee]
    generalize SlotTable.add _ child _ = x, BoundedMap.register _ child _ = y at hadd
    cases hadd with
    | none => exact .empty 0 _
    | some h => exact h
  activeCount := rfl
  callCount := rfl
  left := rfl
  trace := rfl
  status := rfl
  summary := by simp [tableOf, rowsOf, distinctNames, Tracer.init, Observer.init]

theorem Follows.gone (h : Follows cfg st o) (s : Stop) :
    Follows cfg (handleGone cfg st s) (o.gone s) where
  calls := h.calls.remove s.pid
  activeCount := by simp only [handleGone, Observer.gone, h.activeCount]
  callCount := h.callCount
  left := by simp only [handleGone, Observer.gone, h.activeCount]
  trace := by simp [handleGone, Observer.gone, h.trace, Event.chunks]
  status := by
    simp only [handleGone, Observer.gone, h.status, h.activeCount, h.callCount, List.flatMap_append,
      List.flatMap_singleton, Event.messages]
    rfl
  summary := by
    simp only [handleGone, Observer.gone, h.summary, tableOf, List.flatMap_append,
      List.flatMap_singleton, Event.done, List.append_nil]

theorem Follows.forkEvent (h : Follows cfg st o) (s : Stop) :
    Follows cfg (handleForkEvent st s) (o.forkEvent s) := by
  unfold handleForkEvent Observer.forkEvent
  cases s.eventMsg with
  | none => exact h
  | some newPid =>
      have hadd := h.calls.add newPid (inCall_zeroed : InCall cfg none .zeroed)
      simp only [Tracees.addTracee]
      generalize st.tracees.add newPid _ = x, o.calls.register newPid _ = y at hadd
      cases hadd with
      | none => exact h
      | some hcalls =>
          refine ⟨hcalls, ?_, h.callCount, h.left, ?_, ?_, ?_⟩
          · simp only [h.activeCount]
          · simp [h.trace, Event.chunks]
          · simp [h.status, Event.messages]
          · simp [h.summary, tableOf, Event.done]

theorem Follows.signalStop (h : Follows cfg st o) (s : Stop) :
    Follows cfg (handleSignalStop cfg st s) (o.signalStop s) where
  calls := by
    have hadd := h.calls.add s.pid (inCall_zeroed : InCall cfg none .zeroed)
    simp only [handleSignalStop, Observer.signalStop, Tracees.addTracee]
    generalize st.tracees.add s.pid _ = x, o.calls.register s.pid _ = y at hadd
    cases hadd with
    | none => exact h.calls
    | some hcalls => exact hcalls
  activeCount := h.activeCount
  callCount := h.callCount
  left := h.left
  trace := by
    simp only [handleSignalStop, Observer.signalStop, h.trace, List.flatMap_append]
    split_ifs <;> simp [Event.chunks]
  status := by
    simp only [handleSignalStop, Observer.signalStop, h.status, List.flatMap_append]
    split_ifs <;> simp [Event.messages]
  summary := by
    simp only [handleSignalStop, Observer.signalStop, h.summary, tableOf, List.flatMap_append]
    split_ifs <;> simp [Event.done]

/-- What an exit-stop adds to the table is the call it ends. -/
theorem exitSummary_table (s s₀ : Stop) (regs regs₀ : Regs) (ts : TraceeState)
    (events : List Event) :
    exitSummary cfg s regs (entryState cfg s₀ regs₀ ts) (tableOf cfg events) =
      tableOf cfg (events ++
        [.returned s.tracee (callOf cfg s₀ regs₀) (returnValOf regs) s.now]) := by
  unfold tableOf
  cases hc : cfg.opts.summaryMode with
  | false => simp [exitSummary, hc]
  | true =>
      rw [exitSummary_entryState hc]
      simp only [if_true, List.flatMap_append, List.flatMap_singleton, Event.done]
      split_ifs
      · exact recordCall_rowsOf _ ⟨_, _, _⟩
      · rw [List.append_nil]

theorem Follows.entry (h : Follows cfg st o) (s : Stop) (regs : Regs) {ts : TraceeState}
    (hts : InCall cfg none ts) :
    Follows cfg (handleRegs cfg st s regs ts)
      { o with
        calls := o.calls.set s.pid (some (callOf cfg s regs))
        callCount := o.callCount + 1
        events := o.events ++ [.entered s.tracee (callOf cfg s regs)] } := by
  have hin : ts.inSyscall = false := hts
  simp only [handleRegs, hin, Bool.not_false, if_true]
  refine ⟨h.calls.modify s.pid fun ts₀ _ => ⟨s, regs, ts₀, rfl, rfl⟩, h.activeCount, ?_, h.left, ?_,
    ?_, ?_⟩
  · simp only [h.callCount]
  · simp only [h.trace, List.flatMap_append, List.flatMap_singleton, entryTexts_chunks]
  · simp [h.status, Event.messages]
  · simp [h.summary, tableOf, Event.done]

theorem Follows.exit (h : Follows cfg st o) (s : Stop) (regs : Regs) {ts : TraceeState} {c : Call}
    (hts : InCall cfg (some c) ts) :
    Follows cfg (handleRegs cfg st s regs ts)
      { o with
        calls := o.calls.set s.pid none
        events := o.events ++ [.returned s.tracee c (returnValOf regs) s.now] } := by
  obtain ⟨s₀, regs₀, ts₀, rfl, rfl⟩ := hts
  simp only [handleRegs, entryState_inSyscall, Bool.not_true, Bool.false_eq_true, if_false]
  refine ⟨h.calls.modify s.pid fun ts _ => exitState_inSyscall ts, h.activeCount, h.callCount,
    h.left, ?_, ?_, ?_⟩
  · simp only [h.trace, List.flatMap_append, List.flatMap_singleton, exitTexts_chunks]
  · simp [h.status, Event.messages]
  · simp only [h.summary, exitSummary_table]

theorem Follows.syscallStop (h : Follows cfg st o) (s : Stop) :
    Follows cfg (handleSyscallStop cfg st s) (o.syscallStop cfg.syscallName s) := by
  have hadd := h.calls.add s.pid (inCall_zeroed : InCall cfg none .zeroed)
  simp only [handleSyscallStop, Observer.syscallStop, Tracees.addTracee]
  generalize st.tracees.add s.pid _ = x, o.calls.register s.pid _ = y at hadd
  cases hadd with
  | none => exact h
  | @some t calls hcalls =>
      have h' : Follows cfg { st with tracees := t } { o with calls := calls } :=
        ⟨hcalls, h.activeCount, h.callCount, h.left, h.trace, h.status, h.summary⟩
      cases s.regs with
      | none => exact h'
      | some regs =>
          dsimp only
          rcases hcalls.cases s.pid with ⟨hf, hl⟩ | ⟨ts, cur, hf, hl, hts⟩ <;> rw [hf, hl]
          · exact h'
          · cases cur with
            | none => exact h'.entry s regs hts
            | some c => exact h'.exit s regs hts

/-- Every report the tracer handles, the observer sees. -/
theorem Follows.report (h : Follows cfg st o) (s : Stop) :
    Follows cfg (handleReport cfg st s) (o.report cfg.opts.followForks cfg.syscallName s) := by
  unfold handleReport Observer.report
  split_ifs
  · exact h.gone s
  · exact h
  · exact h.forkEvent s
  · exact h.signalStop s
  · exact h.syscallStop s

theorem Follows.step (h : Follows cfg st o) (w : Wait) :
    Follows cfg (loopBody cfg st w) (o.step cfg.opts.followForks cfg.syscallName w) := by
  cases w with
  | noChild => exact ⟨h.calls, h.activeCount, h.callCount, rfl, h.trace, h.status, h.summary⟩
  | interrupted => exact h
  | report s => exact h.report s

/-- The whole loop. -/
theorem Follows.run (h : Follows cfg st o) (ws : List Wait) :
    Follows cfg (runLoop cfg st ws) (o.run cfg.opts.followForks cfg.syscallName ws) := by
  induction ws generalizing st o with
  | nil => exact h
  | cons w ws ih =>
      rw [runLoop, Observer.run, h.left]
      split_ifs
      · exact h
      · exact ih (h.step w)

theorem follows_runTracer (cfg : Config τ) (child : Nat) (ws : List Wait) :
    Follows cfg (runTracer cfg child ws) (observe cfg.opts.followForks cfg.syscallName child ws) :=
  (follows_init child).run ws

end Refinement

end MiniStrace
