/-
  Tracer/Accounting.lean --- what becomes of every call, and of every process.

  CALLS.  `call_count`, the number in the last message, goes up at entry-stops.  A call that
  was counted has its result in the trace, or its process ended in the middle of it, or it
  is still in progress; this is an equation that holds after every round, whatever `waitpid`
  returned.

  PROCESSES.  Under `-f` every fork event and every end of a process is one message, in the
  order of the reports.  When the loop is left through the count, there is one message more
  for an end than for a creation, and the total follows.

  WAITING.  The count never exceeds the number of processes that are left.  So the tracer
  asks for a report only while there is a process to report on, also in the runs in which it
  loses track of one.
-/
import MiniStrace.Tracer.Count
import MiniStrace.Tracer.Display

set_option autoImplicit false

namespace MiniStrace

open CLib

/-! ## Calls -/

/-- A call has returned. -/
def Event.ends : Event → Bool
  | .returned .. => true
  | .entered .. | .signalled .. | .created _ | .gone .. => false

/-- A process is gone in the middle of a call. -/
def Event.cutsOff : Event → Bool
  | .gone _ _ running _ _ => running.isSome
  | .entered .. | .returned .. | .signalled .. | .created _ => false

namespace Observer

variable {o : Observer}

/-- The processes that are in a call. -/
def running (o : Observer) : Finset Nat :=
  o.calls.keys.filter fun pid => (o.calls.lookup pid).join.isSome

theorem mem_running {pid : Nat} : pid ∈ o.running ↔ (o.calls.lookup pid).join.isSome := by
  rw [running, Finset.mem_filter, BoundedMap.mem_keys_iff, and_iff_right_iff_imp]
  intro h
  cases hl : o.calls.lookup pid with
  | none => simp [hl] at h
  | some cur => rfl

/-- Each call that was counted has returned, was cut off, or is in progress. -/
def Balanced (o : Observer) : Prop :=
  o.callCount = o.events.countP Event.ends + o.events.countP Event.cutsOff + o.running.card

/-- Registering a process starts no call. -/
theorem running_register {pid : Nat} {calls : BoundedMap Nat (Option Call) maxTracees}
    (hr : o.calls.register pid none = some calls) : running { o with calls := calls } = o.running := by
  ext q
  rw [mem_running, mem_running, BoundedMap.lookup_of_register hr]
  split_ifs with hq
  · subst hq
    cases o.calls.lookup q <;> rfl
  · rfl

theorem running_enter {pid : Nat} (h : o.calls.lookup pid = some none) (c : Call) :
    running { o with calls := o.calls.set pid (some c) } = insert pid o.running := by
  ext q
  rw [Finset.mem_insert, mem_running, mem_running, BoundedMap.lookup_set, h]
  by_cases hq : q = pid
  · simp [hq]
  · simp [hq]

theorem running_leave (pid : Nat) :
    running { o with calls := o.calls.set pid none } = o.running.erase pid := by
  ext q
  rw [Finset.mem_erase, mem_running, mem_running, BoundedMap.lookup_set]
  by_cases hq : q = pid
  · cases o.calls.lookup pid <;> simp [hq]
  · simp [hq]

theorem running_gone (s : Stop) : (o.gone s).running = o.running.erase s.pid := by
  ext q
  rw [Finset.mem_erase, mem_running, mem_running, gone, BoundedMap.lookup_erase]
  by_cases hq : q = s.pid
  · simp [hq]
  · simp [hq]

theorem keeps_balanced (names : Int → String) : Keeps names Balanced where
  track := by
    intro o pid calls h hr
    unfold Balanced at h ⊢
    rw [running_register hr]
    exact h
  signal := by
    intro o pid sig h
    unfold Balanced at h ⊢
    rw [h, List.countP_append, List.countP_append]
    rfl
  create := by
    intro o pid h
    unfold Balanced at h ⊢
    rw [h, List.countP_append, List.countP_append]
    rfl
  enter := by
    intro o s regs c h hl _
    have hnew : s.pid ∉ o.running := by simp [mem_running, hl]
    unfold Balanced at h ⊢
    have hrun := running_enter hl c
    unfold running at hrun h hnew ⊢
    simp only [hrun, Finset.card_insert_of_notMem hnew, List.countP_append, List.countP_singleton,
      Event.ends, Event.cutsOff, Bool.false_eq_true, if_false]
    omega
  leave := by
    intro o s regs c h hl
    have hin : s.pid ∈ o.running := by simp [mem_running, hl]
    have hpos := Finset.card_pos.mpr ⟨_, hin⟩
    unfold Balanced at h ⊢
    have hrun := running_leave (o := o) s.pid
    unfold running at hrun h hin hpos ⊢
    simp only [hrun, Finset.card_erase_of_mem hin, List.countP_append, List.countP_singleton,
      Event.ends, Event.cutsOff, Bool.false_eq_true, if_false, if_true]
    omega
  gone := by
    intro o s h
    have hcut : ∀ active n, (Event.gone s.pid s.status (o.calls.lookup s.pid).join active n).cutsOff =
        decide (s.pid ∈ o.running) := by
      intro active n
      simp [Event.cutsOff, mem_running]
    unfold Balanced at h ⊢
    rw [running_gone]
    simp only [gone, List.countP_append, List.countP_singleton, Event.ends, hcut,
      Bool.false_eq_true, if_false, decide_eq_true_eq]
    by_cases hin : s.pid ∈ o.running
    · have hpos := Finset.card_pos.mpr ⟨_, hin⟩
      rw [Finset.card_erase_of_mem hin, if_pos hin]
      omega
    · rw [Finset.erase_eq_of_notMem hin, if_neg hin]
      omega
  stop := fun h => h

theorem balanced_init (child : Nat) : (Observer.init child).Balanced := by
  have hnone : (Observer.init child).running = ∅ := by
    ext q
    rw [mem_running, join_lookup_init]
    simp
  rw [Balanced, hnone]
  rfl

end Observer

section Calls

variable {τ : Type}

/-- The result groups of a trace without `-e` and `-c` are the calls that have returned. -/
theorem countP_isResult_listing {cfg : Config τ} (hnames : cfg.PlainNames) {events : List Event}
    (he : ∀ e ∈ events, e.Named cfg.syscallName) :
    (events.flatMap (Event.chunks cfg.unfiltered.listing)).countP Chunk.isResult =
      events.countP Event.ends := by
  have hcount := countP_results_events (show cfg.unfiltered.PlainNames from hnames) he
  rw [hcount.1]
  clear he hcount
  induction events with
  | nil => rfl
  | cons e events ih =>
      have hone : (e.done cfg.unfiltered.counting).length = if e.ends then 1 else 0 := by
        cases e <;> rfl
      rw [List.flatMap_cons, List.length_append, ih, hone, List.countP_cons, Nat.add_comm]

variable [AddCommMonoid τ]

/-- The calls the table has in progress. -/
def Tracer.inFlight (st : Tracer τ) : Nat :=
  st.tracees.keys.countP fun pid => (st.tracees.stateOf pid).inSyscall

theorem Follows.inFlight_eq {cfg : Config τ} {st : Tracer τ} {o : Observer} (h : Follows cfg st o) :
    st.inFlight = o.running.card := by
  have hset : (st.tracees.keys.filter fun pid => (st.tracees.stateOf pid).inSyscall).toFinset =
      o.running := by
    ext pid
    rw [List.mem_toFinset, List.mem_filter, Observer.mem_running, SlotTable.mem_keys_iff,
      Tracees.stateOf]
    rcases h.calls.cases pid with ⟨hf, hl⟩ | ⟨ts, cur, hf, hl, hts⟩ <;> rw [hf, hl]
    · simp
    · simpa using (Bool.eq_iff_iff.mp hts.inSyscall_eq)
  rw [Tracer.inFlight, List.countP_eq_length_filter, ← hset,
    List.toFinset_card_of_nodup (st.tracees.nodup_keys.filter _)]

/-- The account of the calls, where no name is taken for a result. -/
theorem accounted_of_plainNames (cfg : Config τ) (hnames : cfg.PlainNames) (child : Nat)
    (ws : List Wait) :
    (runTracer cfg child ws).callCount =
      (runTracer cfg.unfiltered.listing child ws).trace.countP Chunk.isResult +
        (observe cfg.opts.followForks cfg.syscallName child ws).events.countP Event.cutsOff +
        (runTracer cfg child ws).inFlight := by
  have h := follows_runTracer cfg child ws
  have hl := follows_runTracer cfg.unfiltered.listing child ws
  have hbal : (observe cfg.opts.followForks cfg.syscallName child ws).Balanced :=
    (Observer.keeps_balanced cfg.syscallName).run (Observer.balanced_init child) _ ws
  have hsame : observe cfg.unfiltered.listing.opts.followForks cfg.unfiltered.listing.syscallName
      child ws = observe cfg.opts.followForks cfg.syscallName child ws := rfl
  rw [h.callCount, hbal, h.inFlight_eq, hl.trace, hsame, countP_isResult_listing hnames
    (observe_named cfg.opts.followForks cfg.syscallName child ws)]

/-- With the generated names, after every round of every run, each call that was counted has
its result in the trace that is printed without `-e` and `-c`, or its process was gone in the
middle of it, or it is in progress in some slot; and none is counted twice. -/
theorem calls_accounted_for (cfg : Config τ) (header : List (List Char))
    (hgen : cfg.syscallName = (generate header).syscallName) (child : Nat) (ws : List Wait) :
    (runTracer cfg child ws).callCount =
      (runTracer cfg.unfiltered.listing child ws).trace.countP Chunk.isResult +
        (observe cfg.opts.followForks cfg.syscallName child ws).events.countP Event.cutsOff +
        (runTracer cfg child ws).inFlight :=
  accounted_of_plainNames cfg (plainNames_generated hgen) child ws

end Calls

/-- Process 1 is gone in its second `getpid`, and process 2 is still in its first. -/
theorem calls_accounted_for_getpid :
    let cfg : Config Nat := { getpidConfig with opts := followOptions }
    let ws : List Wait := [.report (getpidStop 1), .report (getpidStop 1), .report (Stop.fork 1 2),
      .report (getpidStop 2), .report (getpidStop 1), .report (Stop.plain 1 0)]
    (runTracer cfg 1 ws).callCount = 3 ∧
      (runTracer cfg.unfiltered.listing 1 ws).trace.countP Chunk.isResult +
        (observe true cfg.syscallName 1 ws).events.countP Event.cutsOff +
        (runTracer cfg 1 ws).inFlight = 3 := by
  intro cfg ws
  have hcount : (runTracer cfg 1 ws).callCount = 3 := by decide +kernel
  exact ⟨hcount, (calls_accounted_for cfg getpidHeader rfl 1 ws).symm.trans hcount⟩

/-! ## Processes -/

/-- The message for a new process. -/
def createdLine (pid : Nat) : Text := lit "[mini-strace] new child pid " ++ dec pid ++ lit "\n"

/-- The message for the end of a process under `-f`. -/
def goneLine (s : Stop) : Text :=
  if wIfExited s.status then
    lit "\n[mini-strace] pid " ++ dec s.pid ++ lit " exited, code " ++
      dec (wExitStatus s.status) ++ lit "\n"
  else
    lit "\n[mini-strace] pid " ++ dec s.pid ++ lit " killed by signal " ++
      dec (wTermSig s.status) ++ lit "\n"

/-- The last message under `-f`. -/
def totalLine (calls : Nat) : Text :=
  lit "[mini-strace] all tracees exited, total syscalls: " ++ dec calls ++ lit "\n"

/-- The message a report owes. -/
def Report.messages (r : Report) : List Text :=
  match r.kind with
  | .forkEvent => (r.stop.eventMsg.map createdLine).toList
  | .gone => [goneLine r.stop]
  | .entry | .exit | .signal => []

/-- How many reports of a kind there were. -/
def countKind (kind : Kind) (log : List Report) : Nat := log.countP (·.kind = kind)

@[simp] theorem countKind_concat (kind : Kind) (log : List Report) (r : Report) :
    countKind kind (log ++ [r]) = countKind kind log + if r.kind = kind then 1 else 0 := by
  simp [countKind, List.countP_append, List.countP_singleton]

section Processes

variable {τ : Type}

/-- Registers are readable, there are never more processes to track than slots, and no
process is gone before its parent's event. -/
def RunOk (cfg : Config τ) (root : Nat) (sys : System τ) (r : Report) : Prop :=
  CapacityOk cfg root sys r ∧ sys.kernel.Announced r

theorem RunOk.counted {cfg : Config τ} (hf : cfg.opts.followForks = true) {root : Nat}
    {sys : System τ} {r : Report} {k : Kernel} (h : RunOk cfg root sys r)
    (hi : TrackInv cfg root sys) (hk : Kernel.Step sys.kernel (some r) k) : CountedOk sys r := by
  refine ⟨fun hkind c hmsg => ?_, h.2⟩
  have hslot := hi.findsSlot hk h.1
  have hreg : r.stop.registers cfg = some c := by
    cases hk with
    | forkEvent _ hs he _ => exact (registers_of_forkEvent hs hf he).trans hmsg
    | signal | gone => exact absurd hkind (by simp)
    | @syscall s => exact absurd hkind (by cases sys.kernel.inCall s.pid <;> simp)
  by_contra hno
  push Not at hno
  exact hslot c hreg (SlotTable.add_eq_none_iff.mpr
    ⟨hno.1, le_antisymm (SlotTable.length_keys_le _) hno.2⟩)

/-- The messages and the counters against the reports of the run. -/
structure StatusInv (cfg : Config τ) (root : Nat) (sys : System τ) : Prop where
  track : TrackInv cfg root sys
  count : CountInv sys
  calls : sys.tracer.callCount = countKind .entry sys.log
  status : sys.tracer.status = sys.log.flatMap Report.messages ++
    if sys.tracer.left = some .counted then [totalLine sys.tracer.callCount] else []
  balance : countKind .gone sys.log + sys.kernel.live.length =
    countKind .forkEvent sys.log + sys.kernel.pending.length + 1

theorem statusInv_init (cfg : Config τ) (root : Nat) : StatusInv cfg root (.init root) where
  track := trackInv_init root
  count := countInv_init root
  calls := rfl
  status := rfl
  balance := rfl

variable [Zero τ] [Add τ] {cfg : Config τ}

theorem statusInv_report (hf : cfg.opts.followForks = true) {root : Nat} {sys : System τ}
    (hi : StatusInv cfg root sys) (hleft : sys.tracer.left = none) {r : Report} {k : Kernel}
    (hk : Kernel.Step sys.kernel (some r) k) (hok : RunOk cfg root sys r) :
    StatusInv cfg root ⟨k, loopBody cfg sys.tracer (.report r.stop), sys.log ++ [r]⟩ := by
  have htrack := trackInv_report hi.track hk hok.1
  have hcount := countInv_report hf hi.count hleft hk (hok.counted hf hi.track hk)
  have hslot := hi.track.findsSlot hk hok.1
  have htoggle := hi.track.toggle hk
  have hstatus : sys.tracer.status = sys.log.flatMap Report.messages := by
    rw [hi.status, hleft, if_neg (by simp), List.append_nil]
  have hbal := hi.balance
  cases hk with
  | @forkEvent s c hmem hs he hmsg =>
      have hpos := List.length_pos_of_mem hmem
      obtain ⟨t, ht⟩ := Option.ne_none_iff_exists'.mp
        (hslot c ((registers_of_forkEvent hs hf he).trans hmsg))
      refine ⟨htrack, hcount, ?_, ?_, ?_⟩ <;>
        simp only [loopBody, handleReport_forkEvent cfg hs he, hf, if_true, handleForkEvent, hmsg, ht]
      · simpa using hi.calls
      · simp [hstatus, hleft, Report.messages, hmsg, createdLine]
      · simp only [countKind_concat, List.length_erase_of_mem hmem, reduceCtorEq, if_false, if_true]
        omega
  | @signal s hmem hs he hc =>
      refine ⟨htrack, hcount, ?_, ?_, ?_⟩ <;>
        simp only [loopBody, handleReport_signal cfg hs he hc, handleSignalStop]
      · simpa using hi.calls
      · simp [hstatus, hleft, Report.messages]
      · simpa using hbal
  | @syscall s hmem hs hc =>
      obtain ⟨regs, hr⟩ := Option.isSome_iff_exists.mp
        (hok.1.1 (by cases sys.kernel.inCall s.pid <;> simp))
      obtain ⟨t, ht⟩ := Option.ne_none_iff_exists'.mp
        (hslot s.pid (registers_of_stopped cfg hs (by simp [not_isForkEvent hc])))
      refine ⟨htrack, hcount, ?_, ?_, ?_⟩ <;>
        simp only [loopBody, handleReport_syscall cfg hs hc, handleSyscallStop_eq cfg ht hr,
          handleRegs]
      · have hphase := hi.track.phase s.pid
        cases hin : sys.kernel.inCall s.pid <;> rw [hin] at hphase <;>
          simp [hphase, hi.calls]
      · have hphase := hi.track.phase s.pid
        cases hin : sys.kernel.inCall s.pid <;> rw [hin] at hphase <;>
          simp [hphase, hstatus, hleft, Report.messages]
      · cases sys.kernel.inCall s.pid <;> simpa using hbal
  | @gone s hmem hparent hgone =>
      have hpos := List.length_pos_of_mem hmem
      refine ⟨htrack, hcount, ?_, ?_, ?_⟩ <;>
        simp only [loopBody, handleReport_gone cfg hgone, handleGone]
      · simpa using hi.calls
      · simp only [hstatus, goneMessages, hf, Bool.not_true, Bool.false_eq_true, if_false,
          List.flatMap_append, List.flatMap_singleton, Report.messages, List.append_assoc]
        split_ifs <;> simp_all [goneLine, totalLine]
      · simp only [countKind_concat, List.length_erase_of_mem hmem, reduceCtorEq, if_false, if_true]
        omega

theorem statusInv_step (hf : cfg.opts.followForks = true) (root : Nat) (sys : System τ)
    (r : Option Report) (sys' : System τ) (hi : StatusInv cfg root sys)
    (hs : System.Step cfg sys r sys') (hok : ∀ q, r = some q → RunOk cfg root sys q) :
    StatusInv cfg root sys' := by
  have hcount := fun h => countInv_step hf sys r sys' hi.count hs h
  cases r with
  | some q =>
      cases hs with
      | report hleft hk => exact statusInv_report hf hi hleft hk (hok _ rfl)
  | none =>
      obtain ⟨htrack, -⟩ := trackInv_quiet hi.track hs
      have hcount' := hcount fun q hq => absurd hq (by simp)
      cases hs with
      | silent hk =>
          cases hk with
          | create hp hc =>
              refine ⟨htrack, hcount', hi.calls, hi.status, ?_⟩
              have hbal := hi.balance
              simp only [List.length_append, List.length_singleton]
              omega
      | interrupted hleft => exact hi
      | noChild hleft hlive =>
          refine ⟨htrack, hcount', hi.calls, ?_, hi.balance⟩
          rw [loopBody, hi.status, hleft]
          simp

/-- When the loop is left through the count under `-f`, the messages are one for each fork
event and one for each end, in the order of the reports, and the total of the entry-stops
reported; every process that was created has ended, and there was one end more than there
were creations. -/
theorem status_tells_every_end (cfg : Config τ) (hf : cfg.opts.followForks = true) (root : Nat)
    (sys : System τ) (h : System.Reachable cfg (RunOk cfg root) root sys)
    (hleft : sys.tracer.left = some .counted) :
    sys.tracer.status =
        sys.log.flatMap Report.messages ++ [totalLine (countKind .entry sys.log)] ∧
      sys.kernel.live = [] ∧
      countKind .gone sys.log = countKind .forkEvent sys.log + 1 := by
  have hi : StatusInv cfg root sys := h.induct (statusInv_init cfg root) (statusInv_step hf root)
  have hlive := hi.count.ended hleft
  have hpending : sys.kernel.pending = [] := by
    refine List.eq_nil_iff_forall_not_mem.mpr fun e he => ?_
    have hold := hi.count.ordered.older e.1 e.2 he
    rw [hlive] at hold
    exact absurd hold (by simp)
  have hbal := hi.balance
  rw [hlive, hpending] at hbal
  refine ⟨?_, hlive, by simpa using hbal⟩
  rw [hi.status, if_pos hleft, hi.calls]

end Processes

/-- Process 1 creates process 2 and both end. -/
theorem status_of_two :
    ∃ sys, System.Reachable (Config.plain followOptions) (RunOk (Config.plain followOptions) 1) 1
        sys ∧ sys.tracer.left = some .counted ∧
      sys.tracer.status = [createdLine 2, goneLine (Stop.plain 2 0), goneLine (Stop.plain 1 0),
        totalLine 0] := by
  have h₀ : System.Reachable (Config.plain followOptions) (RunOk (Config.plain followOptions) 1) 1
      (.init 1) := .refl
  have h₁ := h₀.create (p := 1) (c := 2) (by decide) (by decide)
  have h₂ := h₁.report (r := ⟨Stop.fork 1 2, .forkEvent⟩) rfl
    (.forkEvent (c := 2) (by decide) (by decide) (by decide) rfl)
    ⟨⟨fun h => absurd h (by decide), by decide⟩, fun h => absurd h (by decide)⟩
  have h₃ := h₂.report (r := ⟨Stop.plain 2 0, .gone⟩) rfl
    (.gone (by decide) (fun _ => List.not_mem_nil) (by decide))
    ⟨⟨fun h => absurd h (by decide), by decide⟩, fun _ _ => List.not_mem_nil⟩
  have h₄ := h₃.report (r := ⟨Stop.plain 1 0, .gone⟩) rfl
    (.gone (by decide) (fun _ => List.not_mem_nil) (by decide))
    ⟨⟨fun h => absurd h (by decide), by decide⟩, fun _ _ => List.not_mem_nil⟩
  exact ⟨_, h₄, rfl, (status_tells_every_end _ rfl 1 _ h₄ rfl).1⟩

/-! ## Waiting -/

section Waiting

variable {τ : Type}

/-- While the loop runs, the count is positive and within the processes that are left, those
not counted whose event is still to come. -/
structure WaitInv (sys : System τ) : Prop where
  positive : sys.tracer.left = none → 0 < sys.tracer.activeCount
  bound : sys.tracer.left = none →
    sys.tracer.activeCount ≤ sys.kernel.live.length - sys.kernel.pending.length
  reported : sys.tracer.left ≠ some .noTracees

theorem waitInv_init (root : Nat) : WaitInv (System.init root : System τ) where
  positive := fun _ => Int.one_pos
  bound := fun _ => le_refl 1
  reported := by simp [System.init, Tracer.init]

theorem WaitInv.live_ne_nil {sys : System τ} (hi : WaitInv sys) (hleft : sys.tracer.left = none) :
    sys.kernel.live ≠ [] := by
  intro hlive
  have hpos := hi.positive hleft
  have hbound := hi.bound hleft
  rw [hlive, List.length_nil] at hbound
  omega

/-- A fork event adds one to the count, or nothing if it finds no slot. -/
theorem handleForkEvent_bound (st : Tracer τ) (s : Stop) :
    (handleForkEvent st s).left = st.left ∧
      st.activeCount ≤ (handleForkEvent st s).activeCount ∧
      (handleForkEvent st s).activeCount ≤ st.activeCount + 1 := by
  unfold handleForkEvent
  split
  · exact ⟨rfl, le_refl _, by omega⟩
  · split
    · exact ⟨rfl, le_refl _, by omega⟩
    · exact ⟨rfl, by simp, le_refl _⟩

variable [Zero τ] [Add τ] {cfg : Config τ}

theorem waitInv_report {sys : System τ} (hi : WaitInv sys) (hleft : sys.tracer.left = none)
    {r : Report} {k : Kernel} (hk : Kernel.Step sys.kernel (some r) k) :
    WaitInv ⟨k, loopBody cfg sys.tracer (.report r.stop), sys.log ++ [r]⟩ := by
  have hpos := hi.positive hleft
  have hbound := hi.bound hleft
  -- a stop that leaves the processes and the count alone
  have hsame : ∀ {k : Kernel} {st : Tracer τ} {log : List Report},
      st.activeCount = sys.tracer.activeCount ∧ st.left = sys.tracer.left →
      sys.kernel.live.length - sys.kernel.pending.length ≤
        (k.live.length - k.pending.length : Int) → WaitInv ⟨k, st, log⟩ := by
    intro k st log hst hle
    refine ⟨fun _ => ?_, fun _ => ?_, ?_⟩
    · exact hst.1 ▸ hpos
    · exact hst.1 ▸ hbound.trans hle
    · exact hst.2 ▸ hi.reported
  cases hk with
  | @forkEvent s c hmem hs he hmsg =>
      have herase :
          (sys.kernel.pending.erase (s.pid, c)).length + 1 = sys.kernel.pending.length := by
        rw [List.length_erase_of_mem hmem]
        have hlen := List.length_pos_of_mem hmem
        omega
      rw [loopBody, handleReport_forkEvent cfg hs he]
      split
      · obtain ⟨hl, hge, hle⟩ := handleForkEvent_bound sys.tracer s
        refine ⟨fun _ => ?_, fun _ => ?_, hl ▸ hi.reported⟩ <;> dsimp only <;> omega
      · exact hsame ⟨rfl, rfl⟩ (by dsimp only; omega)
  | signal hmem hs he hc =>
      rw [loopBody, handleReport_signal cfg hs he hc]
      exact hsame ⟨rfl, rfl⟩ (le_refl _)
  | @syscall s hmem hs hc =>
      rw [loopBody, handleReport_syscall cfg hs hc]
      exact hsame (handleSyscallStop_count cfg sys.tracer s) (le_refl _)
  | @gone s hmem hparent hgone =>
      have herase : (sys.kernel.live.erase s.pid).length + 1 = sys.kernel.live.length := by
        rw [List.length_erase_of_mem hmem]
        have hlen := List.length_pos_of_mem hmem
        omega
      rw [loopBody, handleReport_gone cfg hgone, handleGone]
      refine ⟨fun h => ?_, fun _ => ?_, ?_⟩ <;> dsimp only at *
      · split_ifs at h
        omega
      · omega
      · split_ifs <;> simp

theorem waitInv_step (sys : System τ) (r : Option Report) (sys' : System τ) (hi : WaitInv sys)
    (hs : System.Step cfg sys r sys') : WaitInv sys' := by
  cases hs with
  | silent hk =>
      cases hk with
      | create hp hc =>
          refine ⟨hi.positive, fun hleft => ?_, hi.reported⟩
          have hbound := hi.bound hleft
          simp only [List.length_append, List.length_singleton]
          omega
  | report hleft hk => exact waitInv_report hi hleft hk
  | interrupted hleft => exact hi
  | noChild hleft hlive => exact absurd hlive (hi.live_ne_nil hleft)

/-- In every run, with `-f` or without, whatever the order of the reports and however full
the table: as long as the loop runs there is a process to wait for, and when the last one has
been reported as gone the loop has been left through the count.  `waitpid` never fails for
want of children. -/
theorem waits_only_for_the_living (cfg : Config τ) (root : Nat) (sys : System τ)
    (h : System.Reachable cfg (fun _ _ => True) root sys) :
    (sys.tracer.left = none → sys.kernel.live ≠ []) ∧
      (sys.kernel.live = [] → sys.tracer.left = some .counted) ∧
      sys.tracer.left ≠ some .noTracees := by
  have hi : WaitInv sys :=
    h.induct (waitInv_init root) fun sys r sys' hi hs _ => waitInv_step sys r sys' hi hs
  refine ⟨hi.live_ne_nil, fun hlive => ?_, hi.reported⟩
  cases hleft : sys.tracer.left with
  | none => exact absurd hlive (hi.live_ne_nil hleft)
  | some exit =>
      cases exit with
      | counted => rfl
      | noTracees => exact absurd hleft hi.reported

end Waiting

/-- The only process ends. -/
theorem waits_until_the_end :
    ∃ sys, System.Reachable (Config.plain followOptions) (fun _ _ => True) 1 sys ∧
      sys.kernel.live = [] ∧ sys.tracer.left = some .counted := by
  have h₀ : System.Reachable (Config.plain followOptions) (fun _ _ => True) 1 (.init 1) := .refl
  have h₁ := h₀.report (r := ⟨Stop.plain 1 0, .gone⟩) rfl
    (.gone (by decide) (fun _ => List.not_mem_nil) (by decide)) trivial
  exact ⟨_, h₁, rfl, (waits_only_for_the_living _ 1 _ h₁).2.1 rfl⟩

end MiniStrace
