/-
  Tracer/Toggle.lean --- the entry/exit toggle.

  The kernel does not say whether a syscall-stop is an entry or an exit; the tracer
  infers it from `in_syscall`, a bit of the process's slot that is clear when the slot
  is taken.  The bit agrees with the kernel for every tracked process as long as no
  process is registered in the middle of a syscall.

  A FULL TABLE breaks that.  A stop of a process that finds no slot is dropped; when a
  slot is freed later, the process can be registered between its entry-stop and its
  exit-stop.
-/
import MiniStrace.Tracer.System

set_option autoImplicit false

namespace MiniStrace

open CLib

/-! ## The branch a syscall-stop takes -/

section Branch

variable {τ : Type}

/-- The branch of the loop that handles a report as a syscall-stop: the one for
entries, the one for exits, or none, also when the process has no slot or its
registers cannot be read. -/
def syscallBranch (cfg : Config τ) (st : Tracer τ) (s : Stop) : Option Kind :=
  if s.isGone then none
  else if !wIfStopped s.status then none
  else if cfg.opts.followForks && s.isForkEvent then none
  else if !s.isSyscallStop then none
  else match st.tracees.addTracee s.pid with
    | none => none
    | some t => match s.regs, t.find s.pid with
      | some _, some ts => some (if ts.inSyscall then .exit else .entry)
      | _, _ => none

/-- The state of a process as the tracer knows it: that of a new slot if it has none. -/
def Tracees.stateOf (t : Tracees) (pid : Nat) : TraceeState := (t.find pid).getD .zeroed

theorem find_addTracee_self {t t' : Tracees} {pid : Nat} (h : t.addTracee pid = some t') :
    t'.find pid = some (t.stateOf pid) := by
  rw [SlotTable.find_of_add h, if_pos rfl]
  rfl

/-- A syscall-stop with readable registers, once its process has a slot. -/
theorem handleSyscallStop_eq [Zero τ] [Add τ] (cfg : Config τ) {st : Tracer τ} {s : Stop}
    {t : Tracees} {regs : Regs} (ht : st.tracees.addTracee s.pid = some t)
    (hr : s.regs = some regs) :
    handleSyscallStop cfg st s =
      handleRegs cfg { st with tracees := t } s regs (st.tracees.stateOf s.pid) := by
  simp only [handleSyscallStop, ht, hr, find_addTracee_self ht]

theorem syscallBranch_eq {cfg : Config τ} {st : Tracer τ} {s : Stop} {kd : Kind}
    (h : syscallBranch cfg st s = some kd) :
    s.isGone = false ∧ s.isSyscallStop = true ∧ (∃ t, st.tracees.addTracee s.pid = some t) ∧
      kd = if (st.tracees.stateOf s.pid).inSyscall then .exit else .entry := by
  unfold syscallBranch at h
  split_ifs at h with hg hst he hc
  cases ht : st.tracees.addTracee s.pid with
  | none => simp [ht] at h
  | some t =>
      cases hr : s.regs with
      | none => simp [ht, hr] at h
      | some regs =>
          simp only [ht, hr, find_addTracee_self ht, Option.some.injEq] at h
          exact ⟨by simpa using hg, by simpa using hc, ⟨t, rfl⟩, h.symm⟩

/-- A syscall-stop with readable registers takes a branch, once its process has a slot. -/
theorem syscallBranch_of_slot {cfg : Config τ} {st : Tracer τ} {s : Stop}
    (hs : wIfStopped s.status = true) (hc : s.isSyscallStop = true) {t : Tracees} {regs : Regs}
    (ht : st.tracees.addTracee s.pid = some t) (hr : s.regs = some regs) :
    syscallBranch cfg st s =
      some (if (st.tracees.stateOf s.pid).inSyscall then .exit else .entry) := by
  simp [syscallBranch, not_isGone hs, hs, not_isForkEvent hc, hc, ht, hr, find_addTracee_self ht]

/-- What takes a branch is an entry or an exit. -/
theorem kind_of_syscallBranch {cfg : Config τ} {st : Tracer τ} {r : Report} {k k' : Kernel}
    (hk : Kernel.Step k (some r) k') {kd : Kind} (h : syscallBranch cfg st r.stop = some kd) :
    r.kind = .entry ∨ r.kind = .exit := by
  obtain ⟨hgone, hc, -, -⟩ := syscallBranch_eq h
  cases hk with
  | forkEvent _ _ he _ => exact absurd hc (by simp [not_isSyscallStop he])
  | signal _ _ _ hn => exact absurd hc (by simp [hn])
  | gone _ _ hg => exact absurd hg (by simp [hgone])
  | @syscall s => cases k.inCall s.pid <;> simp

/-! The branches are those of the loop: an entry is counted and leaves its call in the slot, an
exit is folded into the summary, and no other report does either. -/

section Rounds

variable [Zero τ] [Add τ] {cfg : Config τ} {st : Tracer τ} {s : Stop}

/-- A round that takes a branch for syscall-stops. -/
theorem loopBody_of_branch {kd : Kind} (h : syscallBranch cfg st s = some kd) :
    ∃ t regs, st.tracees.addTracee s.pid = some t ∧ s.regs = some regs ∧
      kd = (if (st.tracees.stateOf s.pid).inSyscall then .exit else .entry) ∧
      loopBody cfg st (.report s) =
        handleRegs cfg { st with tracees := t } s regs (st.tracees.stateOf s.pid) := by
  obtain ⟨hgone, hc, ⟨t, ht⟩, hkd⟩ := syscallBranch_eq h
  unfold syscallBranch at h
  rw [if_neg (by simp [hgone])] at h
  split_ifs at h with hs he _
  cases hr : s.regs with
  | none => simp [ht, hr] at h
  | some regs =>
      refine ⟨t, regs, ht, rfl, hkd, ?_⟩
      rw [loopBody, handleReport_syscall cfg (by simpa using hs) hc, handleSyscallStop_eq cfg ht hr]

theorem loopBody_entry (h : syscallBranch cfg st s = some .entry) :
    ∃ t regs, st.tracees.addTracee s.pid = some t ∧ s.regs = some regs ∧
      loopBody cfg st (.report s) =
        { st with
          tracees := t.modify s.pid (entryState cfg s regs)
          trace := st.trace ++ (entryTexts cfg s regs).map (⟨s.pid, ·⟩)
          callCount := st.callCount + 1 } := by
  obtain ⟨t, regs, ht, hr, hkd, hbody⟩ := loopBody_of_branch h
  have hout : (st.tracees.stateOf s.pid).inSyscall = false := by
    by_contra hin
    rw [if_pos (by simpa using hin)] at hkd
    cases hkd
  refine ⟨t, regs, ht, hr, hbody.trans ?_⟩
  rw [handleRegs, hout, Bool.not_false, if_pos rfl]

theorem loopBody_exit (h : syscallBranch cfg st s = some .exit) :
    ∃ t regs, st.tracees.addTracee s.pid = some t ∧ s.regs = some regs ∧
      loopBody cfg st (.report s) =
        { st with
          tracees := t.modify s.pid exitState
          trace := st.trace ++
            (exitTexts cfg s regs (st.tracees.stateOf s.pid)).map (⟨s.pid, ·⟩)
          summary := exitSummary cfg s regs (st.tracees.stateOf s.pid) st.summary } := by
  obtain ⟨t, regs, ht, hr, hkd, hbody⟩ := loopBody_of_branch h
  have hin : (st.tracees.stateOf s.pid).inSyscall = true := by
    by_contra hout
    rw [if_neg hout] at hkd
    cases hkd
  refine ⟨t, regs, ht, hr, hbody.trans ?_⟩
  rw [handleRegs, hin, Bool.not_true, if_neg Bool.false_ne_true]

theorem loopBody_no_branch (h : syscallBranch cfg st s = none) :
    (loopBody cfg st (.report s)).callCount = st.callCount ∧
      (loopBody cfg st (.report s)).summary = st.summary := by
  unfold syscallBranch at h
  rw [loopBody, handleReport]
  split_ifs at h ⊢ with hg hs he hc
  · exact ⟨rfl, rfl⟩
  · exact ⟨rfl, rfl⟩
  · unfold handleForkEvent
    split
    · exact ⟨rfl, rfl⟩
    · split <;> exact ⟨rfl, rfl⟩
  · exact ⟨rfl, rfl⟩
  · -- without a slot or without registers the stop is passed over
    unfold handleSyscallStop
    cases ht : st.tracees.addTracee s.pid with
    | none => exact ⟨rfl, rfl⟩
    | some t =>
        cases hr : s.regs with
        | none => exact ⟨rfl, rfl⟩
        | some regs => simp [ht, hr, find_addTracee_self ht] at h

/-- The calls that are counted are those handled as entries. -/
theorem loopBody_callCount (cfg : Config τ) (st : Tracer τ) (s : Stop) :
    (loopBody cfg st (.report s)).callCount =
      if syscallBranch cfg st s = some .entry then st.callCount + 1 else st.callCount := by
  split_ifs with h
  · obtain ⟨t, regs, -, -, hbody⟩ := loopBody_entry h
    rw [hbody]
  · cases hb : syscallBranch cfg st s with
    | none => exact (loopBody_no_branch hb).1
    | some kd =>
        obtain ⟨-, -, -, rfl⟩ := syscallBranch_eq hb
        split_ifs at hb with hin
        · obtain ⟨t, regs, -, -, hbody⟩ := loopBody_exit hb
          rw [hbody]
        · exact absurd hb h

end Rounds

@[simp] theorem entryState_inSyscall (cfg : Config τ) (s : Stop) (regs : Regs)
    (ts : TraceeState) : (entryState cfg s regs ts).inSyscall = true := by
  unfold entryState
  dsimp only
  split_ifs <;> rfl

@[simp] theorem exitState_inSyscall (ts : TraceeState) : (exitState ts).inSyscall = false := by
  unfold exitState
  split_ifs <;> rfl

/-- A handled syscall-stop replaces the state of its process and no other. -/
theorem find_handleRegs [Zero τ] [Add τ] (cfg : Config τ) (st : Tracer τ) (s : Stop) (regs : Regs)
    (ts : TraceeState) (q : Nat) :
    (handleRegs cfg st s regs ts).tracees.find q =
      if q = s.pid then
        (st.tracees.find s.pid).map
          (if ts.inSyscall then exitState else entryState cfg s regs)
      else st.tracees.find q := by
  unfold handleRegs
  cases ts.inSyscall <;> simp [SlotTable.find_modify]

end Branch

/-! ## Agreement with the kernel -/

/-- Every tracked process is in a syscall exactly when the kernel says so. -/
def InPhase (t : Tracees) (inCall : Nat → Bool) : Prop :=
  ∀ q ts, t.find q = some ts → ts.inSyscall = inCall q

namespace InPhase

variable {t t' : Tracees} {inCall : Nat → Bool}

/-- A process outside any syscall can be registered. -/
theorem add (h : InPhase t inCall) {k : Nat} (ht : t.addTracee k = some t')
    (hk : k ∉ t.keys → t.keys.length < maxTracees → inCall k = false) : InPhase t' inCall := by
  intro q ts hq
  rcases SlotTable.add_eq_some ht with ⟨-, rfl⟩ | ⟨hmem, hperm, hfind⟩
  · exact h q ts hq
  · have hlen : t.keys.length < maxTracees := by
      have hle := SlotTable.length_keys_le t'
      rw [hperm.length_eq, List.length_cons] at hle
      exact hle
    rw [hfind q] at hq
    split_ifs at hq with hqk
    · injection hq with hq
      subst hq hqk
      exact (hk hmem hlen).symm
    · exact h q ts hq

theorem remove (h : InPhase t inCall) (k : Nat) (b : Bool) :
    InPhase (t.remove k) (Function.update inCall k b) := by
  intro q ts hq
  rw [SlotTable.find_remove] at hq
  split_ifs at hq with hqk
  rw [Function.update_of_ne hqk]
  exact h q ts hq

/-- The kernel resets the phase of a process that is outside any syscall. -/
theorem reset (h : InPhase t inCall) {k : Nat} (hk : inCall k = false) :
    InPhase t (Function.update inCall k false) := by
  rw [← hk, Function.update_eq_self]
  exact h

end InPhase

/-! ## The invariant -/

section Invariant

variable {τ : Type}

/-- Registers can be read at syscall-stops. -/
def RegsReadable (r : Report) : Prop :=
  r.kind = .entry ∨ r.kind = .exit → r.stop.regs.isSome = true

/-- A process that gets a new slot is outside any syscall. -/
def RegistersIdle (cfg : Config τ) (sys : System τ) (r : Report) : Prop :=
  ∀ q, r.stop.registers cfg = some q → q ∉ sys.tracer.tracees.keys →
    sys.tracer.tracees.keys.length < maxTracees → sys.kernel.inCall q = false

/-- A report that registers a tracked process, or one outside any syscall. -/
theorem RegistersIdle.of_some {cfg : Config τ} {sys : System τ} {r : Report} {c : Nat}
    (hreg : r.stop.registers cfg = some c)
    (hc : sys.kernel.inCall c = false ∨ c ∈ sys.tracer.tracees.keys) : RegistersIdle cfg sys r := by
  intro q hq hnew _
  obtain rfl : c = q := Option.some.inj (hreg.symm.trans hq)
  exact hc.resolve_right hnew

/-- The condition on a report. -/
def ToggleOk (cfg : Config τ) (sys : System τ) (r : Report) : Prop :=
  RegsReadable r ∧ RegistersIdle cfg sys r

structure ToggleInv (sys : System τ) : Prop where
  phase : InPhase sys.tracer.tracees sys.kernel.inCall
  idle : sys.kernel.Idle

theorem toggleInv_init (root : Nat) : ToggleInv (System.init root : System τ) where
  phase := by
    intro q ts hq
    have hfind : (Tracer.init root : Tracer τ).tracees.find q = some ts := hq
    rw [find_init] at hfind
    split_ifs at hfind
    injection hfind with hfind
    rw [← hfind]
    rfl
  idle := fun _ _ => rfl

theorem registers_of_stopped (cfg : Config τ) {s : Stop} (hs : wIfStopped s.status = true)
    (he : (cfg.opts.followForks && s.isForkEvent) = false) : s.registers cfg = some s.pid := by
  rw [Stop.registers, if_neg (by simp [not_isGone hs]), if_neg (by simp [hs]), if_neg (by simp [he])]

theorem registers_of_forkEvent {cfg : Config τ} {s : Stop} (hs : wIfStopped s.status = true)
    (hf : cfg.opts.followForks = true) (he : s.isForkEvent = true) :
    s.registers cfg = s.eventMsg := by
  rw [Stop.registers, if_neg (by simp [not_isGone hs]), if_neg (by simp [hs]), if_pos (by simp [hf, he])]

variable {cfg : Config τ} {sys : System τ} {s : Stop} {r : Report}

theorem handleSignalStop_phase (hp : InPhase sys.tracer.tracees sys.kernel.inCall)
    (hok : RegistersIdle cfg sys r) (hreg : r.stop.registers cfg = some s.pid) :
    InPhase (handleSignalStop cfg sys.tracer s).tracees sys.kernel.inCall := by
  simp only [handleSignalStop]
  cases ht : sys.tracer.tracees.addTracee s.pid with
  | none => exact hp
  | some t => exact hp.add ht (hok s.pid hreg)

theorem handleForkEvent_phase (hp : InPhase sys.tracer.tracees sys.kernel.inCall)
    (hok : RegistersIdle cfg sys r) {c : Nat} (hmsg : s.eventMsg = some c)
    (hreg : r.stop.registers cfg = some c) :
    InPhase (handleForkEvent sys.tracer s).tracees sys.kernel.inCall := by
  simp only [handleForkEvent, hmsg]
  cases ht : sys.tracer.tracees.addTracee c with
  | none => exact hp
  | some t => exact hp.add ht (hok c hreg)

/-- The branch a report takes is the one for its kind. -/
theorem ToggleInv.branch_kind (hi : ToggleInv sys) {k : Kernel}
    (hk : Kernel.Step sys.kernel (some r) k) (hok : ToggleOk cfg sys r) {kd : Kind}
    (hb : syscallBranch cfg sys.tracer r.stop = some kd) : kd = r.kind := by
  have hkind := kind_of_syscallBranch hk hb
  obtain ⟨-, hc, ⟨t, ht⟩, rfl⟩ := syscallBranch_eq hb
  cases hk with
  | forkEvent | signal | gone => simp at hkind
  | @syscall s hmem hst _ =>
      have hreg := registers_of_stopped cfg hst (by simp [not_isForkEvent hc])
      have hadd := hi.phase.add ht (hok.2 s.pid hreg)
      rw [hadd s.pid _ (find_addTracee_self ht)]

variable [Zero τ] [Add τ]

/-- A handled syscall-stop flips the bit of its process, as the kernel does. -/
theorem handleSyscallStop_phase (hp : InPhase sys.tracer.tracees sys.kernel.inCall)
    (hok : RegistersIdle cfg sys r) (hreg : r.stop.registers cfg = some s.pid) {regs : Regs}
    (hr : s.regs = some regs) :
    InPhase (handleSyscallStop cfg sys.tracer s).tracees
      (Function.update sys.kernel.inCall s.pid (!sys.kernel.inCall s.pid)) := by
  cases ht : sys.tracer.tracees.addTracee s.pid with
  | none =>
      -- the stop is dropped, and the process has no slot that could disagree
      have hmem := (SlotTable.add_eq_none_iff.mp ht).1
      intro q ts hq
      simp only [handleSyscallStop, ht] at hq
      have hne : q ≠ s.pid := by
        rintro rfl
        exact hmem ((SlotTable.mem_keys_iff _ _).mpr (by rw [hq]; rfl))
      rw [Function.update_of_ne hne]
      exact hp q ts hq
  | some t =>
      have hadd := hp.add ht (hok s.pid hreg)
      intro q ts hq
      rw [handleSyscallStop_eq cfg ht hr, find_handleRegs] at hq
      by_cases hqs : q = s.pid
      · rw [if_pos hqs] at hq
        have hbit := hadd s.pid _ (find_addTracee_self ht)
        rw [find_addTracee_self ht, Option.map_some] at hq
        injection hq with hq
        rw [hqs, Function.update_self, ← hq, ← hbit]
        cases (sys.tracer.tracees.stateOf s.pid).inSyscall <;> simp
      · rw [if_neg hqs] at hq
        rw [Function.update_of_ne hqs]
        exact hadd q ts hq

/-- Every report that satisfies the condition keeps the agreement. -/
theorem toggleInv_report (hi : ToggleInv sys) {k : Kernel}
    (hk : Kernel.Step sys.kernel (some r) k) (hok : ToggleOk cfg sys r) (log : List Report) :
    ToggleInv ⟨k, loopBody cfg sys.tracer (.report r.stop), log⟩ := by
  refine ⟨?_, hi.idle.step hk⟩
  cases hk with
  | @forkEvent s c hmem hs he hmsg =>
      simp only [loopBody, handleReport_forkEvent cfg hs he]
      by_cases hf : cfg.opts.followForks = true
      · rw [if_pos hf]
        exact handleForkEvent_phase hi.phase hok.2 hmsg
          ((registers_of_forkEvent hs hf he).trans hmsg)
      · rw [if_neg hf]
        exact handleSignalStop_phase hi.phase hok.2 (registers_of_stopped cfg hs (by simp [hf]))
  | @signal s hmem hs he hc =>
      simp only [loopBody, handleReport_signal cfg hs he hc]
      exact handleSignalStop_phase hi.phase hok.2 (registers_of_stopped cfg hs (by simp [he]))
  | @syscall s hmem hs hc =>
      obtain ⟨regs, hr⟩ := Option.isSome_iff_exists.mp
        (hok.1 (by cases sys.kernel.inCall s.pid <;> simp))
      simp only [loopBody, handleReport_syscall cfg hs hc]
      exact handleSyscallStop_phase hi.phase hok.2
        (registers_of_stopped cfg hs (by simp [not_isForkEvent hc])) hr
  | @gone s hmem hparent hgone =>
      simp only [loopBody, handleReport_gone cfg hgone, handleGone]
      exact hi.phase.remove s.pid false

theorem toggleInv_step (sys : System τ) (r : Option Report) (sys' : System τ)
    (hi : ToggleInv sys) (hs : System.Step cfg sys r sys')
    (hok : ∀ q, r = some q → ToggleOk cfg sys q) : ToggleInv sys' := by
  cases hs with
  | silent hk =>
      refine ⟨?_, hi.idle.step hk⟩
      cases hk with
      | create hp hc => exact hi.phase.reset (hi.idle _ hc)
  | report hleft hk => exact toggleInv_report hi hk (hok _ rfl) _
  | interrupted hleft => exact hi
  | noChild hleft hlive => exact ⟨hi.phase, hi.idle⟩

/-- The branch that handles a syscall-stop is the one for what the kernel reported, in
every run in which registers can be read and no process gets its slot in the middle
of a syscall. -/
theorem toggle_agrees_with_kernel (cfg : Config τ) (root : Nat) (sys sys' : System τ)
    (h : System.Reachable cfg (ToggleOk cfg) root sys) (r : Report)
    (hs : System.Step cfg sys (some r) sys') (hok : ToggleOk cfg sys r) (kd : Kind)
    (hb : syscallBranch cfg sys.tracer r.stop = some kd) : kd = r.kind := by
  have hi : ToggleInv sys := h.induct (toggleInv_init root) toggleInv_step
  cases hs with
  | report hleft hk => exact hi.branch_kind hk hok hb

end Invariant

/-! ## More processes than slots -/

/-- The registers of `getpid` at its entry and at its exit. -/
def getpidRegs : Regs := ⟨39, 0, 0, 0, 0, 0, 0, 0⟩

/-- A syscall-stop of `pid`. -/
def getpidStop (pid : Nat) : Stop := { Stop.plain pid 0x857f with regs := some getpidRegs }

/-- Processes 1 and 2 are in `getpid` at the same time, and a signal has stopped process 1 in
the middle of it.  The next stop of process 1 is handled as an exit: no call is counted. -/
theorem toggle_of_two :
    ∃ sys, System.Reachable (Config.plain followOptions) (ToggleOk (Config.plain followOptions)) 1
        sys ∧
      sys.log.map (fun r => (r.stop.pid, r.kind)) =
        [(1, .forkEvent), (1, .entry), (2, .entry), (1, .signal)] ∧
      syscallBranch (Config.plain followOptions) sys.tracer (getpidStop 1) = some .exit ∧
      Kind.exit = (Report.mk (getpidStop 1) .exit).kind ∧
      (loopBody (Config.plain followOptions) sys.tracer (.report (getpidStop 1))).callCount =
        sys.tracer.callCount := by
  have h₀ : System.Reachable (Config.plain followOptions) (ToggleOk (Config.plain followOptions)) 1
      (.init 1) := .refl
  have h₁ := h₀.create (p := 1) (c := 2) (by decide) (by decide)
  have h₂ := h₁.report (r := ⟨Stop.fork 1 2, .forkEvent⟩) rfl
    (.forkEvent (c := 2) (by decide) (by decide) (by decide) rfl)
    ⟨fun h => absurd h (by decide), .of_some (c := 2) (by decide) (.inl rfl)⟩
  have h₃ := h₂.report (r := ⟨getpidStop 1, .entry⟩) rfl
    (.entry (by decide) (by decide) (by decide) rfl)
    ⟨fun _ => rfl, .of_some (c := 1) (by decide) (.inl rfl)⟩
  have h₄ := h₃.report (r := ⟨getpidStop 2, .entry⟩) rfl
    (.entry (by decide) (by decide) (by decide) rfl)
    ⟨fun _ => rfl, .of_some (c := 2) (by decide) (.inl rfl)⟩
  have h₅ := h₄.report (r := ⟨Stop.plain 1 0x0a7f, .signal⟩) rfl
    (.signal (by decide) (by decide) (by decide) (by decide))
    ⟨fun h => absurd h (by decide), .of_some (c := 1) (by decide) (.inr (by decide +kernel))⟩
  refine ⟨_, h₅, rfl, ?hb, toggle_agrees_with_kernel _ 1 _ _ h₅ ⟨getpidStop 1, .exit⟩
    (.report rfl (.exit (by decide) (by decide) (by decide) rfl))
    ⟨fun _ => rfl, .of_some (c := 1) (by decide) (.inr (by decide +kernel))⟩ .exit ?hb, ?_⟩
  · decide +kernel
  · rw [loopBody_callCount, if_neg (by decide +kernel)]

/-- A table that holds the processes 1 to `n` has a slot for the next one. -/
theorem addTracee_next {t : Tracees} {n : Nat} (h : t.keys.Perm (List.range' 1 n))
    (hn : n < maxTracees) :
    n + 1 ∉ t.keys ∧
      ∃ t', t.addTracee (n + 1) = some t' ∧ t'.keys.Perm (List.range' 1 (n + 1)) := by
  have hnew : n + 1 ∉ t.keys := by
    rw [h.mem_iff, List.mem_range'_1]
    omega
  have hadd : t.addTracee (n + 1) ≠ none := by
    intro hnone
    have hlen := (SlotTable.add_eq_none_iff.mp hnone).2
    rw [h.length_eq, List.length_range'] at hlen
    omega
  obtain ⟨t', ht'⟩ := Option.ne_none_iff_exists'.mp hadd
  refine ⟨hnew, t', ht', ?_⟩
  rcases SlotTable.add_eq_some ht' with ⟨hm, -⟩ | ⟨-, hp, -⟩
  · exact absurd hm hnew
  · rw [List.range'_concat, Nat.one_mul, Nat.add_comm 1]
    exact (hp.trans (h.cons _)).trans (List.perm_append_singleton _ _).symm

/-- A table that holds the processes 1 to 64 has no slot for another. -/
theorem addTracee_full {t : Tracees} (h : t.keys.Perm (List.range' 1 64)) :
    65 ∉ t.keys ∧ t.addTracee 65 = none := by
  have hnew : 65 ∉ t.keys := fun hm => absurd (h.subset hm) (by decide)
  exact ⟨hnew, SlotTable.add_eq_none_iff.mpr ⟨hnew, by rw [h.length_eq]; rfl⟩⟩

/-- A syscall-stop that finds no slot is passed over. -/
theorem loopBody_dropped {τ : Type} [Zero τ] [Add τ] (cfg : Config τ) {st : Tracer τ} {pid : Nat}
    (h : st.tracees.addTracee pid = none) :
    loopBody cfg st (.report (getpidStop pid)) = st := by
  have hs : wIfStopped (getpidStop pid).status = true := by
    simp only [getpidStop, Stop.plain]
    decide
  have hc : (getpidStop pid).isSyscallStop = true := by
    simp only [getpidStop, Stop.plain, Stop.isSyscallStop, Stop.stopsig]
    decide
  rw [loopBody, handleReport_syscall _ hs hc]
  simp only [handleSyscallStop, show (getpidStop pid).pid = pid from rfl, h]

/-- A state in which `n` processes run, none of them in a syscall, and all are tracked. -/
structure Crowd (n : Nat) (sys : System Nat) : Prop where
  live : sys.kernel.live = List.range' 1 n
  pending : sys.kernel.pending = []
  left : sys.tracer.left = none
  active : sys.tracer.activeCount = n
  tracked : sys.tracer.tracees.keys.Perm (List.range' 1 n)

/-- Process 1 creates processes 2 to `n + 1` and each fork event is reported at once. -/
theorem crowd (n : Nat) (hn : n < maxTracees) :
    ∃ sys, System.Reachable (Config.plain followOptions) (fun _ r => RegsReadable r) 1 sys ∧
      Crowd (n + 1) sys := by
  induction n with
  | zero =>
      refine ⟨.init 1, .refl, rfl, rfl, rfl, rfl, ?_⟩
      rw [show (System.init 1 : System Nat).tracer.tracees.keys = [1] from keys_init 1]
      exact List.Perm.refl _
  | succ n ih =>
      obtain ⟨sys, hreach, hlive, hpend, hleft, hactive, hkeys⟩ := ih (by omega)
      have hfresh : n + 2 ∉ List.range' 1 (n + 1) := by
        rw [List.mem_range'_1]
        omega
      have h₁ := hreach.create (p := 1) (c := n + 2) (by rw [hlive]; simp) (by rwa [hlive])
      have h₂ := h₁.report (r := ⟨Stop.fork 1 (n + 2), .forkEvent⟩) hleft
        (.forkEvent (c := n + 2) (by simp [Stop.fork, Stop.plain])
          (Stop.stopped_fork 1 (n + 2)) (Stop.isForkEvent_fork 1 (n + 2)) rfl)
        (fun h => absurd h (by simp))
      obtain ⟨-, t, ht, hperm⟩ := addTracee_next hkeys hn
      obtain ⟨msgs, hbody⟩ := loopBody_forkEvent (Config.plain followOptions)
        (Stop.stopped_fork 1 (n + 2)) (Stop.isForkEvent_fork 1 (n + 2)) rfl rfl ht
      simp only [hbody] at h₂
      refine ⟨_, h₂, ?_, ?_, hleft, ?_, hperm⟩
      · rw [hlive, List.range'_concat (n := n + 1), Nat.one_mul, Nat.add_comm 1]
      · simp [hpend, Stop.fork, Stop.plain]
      · rw [hactive]
        rfl

/-- With 64 processes tracked, the 65th enters a syscall unseen.  When process 2 is gone
its slot is free, and the exit-stop of the 65th is handled, and counted, as an entry. -/
theorem toggle_desynchronises :
    ∃ sys sys' r, System.Reachable (Config.plain followOptions) (fun _ r => RegsReadable r) 1 sys ∧
      System.Step (Config.plain followOptions) sys (some r) sys' ∧ RegsReadable r ∧
      r.kind = .exit ∧ syscallBranch (Config.plain followOptions) sys.tracer r.stop = some .entry ∧
      sys'.tracer.callCount = sys.tracer.callCount + 1 := by
  obtain ⟨sys, h₀, hlive, hpend, hleft, hactive, hkeys⟩ := crowd 63 (by decide)
  obtain ⟨hnew, hfull⟩ := addTracee_full hkeys
  have h₁ := h₀.create (p := 1) (c := 65) (by rw [hlive]; decide) (by rw [hlive]; decide)
  -- the entry-stop of process 65 finds no slot and is dropped
  have h₂ := h₁.report (r := ⟨getpidStop 65, .entry⟩) hleft
    (.entry (by simp [getpidStop, Stop.plain]) rfl rfl (by simp [getpidStop, Stop.plain]))
    (fun _ => rfl)
  simp only [loopBody_dropped _ hfull] at h₂
  have h₃ := h₂.report (r := ⟨Stop.plain 2 0, .gone⟩) hleft
    (.gone (by simp [hlive, Stop.plain]) (by simp [hpend, Stop.plain]) rfl)
    (fun h => absurd h (by decide))
  have hgone : loopBody (Config.plain followOptions) sys.tracer (.report (Stop.plain 2 0)) =
      handleGone (Config.plain followOptions) sys.tracer (Stop.plain 2 0) :=
    handleReport_gone _ rfl sys.tracer
  simp only [hgone] at h₃
  -- process 2 has left a free slot
  have hroom : (sys.tracer.tracees.removeTracee 2).addTracee 65 ≠ none := by
    intro hnone
    have hlen := (SlotTable.add_eq_none_iff.mp hnone).2
    rw [SlotTable.keys_remove, List.length_erase_of_mem (hkeys.symm.subset (by decide)),
      hkeys.length_eq] at hlen
    exact absurd hlen (by decide)
  obtain ⟨t, ht⟩ := Option.ne_none_iff_exists'.mp hroom
  have hstate : (sys.tracer.tracees.removeTracee 2).stateOf 65 = .zeroed := by
    have hfind : sys.tracer.tracees.find 65 = none := by
      rw [← Option.not_isSome_iff_eq_none, ← SlotTable.mem_keys_iff]
      exact hnew
    rw [Tracees.stateOf, SlotTable.find_remove, if_neg (by decide), hfind]
    rfl
  have hentry : syscallBranch (Config.plain followOptions)
      (handleGone (Config.plain followOptions) sys.tracer (Stop.plain 2 0)) (getpidStop 65) =
        some .entry := by
    rw [syscallBranch_of_slot rfl rfl (show _ = some t from ht) rfl]
    simp only [handleGone, show (getpidStop 65).pid = 65 from rfl,
      show (Stop.plain 2 0).pid = 2 from rfl, hstate]
    rfl
  refine ⟨_, _, ⟨getpidStop 65, .exit⟩, h₃,
    .report ?_ (.exit ((List.mem_erase_of_ne (by decide)).mpr ?_) rfl rfl ?_), fun _ => rfl, rfl,
    hentry, ?_⟩
  · simp only [handleGone, hactive]
    rfl
  · simp [getpidStop, Stop.plain]
  · simp [getpidStop, Stop.plain]
  · exact (loopBody_callCount _ _ _).trans (if_pos hentry)

end MiniStrace
