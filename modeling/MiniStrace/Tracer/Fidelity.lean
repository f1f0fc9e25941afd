/-
  Tracer/Fidelity.lean --- the trace of a process is a function of its own reports.

  THE SPECIFICATION.  `ownTrace` reads the reports of one process in order.  An entry
  opens a call with a name, arguments and a start time; the call is printed there, or
  at its exit when it has a kernel-populated argument, and its result at the exit; a
  call the filter rejects prints nothing.  Nothing in it mentions slots, stashed
  fields or other processes.

  THE TRACER.  Its slots are recycled among all processes and hold fourteen pending
  fields.  As long as there are never more registered processes than slots, the chunks it
  emits for a process are those of `ownTrace`, for every interleaving.

  THE DEAD.  Registered is not the same as alive.  A child may be gone before its fork event
  is reported; the event then gives a slot to a process that will never be reported again,
  so nothing frees it.  With a few processes alive at a time the table can fill up this way.
-/
import MiniStrace.Tracer.Local

set_option autoImplicit false

namespace MiniStrace

open CLib

/-! ## The specification -/

/-- A call in progress. -/
structure Call where
  name : String
  args : Args
  start : Timespec

section Spec

variable {τ : Type} (cfg : Config τ)

/-- The call an entry-stop opens. -/
def callOf (s : Stop) (regs : Regs) : Call :=
  ⟨cfg.syscallName (syscallNoOf regs), argsOf regs, s.now⟩

/-- The group printed at the entry-stop: the call, unless it is deferred. -/
def callAtEntry (s : Stop) (c : Call) : List Text :=
  if !syscallAllowed cfg.filter c.name then []
  else if deferred c.name then []
  else [entryCall cfg.host cfg.opts s.tracee c.name c.args]

/-- The groups printed at the exit-stop: the call, if it was deferred, and its result. -/
def callAtExit (s : Stop) (ret : Int) (c : Call) : List Text :=
  if !syscallAllowed cfg.filter c.name then []
  else
    (if deferred c.name then
      [exitCall cfg.host cfg.opts s.tracee c.name c.args (.ofName c.name) ret]
    else []) ++
    [printRet cfg.host ret
      (if cfg.opts.showTiming then cfg.timing (cfg.elapsed c.start s.now) else [])]

/-- The line of a signal, if one is delivered. -/
def signalTexts (s : Stop) : List Text :=
  if s.stopsig = Stop.sigtrap ∨ s.stopsig = 0 then []
  else [signalLine cfg.host cfg.opts s.pid s.stopsig]

/-- What a report of a process prints, given the call the process is in. -/
def ownTexts (cur : Option Call) (r : Report) : List Text :=
  match r.kind, r.stop.regs, cur with
  | .signal, _, _ => signalTexts cfg r.stop
  | .entry, some regs, _ => callAtEntry cfg r.stop (callOf cfg r.stop regs)
  | .exit, some regs, some c => callAtExit cfg r.stop (returnValOf regs) c
  | _, _, _ => []

/-- The call a process is in after a report of it. -/
def ownNext (cur : Option Call) (r : Report) : Option Call :=
  match r.kind with
  | .signal | .forkEvent => cur
  | .entry => r.stop.regs.map (callOf cfg r.stop)
  | .exit | .gone => none

/-- The trace of one process, from its own reports. -/
def ownTrace : Option Call → List Report → List Text
  | _, [] => []
  | cur, r :: rs => ownTexts cfg cur r ++ ownTrace (ownNext cfg cur r) rs

/-- The call a process is in after its reports. -/
def ownCall (cur : Option Call) (rs : List Report) : Option Call := rs.foldl (ownNext cfg) cur

theorem ownTrace_concat (cur : Option Call) (rs : List Report) (r : Report) :
    ownTrace cfg cur (rs ++ [r]) =
      ownTrace cfg cur rs ++ ownTexts cfg (ownCall cfg cur rs) r := by
  induction rs generalizing cur with
  | nil => simp [ownTrace, ownCall]
  | cons s rs ih =>
      rw [List.cons_append, ownTrace, ownTrace, ih, List.append_assoc]
      rfl

theorem ownCall_concat (cur : Option Call) (rs : List Report) (r : Report) :
    ownCall cfg cur (rs ++ [r]) = ownNext cfg (ownCall cfg cur rs) r := by
  rw [ownCall, List.foldl_append]
  rfl

end Spec

/-- The reports of process `p`. -/
def ownReports (p : Nat) (log : List Report) : List Report := log.filter (·.stop.pid == p)

/-- The chunks labelled `p`. -/
def chunksOf (p : Nat) (trace : List Chunk) : List Text :=
  (trace.filter (·.pid == p)).map (·.text)

theorem ownReports_eq_nil {p : Nat} {log : List Report} (h : ∀ r ∈ log, r.stop.pid ≠ p) :
    ownReports p log = [] :=
  List.filter_eq_nil_iff.mpr fun r hr => by simpa using h r hr

theorem ownReports_concat (p : Nat) (log : List Report) (r : Report) :
    ownReports p (log ++ [r]) =
      if r.stop.pid = p then ownReports p log ++ [r] else ownReports p log := by
  rw [ownReports, List.filter_append]
  split_ifs with h <;> simp [ownReports, h]

theorem chunksOf_append (p : Nat) (trace : List Chunk) (q : Nat) (texts : List Text) :
    chunksOf p (trace ++ texts.map (⟨q, ·⟩)) =
      if q = p then chunksOf p trace ++ texts else chunksOf p trace := by
  simp only [chunksOf, List.filter_append, List.map_append]
  by_cases h : q = p
  · subst h
    have hall : (texts.map (Chunk.mk q)).filter (·.pid == q) = texts.map (Chunk.mk q) :=
      List.filter_eq_self.mpr fun c hc => by
        obtain ⟨t, -, rfl⟩ := List.mem_map.mp hc
        exact beq_self_eq_true q
    rw [if_pos rfl, hall, List.map_map]
    simp [Function.comp_def]
  · have hnone : (texts.map (Chunk.mk q)).filter (·.pid == p) = [] :=
      List.filter_eq_nil_iff.mpr fun c hc => by
        obtain ⟨t, -, rfl⟩ := List.mem_map.mp hc
        simpa using h
    simp [h, hnone]

/-! ## One process -/

section Own

variable {τ : Type} {cfg : Config τ}

/-- The slot of a process that is in the call `c`, or in no call, as the entry-stop left
it. -/
def InCall (cfg : Config τ) : Option Call → TraceeState → Prop
  | none, ts => ts.inSyscall = false
  | some c, ts => ∃ s regs ts₀, ts = entryState cfg s regs ts₀ ∧ c = callOf cfg s regs

theorem entryTexts_eq (hc : cfg.opts.summaryMode = false) (s : Stop) (regs : Regs) :
    entryTexts cfg s regs = callAtEntry cfg s (callOf cfg s regs) := by
  simp only [entryTexts, callAtEntry, callOf, deferred, hc, Bool.false_eq_true, if_false]
  rfl

/-! What an entry-stop leaves in the slot. -/

theorem entryState_suppressed (s : Stop) (regs : Regs) (ts : TraceeState) :
    (entryState cfg s regs ts).suppressed = !syscallAllowed cfg.filter (callOf cfg s regs).name := by
  unfold entryState
  dsimp only
  split_ifs <;> rfl

theorem entryState_entryTime (ht : (cfg.opts.showTiming || cfg.opts.summaryMode) = true) (s : Stop)
    (regs : Regs) (ts : TraceeState) : (entryState cfg s regs ts).entryTime = s.now := by
  unfold entryState
  simp only [ht, if_true]
  split_ifs <;> rfl

theorem entryState_deferred {s : Stop} {regs : Regs}
    (hal : syscallAllowed cfg.filter (callOf cfg s regs).name = true)
    (hd : deferred (callOf cfg s regs).name = true) (ts : TraceeState) :
    (entryState cfg s regs ts).pending = .ofName (callOf cfg s regs).name ∧
      (entryState cfg s regs ts).pendingName = some (callOf cfg s regs).name ∧
      (entryState cfg s regs ts).pendingArgs = (callOf cfg s regs).args := by
  simp only [callOf, deferred] at hal hd ⊢
  unfold entryState
  simp only [hal, hd, Bool.not_true, Bool.false_eq_true, if_false, if_true]
  exact ⟨trivial, trivial, trivial⟩

theorem entryState_direct {s : Stop} {regs : Regs}
    (hd : deferred (callOf cfg s regs).name = false) (ts : TraceeState) :
    (entryState cfg s regs ts).pending = .clear := by
  simp only [callOf, deferred] at hd
  unfold entryState
  simp only [hd, Bool.false_eq_true, if_false]
  split_ifs <;> rfl

/-- The exit-stop finds in the slot what the entry-stop of the same call put there. -/
theorem exitTexts_entryState (hc : cfg.opts.summaryMode = false) (s s₀ : Stop)
    (regs regs₀ : Regs) (ts : TraceeState) :
    exitTexts cfg s regs (entryState cfg s₀ regs₀ ts) =
      callAtExit cfg s (returnValOf regs) (callOf cfg s₀ regs₀) := by
  have htime : timingBuf cfg s (entryState cfg s₀ regs₀ ts) =
      if cfg.opts.showTiming then cfg.timing (cfg.elapsed (callOf cfg s₀ regs₀).start s.now)
      else [] := by
    unfold timingBuf
    split_ifs with ht
    · rw [entryState_entryTime (by rw [ht, Bool.true_or])]
      rfl
    · rfl
  simp only [exitTexts, callAtExit, entryState_suppressed, hc, htime]
  cases hal : syscallAllowed cfg.filter (callOf cfg s₀ regs₀).name with
  | false => rw [Bool.not_false, if_pos rfl, if_pos rfl]
  | true =>
      cases hd : deferred (callOf cfg s₀ regs₀).name with
      | false =>
          rw [entryState_direct hd, Pending.any_clear]
          simp only [Bool.false_and, Bool.false_eq_true, if_false]
      | true =>
          obtain ⟨hp, hn, ha⟩ := entryState_deferred hal hd ts
          have hany : (Pending.ofName (callOf cfg s₀ regs₀).name).any = true := hd
          rw [hp, hn, ha, hany]
          simp only [Bool.not_false, Bool.and_true, Bool.false_eq_true, if_false, Option.getD_some]

/-- After a report of a process its slot still describes the call the process is in. -/
theorem own_state {cur : Option Call} {ts : TraceeState} (h : InCall cfg cur ts) {r : Report}
    (hregs : RegsReadable r) (hentry : r.kind = .entry → ts.inSyscall = false)
    (hexit : r.kind = .exit → ts.inSyscall = true) :
    InCall cfg (ownNext cfg cur r) (localState cfg r ts) := by
  cases hk : r.kind with
  | signal | forkEvent => simpa only [ownNext, localState, hk] using h
  | gone =>
      simp only [ownNext, localState, hk]
      rfl
  | entry =>
      obtain ⟨regs, hr⟩ := Option.isSome_iff_exists.mp (hregs (Or.inl hk))
      simp only [ownNext, localState, hk, hr, hentry hk, Bool.false_eq_true, if_false,
        Option.map_some]
      exact ⟨r.stop, regs, ts, rfl, rfl⟩
  | exit =>
      obtain ⟨regs, hr⟩ := Option.isSome_iff_exists.mp (hregs (Or.inr hk))
      simp only [ownNext, localState, hk, hr, hexit hk, if_true]
      exact exitState_inSyscall _

/-- A process that stops at an exit is in a call. -/
theorem InCall.call_of_inSyscall {cur : Option Call} {ts : TraceeState} (h : InCall cfg cur ts)
    (hin : ts.inSyscall = true) :
    ∃ s regs ts₀, ts = entryState cfg s regs ts₀ ∧ cur = some (callOf cfg s regs) := by
  cases cur with
  | none => exact absurd (hin.symm.trans h) (by decide)
  | some c =>
      obtain ⟨s, regs, ts₀, hts, hc⟩ := h
      exact ⟨s, regs, ts₀, hts, congrArg some hc⟩

/-- Without `-c`, a report of a process prints what the specification says. -/
theorem own_texts (hc : cfg.opts.summaryMode = false) {cur : Option Call} {ts : TraceeState}
    (h : InCall cfg cur ts) {r : Report} (hregs : RegsReadable r)
    (hentry : r.kind = .entry → ts.inSyscall = false)
    (hexit : r.kind = .exit → ts.inSyscall = true) :
    localTexts cfg r ts = ownTexts cfg cur r := by
  cases hk : r.kind with
  | signal =>
      simp only [localTexts, ownTexts, signalTexts, hk]
      by_cases hs : r.stop.stopsig = Stop.sigtrap
      · simp [hs]
      · simp [hs]
  | forkEvent | gone => simp only [localTexts, ownTexts, hk]
  | entry =>
      obtain ⟨regs, hr⟩ := Option.isSome_iff_exists.mp (hregs (Or.inl hk))
      simp only [localTexts, ownTexts, hk, hr, hentry hk, Bool.false_eq_true, if_false]
      exact entryTexts_eq hc r.stop regs
  | exit =>
      obtain ⟨regs, hr⟩ := Option.isSome_iff_exists.mp (hregs (Or.inr hk))
      have hin := hexit hk
      obtain ⟨s₀, regs₀, ts₀, rfl, rfl⟩ := h.call_of_inSyscall hin
      simp only [localTexts, ownTexts, hk, hr, hin, if_true]
      exact exitTexts_entryState hc r.stop s₀ regs regs₀ ts₀

end Own

/-! ## All processes -/

section Fidelity

variable {τ : Type} {cfg : Config τ}

/-- The registered processes after one more report: a fork event registers the child it
announces, any other stop the process that stopped, and the end of a process strikes it
out. -/
def toTrackNext (cfg : Config τ) (toTrack : List Nat) (r : Report) : List Nat :=
  if r.kind = .gone then toTrack.erase r.stop.pid
  else match r.stop.registers cfg with
    | some q => toTrack.insert q
    | none => toTrack

/-- The registered processes after the reports of a log, whatever the table did.  A child
whose fork event is reported after its own end is registered by the event, and from then on
nothing strikes it out: unless its pid is given out again, it counts for ever. -/
def toTrack (cfg : Config τ) (root : Nat) (log : List Report) : List Nat :=
  log.foldl (toTrackNext cfg) [root]

/-- Registers are readable, and after the report there are no more registered processes than
slots; among them is every child whose fork event came after its end, for ever. -/
def CapacityOk (cfg : Config τ) (root : Nat) (sys : System τ) (r : Report) : Prop :=
  RegsReadable r ∧ (toTrack cfg root (sys.log ++ [r])).length ≤ maxTracees

theorem toTrack_concat (root : Nat) (log : List Report) (r : Report) :
    toTrack cfg root (log ++ [r]) = toTrackNext cfg (toTrack cfg root log) r := by
  rw [toTrack, List.foldl_append]
  rfl

theorem toTrack_nodup (root : Nat) (log : List Report) : (toTrack cfg root log).Nodup := by
  induction log using List.reverseRecOn with
  | nil => exact List.nodup_singleton root
  | append_singleton log r ih =>
      rw [toTrack_concat]
      unfold toTrackNext
      split
      · exact ih.erase _
      · split
        · exact ih.insert
        · exact ih

/-- A table that tracks exactly the processes asked for has a slot for the next one. -/
theorem findsSlot_of_capacity {root : Nat} {sys : System τ} {r : Report}
    (htracked : ∀ q, q ∈ sys.tracer.tracees.keys ↔ q ∈ toTrack cfg root sys.log)
    (hgone : r.kind = .gone → r.stop.registers cfg = none)
    (hok : CapacityOk cfg root sys r) : FindsSlot cfg sys.tracer r := by
  intro q hreg hnone
  obtain ⟨hnew, hlen⟩ := SlotTable.add_eq_none_iff.mp hnone
  have hperm : sys.tracer.tracees.keys.Perm (toTrack cfg root sys.log) :=
    (List.perm_ext_iff_of_nodup (SlotTable.nodup_keys _) (toTrack_nodup root sys.log)).mpr htracked
  have hkind : r.kind ≠ .gone := fun h => by simp [hgone h] at hreg
  have hnext : toTrackNext cfg (toTrack cfg root sys.log) r = (toTrack cfg root sys.log).insert q := by
    simp only [toTrackNext, if_neg hkind, hreg]
  have hle := hok.2
  rw [toTrack_concat, hnext, List.length_insert_of_not_mem (fun h => hnew ((htracked q).mpr h)),
    ← hperm.length_eq] at hle
  omega

/-- What the tracer knows of the processes agrees with what they have done. -/
structure TrackInv (cfg : Config τ) (root : Nat) (sys : System τ) : Prop where
  tracked : ∀ q, q ∈ sys.tracer.tracees.keys ↔ q ∈ toTrack cfg root sys.log
  phase : ∀ q, (sys.tracer.tracees.stateOf q).inSyscall = sys.kernel.inCall q
  idle : sys.kernel.Idle
  call : ∀ p, InCall cfg (ownCall cfg none (ownReports p sys.log)) (sys.tracer.tracees.stateOf p)

/-- What the tracer knows agrees with what the processes have done. -/
structure FidelityInv (cfg : Config τ) (root : Nat) (sys : System τ) : Prop where
  tracked : ∀ q, q ∈ sys.tracer.tracees.keys ↔ q ∈ toTrack cfg root sys.log
  phase : ∀ q, (sys.tracer.tracees.stateOf q).inSyscall = sys.kernel.inCall q
  idle : sys.kernel.Idle
  call : ∀ p, InCall cfg (ownCall cfg none (ownReports p sys.log)) (sys.tracer.tracees.stateOf p)
  trace : ∀ p, chunksOf p sys.tracer.trace = ownTrace cfg none (ownReports p sys.log)

theorem FidelityInv.track {root : Nat} {sys : System τ} (hi : FidelityInv cfg root sys) :
    TrackInv cfg root sys := ⟨hi.tracked, hi.phase, hi.idle, hi.call⟩

theorem TrackInv.fidelity {root : Nat} {sys : System τ} (hi : TrackInv cfg root sys)
    (ht : ∀ p, chunksOf p sys.tracer.trace = ownTrace cfg none (ownReports p sys.log)) :
    FidelityInv cfg root sys := ⟨hi.tracked, hi.phase, hi.idle, hi.call, ht⟩

theorem trackInv_init (root : Nat) : TrackInv cfg root (System.init root) := by
  have hstate : ∀ q, (System.init root : System τ).tracer.tracees.stateOf q = .zeroed := by
    intro q
    show ((Tracer.init root : Tracer τ).tracees.find q).getD .zeroed = .zeroed
    rw [find_init]
    split_ifs <;> rfl
  refine ⟨fun q => ?_, fun q => ?_, fun _ _ => rfl, fun p => ?_⟩
  · rw [show (System.init root : System τ).tracer.tracees.keys = [root] from keys_init root]
    rfl
  · rw [hstate q]
    rfl
  · rw [hstate p]
    rfl

theorem localState_inSyscall {r : Report} {ts : TraceeState} (hregs : RegsReadable r)
    (hentry : r.kind = .entry → ts.inSyscall = false)
    (hexit : r.kind = .exit → ts.inSyscall = true) :
    (localState cfg r ts).inSyscall = r.kind.inCallAfter ts.inSyscall := by
  cases hk : r.kind with
  | signal | forkEvent | gone =>
      simp only [localState, hk]
      rfl
  | entry =>
      obtain ⟨regs, hr⟩ := Option.isSome_iff_exists.mp (hregs (Or.inl hk))
      simp [localState, hk, hr, hentry hk, Kind.inCallAfter]
  | exit =>
      obtain ⟨regs, hr⟩ := Option.isSome_iff_exists.mp (hregs (Or.inr hk))
      simp [localState, hk, hr, hexit hk, Kind.inCallAfter]

namespace TrackInv

variable {root : Nat} {sys : System τ} {r : Report} {k : Kernel}

/-- The toggle of the reported process is in step with the kernel. -/
theorem toggle (hi : TrackInv cfg root sys) (hk : Kernel.Step sys.kernel (some r) k) :
    (r.kind = .entry → (sys.tracer.tracees.stateOf r.stop.pid).inSyscall = false) ∧
      (r.kind = .exit → (sys.tracer.tracees.stateOf r.stop.pid).inSyscall = true) := by
  have h := hk.inCall_before
  simp only [← hi.phase] at h
  exact h

theorem registers_of_gone (hk : Kernel.Step sys.kernel (some r) k) (h : r.kind = .gone) :
    r.stop.registers cfg = none := by
  cases hk with
  | gone _ _ hg => rw [Stop.registers, if_pos hg]
  | forkEvent | signal => exact absurd h (by simp)
  | @syscall s => exact absurd h (by cases sys.kernel.inCall s.pid <;> simp)

theorem findsSlot (hi : TrackInv cfg root sys) (hk : Kernel.Step sys.kernel (some r) k)
    (hok : CapacityOk cfg root sys r) : FindsSlot cfg sys.tracer r :=
  findsSlot_of_capacity hi.tracked (registers_of_gone hk) hok

end TrackInv

variable [Zero τ] [Add τ]

/-- Every report within capacity keeps the agreement. -/
theorem trackInv_report {root : Nat} {sys : System τ} (hi : TrackInv cfg root sys) {r : Report}
    {k : Kernel} (hk : Kernel.Step sys.kernel (some r) k) (hok : CapacityOk cfg root sys r) :
    TrackInv cfg root ⟨k, loopBody cfg sys.tracer (.report r.stop), sys.log ++ [r]⟩ := by
  have hact := actsLocally hk (hi.findsSlot hk hok) hok.1
  obtain ⟨hentry, hexit⟩ := hi.toggle hk
  refine ⟨fun q => ?_, fun q => ?_, hi.idle.step hk, fun p => ?_⟩
  · rw [hact.keys, toTrack_concat, hi.tracked, toTrackNext]
    by_cases hkind : r.kind = .gone
    · rw [if_pos hkind, TrackInv.registers_of_gone hk hkind,
        (toTrack_nodup root sys.log).mem_erase_iff]
      simp [hkind]
    · rw [if_neg hkind]
      cases hreg : r.stop.registers cfg with
      | none => simp [hkind]
      | some c => simp [hkind, eq_comm]
  · rw [hact.states, hk.inCall_after]
    split_ifs with hq
    · rw [localState_inSyscall hok.1 hentry hexit, hi.phase, hq]
    · exact hi.phase q
  · rw [hact.states, ownReports_concat]
    by_cases hp : r.stop.pid = p
    · rw [if_pos hp, if_pos hp.symm, ownCall_concat, ← hp]
      exact own_state (hi.call r.stop.pid) hok.1 hentry hexit
    · rw [if_neg hp, if_neg (Ne.symm hp)]
      exact hi.call p

/-- Steps that report nothing do not change what the tracer knows. -/
theorem trackInv_quiet {root : Nat} {sys sys' : System τ} (hi : TrackInv cfg root sys)
    (hs : System.Step cfg sys none sys') :
    TrackInv cfg root sys' ∧ sys'.log = sys.log ∧ sys'.tracer.trace = sys.tracer.trace ∧
      sys'.tracer.summary = sys.tracer.summary := by
  cases hs with
  | silent hk =>
      refine ⟨⟨hi.tracked, fun q => ?_, hi.idle.step hk, hi.call⟩, rfl, rfl, rfl⟩
      cases hk with
      | @create p c hp hnew =>
          -- a pid given out again belongs to no live process, so its slot is idle
          simp only [Function.update_apply]
          split_ifs with hq
          · rw [hi.phase, hq, hi.idle c hnew]
          · exact hi.phase q
  | interrupted hleft => exact ⟨hi, rfl, rfl, rfl⟩
  | noChild hleft hlive => exact ⟨⟨hi.tracked, hi.phase, hi.idle, hi.call⟩, rfl, rfl, rfl⟩

/-- Every report within capacity prints what the specification says. -/
theorem fidelityInv_report (hc : cfg.opts.summaryMode = false) {root : Nat} {sys : System τ}
    (hi : FidelityInv cfg root sys) {r : Report} {k : Kernel}
    (hk : Kernel.Step sys.kernel (some r) k) (hok : CapacityOk cfg root sys r) :
    FidelityInv cfg root ⟨k, loopBody cfg sys.tracer (.report r.stop), sys.log ++ [r]⟩ := by
  refine (trackInv_report hi.track hk hok).fidelity fun p => ?_
  have hact := actsLocally hk (hi.track.findsSlot hk hok) hok.1
  obtain ⟨hentry, hexit⟩ := hi.track.toggle hk
  rw [hact.trace, chunksOf_append, ownReports_concat]
  by_cases hp : r.stop.pid = p
  · rw [if_pos hp, if_pos hp, ownTrace_concat, hi.trace p, ← hp,
      own_texts hc (hi.call r.stop.pid) hok.1 hentry hexit]
  · rw [if_neg hp, if_neg hp]
    exact hi.trace p

theorem fidelityInv_step (hc : cfg.opts.summaryMode = false) (root : Nat) (sys : System τ)
    (r : Option Report) (sys' : System τ) (hi : FidelityInv cfg root sys)
    (hs : System.Step cfg sys r sys') (hok : ∀ q, r = some q → CapacityOk cfg root sys q) :
    FidelityInv cfg root sys' := by
  cases r with
  | none =>
      obtain ⟨htrack, hlog, htrace, -⟩ := trackInv_quiet hi.track hs
      exact htrack.fidelity fun p => by rw [hlog, htrace, hi.trace p]
  | some q =>
      cases hs with
      | report hleft hk => exact fidelityInv_report hc hi hk (hok _ rfl)

/-- In every run without `-c` that never has more registered processes than slots, the
chunks of a process are those of its own reports, however the reports of the other
processes are interleaved with them; in particular they are the same in every run that
reports the same of this process. -/
theorem trace_is_own_trace (cfg : Config τ) (hc : cfg.opts.summaryMode = false) (root : Nat)
    (sys : System τ) (h : System.Reachable cfg (CapacityOk cfg root) root sys) (p : Nat) :
    chunksOf p sys.tracer.trace = ownTrace cfg none (ownReports p sys.log) ∧
      ∀ root' sys', System.Reachable cfg (CapacityOk cfg root') root' sys' →
        ownReports p sys'.log = ownReports p sys.log →
          chunksOf p sys'.tracer.trace = chunksOf p sys.tracer.trace := by
  have hinv : ∀ r s, System.Reachable cfg (CapacityOk cfg r) r s →
      chunksOf p s.tracer.trace = ownTrace cfg none (ownReports p s.log) := fun r s hr =>
    (hr.induct ((trackInv_init r).fidelity fun _ => rfl) (fidelityInv_step hc r)).trace p
  refine ⟨hinv root sys h, fun root' sys' h' hsame => ?_⟩
  rw [hinv root' sys' h', hsame, hinv root sys h]

/-- Processes 1 and 2 are in `getpid` at the same time. -/
theorem trace_of_two :
    ∃ sys, System.Reachable (Config.plain followOptions)
        (CapacityOk (Config.plain followOptions) 1) 1 sys ∧
      sys.log.map (fun r => (r.stop.pid, r.kind)) =
        [(1, .forkEvent), (1, .entry), (2, .entry), (1, .exit)] ∧
      chunksOf 1 sys.tracer.trace =
        ownTrace (Config.plain followOptions) none (ownReports 1 sys.log) := by
  have h₀ : System.Reachable (Config.plain followOptions)
      (CapacityOk (Config.plain followOptions) 1) 1 (.init 1) := .refl
  have h₁ := h₀.create (p := 1) (c := 2) (by decide) (by decide)
  have h₂ := h₁.report (r := ⟨Stop.fork 1 2, .forkEvent⟩) rfl
    (.forkEvent (c := 2) (by decide) (by decide) (by decide) rfl)
    ⟨fun h => absurd h (by decide), by decide⟩
  have h₃ := h₂.report (r := ⟨getpidStop 1, .entry⟩) rfl
    (.entry (by decide) (by decide) (by decide) rfl) ⟨fun _ => rfl, by decide⟩
  have h₄ := h₃.report (r := ⟨getpidStop 2, .entry⟩) rfl
    (.entry (by decide) (by decide) (by decide) rfl) ⟨fun _ => rfl, by decide⟩
  have h₅ := h₄.report (r := ⟨getpidStop 1, .exit⟩) rfl
    (.exit (by decide) (by decide) (by decide) rfl) ⟨fun _ => rfl, by decide⟩
  exact ⟨_, h₅, rfl, (trace_is_own_trace _ rfl 1 _ h₅ 1).1⟩

end Fidelity

/-! ## Slots of the dead -/

/-- Registers are readable, and at most three processes are alive. -/
def FewLive (sys : System Nat) (r : Report) : Prop :=
  RegsReadable r ∧ sys.kernel.live.length ≤ 3

/-- Processes 1 and 2 run, none of them in a syscall; `n` more have come and gone, and have
slots all the same. -/
structure Leaked (n : Nat) (sys : System Nat) : Prop where
  live : sys.kernel.live = [1, 2]
  pending : sys.kernel.pending = []
  left : sys.tracer.left = none
  active : sys.tracer.activeCount = 2
  tracked : sys.tracer.tracees.keys.Perm (List.range' 1 (n + 2))
  trace : sys.tracer.trace = []
  summary : sys.tracer.summary = []
  log : ∀ r ∈ sys.log, r.kind ≠ .exit ∧ r.stop.pid ≠ 65

section Leak

variable {opts : Options}

/-- Process 1 creates process 2, and the fork event is reported at once. -/
theorem leaked_start (hf : opts.followForks = true) :
    ∃ sys, System.Reachable (Config.plain opts) FewLive 1 sys ∧ Leaked 0 sys := by
  have hkeys : (Tracer.init 1 : Tracer Nat).tracees.keys.Perm (List.range' 1 1) := by
    rw [keys_init]
    exact List.Perm.refl _
  obtain ⟨-, t, ht, hperm⟩ := addTracee_next hkeys (by decide)
  have h₀ : System.Reachable (Config.plain opts) FewLive 1 (.init 1) := .refl
  have h₁ := h₀.create (p := 1) (c := 2) (by decide) (by decide)
  have h₂ := h₁.report (r := ⟨Stop.fork 1 2, .forkEvent⟩) rfl
    (.forkEvent (c := 2) (by decide) (by decide) (by decide) rfl)
    ⟨fun h => absurd h (by decide), by decide⟩
  obtain ⟨msgs, hbody⟩ := loopBody_forkEvent (Config.plain opts) (Stop.stopped_fork 1 2)
    (Stop.isForkEvent_fork 1 2) hf rfl ht
  simp only [System.init, hbody] at h₂
  exact ⟨_, h₂, rfl, rfl, rfl, rfl, hperm, rfl, rfl, by simp [Stop.fork, Stop.plain]⟩

/-- Process 1 creates a process that is gone before the fork event is reported. -/
theorem leak_one (hf : opts.followForks = true) {n : Nat} (hn : n < 62) {sys : System Nat}
    (h : System.Reachable (Config.plain opts) FewLive 1 sys) (hl : Leaked n sys) :
    ∃ sys', System.Reachable (Config.plain opts) FewLive 1 sys' ∧ Leaked (n + 1) sys' := by
  obtain ⟨hlive, hpend, hleft, hactive, hkeys, htrace, hsum, hlog⟩ := hl
  have hnew := (addTracee_next hkeys (show n + 2 < maxTracees by simp [maxTracees]; omega)).1
  have h₁ := h.create (p := 1) (c := n + 3) (by simp [hlive]) (by simp [hlive])
  have h₂ := h₁.report (r := ⟨Stop.plain (n + 3) 0, .gone⟩) hleft
    (.gone (by simp [Stop.plain]) (by simp [hpend, Stop.plain]) rfl)
    ⟨fun h => absurd h (by simp), by simp [hlive]⟩
  -- the count goes down to one, and there is no slot to free
  obtain ⟨st, hgone, hleft₁, hactive₁, hkeys₁, htrace₁, hsum₁⟩ :
      ∃ st, loopBody (Config.plain opts) sys.tracer (.report (Stop.plain (n + 3) 0)) = st ∧
        st.left = none ∧ st.activeCount = 1 ∧ st.tracees.keys.Perm (List.range' 1 (n + 2)) ∧
        st.trace = [] ∧ st.summary = [] := by
    refine ⟨_, handleReport_gone _ rfl sys.tracer, ?_, ?_, ?_, htrace, hsum⟩
    · simp [handleGone, hactive]
    · simp [handleGone, hactive]
    · have hsame := (SlotTable.keys_remove _ (n + 3)).trans (List.erase_of_not_mem hnew)
      exact (List.Perm.of_eq hsame).trans hkeys
  simp only [hgone] at h₂
  -- the event finds one for the dead child
  have h₃ := h₂.report (r := ⟨Stop.fork 1 (n + 3), .forkEvent⟩) hleft₁
    (.forkEvent (c := n + 3) (by simp [Stop.fork, Stop.plain]) (Stop.stopped_fork 1 (n + 3))
      (Stop.isForkEvent_fork 1 (n + 3)) rfl)
    ⟨fun h => absurd h (by simp), by simp [hlive, Stop.plain]⟩
  obtain ⟨-, t, ht, hperm⟩ := addTracee_next hkeys₁ (by simp [maxTracees]; omega)
  obtain ⟨msgs, hbody⟩ := loopBody_forkEvent (Config.plain opts) (Stop.stopped_fork 1 (n + 3))
    (Stop.isForkEvent_fork 1 (n + 3)) hf rfl ht
  simp only [hbody] at h₃
  refine ⟨_, h₃, ?_, ?_, hleft₁, by rw [hactive₁]; rfl, hperm, htrace₁, hsum₁, ?_⟩
  · simp [hlive, Stop.plain]
  · simp [hpend, Stop.fork, Stop.plain]
  · simp only [List.mem_append, List.mem_singleton]
    rintro r ((hr | rfl) | rfl)
    · exact hlog r hr
    · exact ⟨by simp, by simp [Stop.plain]; omega⟩
    · exact ⟨by simp, by simp [Stop.fork, Stop.plain]⟩

/-- After 62 of them the table is full. -/
theorem leak (hf : opts.followForks = true) {n : Nat} (hn : n ≤ 62) :
    ∃ sys, System.Reachable (Config.plain opts) FewLive 1 sys ∧ Leaked n sys := by
  induction n with
  | zero => exact leaked_start hf
  | succ n ih =>
      obtain ⟨sys, h, hl⟩ := ih (by omega)
      exact leak_one hf hn h hl

/-- Process 65 is the third one alive and finds no slot: its fork event is not counted, and
its call is passed over. -/
theorem lost_call (hf : opts.followForks = true) :
    ∃ sys rs, System.Reachable (Config.plain opts) FewLive 1 sys ∧
      sys.kernel.live = [1, 2, 65] ∧ sys.kernel.pending = [] ∧
      sys.tracer.left = none ∧ sys.tracer.activeCount = 2 ∧
      sys.tracer.trace = [] ∧ sys.tracer.summary = [] ∧
      sys.log = rs ++ [⟨getpidStop 65, .entry⟩, ⟨getpidStop 65, .exit⟩] ∧
      ∀ r ∈ rs, r.kind ≠ .exit ∧ r.stop.pid ≠ 65 := by
  obtain ⟨sys, h₀, hlive, hpend, hleft, hactive, hkeys, htrace, hsum, hlog⟩ :=
    leak hf (le_refl 62)
  obtain ⟨-, hfull⟩ := addTracee_full hkeys
  have h₁ := h₀.create (p := 1) (c := 65) (by simp [hlive]) (by simp [hlive])
  have hfork : loopBody (Config.plain opts) sys.tracer (.report (Stop.fork 1 65)) =
      sys.tracer := by
    rw [loopBody, handleReport_forkEvent _ (Stop.stopped_fork 1 65) (Stop.isForkEvent_fork 1 65),
      if_pos (show (Config.plain opts).opts.followForks = true from hf)]
    simp only [handleForkEvent, show (Stop.fork 1 65).eventMsg = some 65 from rfl, hfull]
  have h₂ := h₁.report (r := ⟨Stop.fork 1 65, .forkEvent⟩) hleft
    (.forkEvent (c := 65) (by simp [Stop.fork, Stop.plain]) (Stop.stopped_fork 1 65)
      (Stop.isForkEvent_fork 1 65) rfl) ⟨fun h => absurd h (by simp), by simp [hlive]⟩
  simp only [hfork] at h₂
  have h₃ := h₂.report (r := ⟨getpidStop 65, .entry⟩) hleft
    (.entry (by simp [getpidStop, Stop.plain]) rfl rfl (by simp [getpidStop, Stop.plain]))
    ⟨fun _ => rfl, by simp [hlive]⟩
  simp only [loopBody_dropped _ hfull] at h₃
  have h₄ := h₃.report (r := ⟨getpidStop 65, .exit⟩) hleft
    (.exit (by simp [getpidStop, Stop.plain]) rfl rfl (by simp [getpidStop, Stop.plain]))
    ⟨fun _ => rfl, by simp [hlive]⟩
  simp only [loopBody_dropped _ hfull] at h₄
  refine ⟨_, sys.log ++ [⟨Stop.fork 1 65, .forkEvent⟩], h₄, by simp [hlive], ?_, hleft, hactive,
    htrace, hsum, by simp, ?_⟩
  · simp [hpend, Stop.fork, Stop.plain]
  · simp only [List.mem_append, List.mem_singleton]
    rintro r (hr | rfl)
    · exact hlog r hr
    · exact ⟨by simp, by simp [Stop.fork, Stop.plain]⟩

end Leak

/-- Never more than three processes are alive, and nothing of what process 65 does is
shown. -/
theorem trace_loses_calls :
    ∃ sys, System.Reachable (Config.plain followOptions) FewLive 1 sys ∧
      sys.kernel.live.length ≤ 3 ∧ chunksOf 65 sys.tracer.trace = [] ∧
      ownTrace (Config.plain followOptions) none (ownReports 65 sys.log) =
        [lit "[pid 65] getpid() ", lit "= 0\n"] := by
  obtain ⟨sys, rs, h, hlive, -, -, -, htrace, -, hlog, hrs⟩ :=
    lost_call (show followOptions.followForks = true from rfl)
  have hown : ownReports 65 sys.log = [⟨getpidStop 65, .entry⟩, ⟨getpidStop 65, .exit⟩] := by
    rw [hlog, ownReports, List.filter_append, ← ownReports,
      ownReports_eq_nil fun r hr => (hrs r hr).2]
    rfl
  refine ⟨sys, h, by rw [hlive]; decide, by rw [htrace]; rfl, ?_⟩
  rw [hown]
  decide +kernel

end MiniStrace
