/-
  Tracer/Local.lean --- a report acts on its own process only.

  As long as every process that has to be registered finds a slot, the table behaves
  like a map from pids to states in which an absent pid has the state of a new slot.
  Handling a report then changes the state of the reported process by a function of
  that state, appends chunks labelled with its pid, and leaves every other process
  where it was.
-/
import MiniStrace.Tracer.Toggle

set_option autoImplicit false

namespace MiniStrace

open CLib

/-! ## The table as a map -/

namespace Tracees

theorem stateOf_add {t t' : Tracees} {pid : Nat} (h : t.addTracee pid = some t') (q : Nat) :
    t'.stateOf q = t.stateOf q := by
  unfold stateOf
  rw [SlotTable.find_of_add h]
  split_ifs with hq
  · rw [hq]
    rfl
  · rfl

theorem stateOf_remove (t : Tracees) (pid q : Nat) :
    (t.removeTracee pid).stateOf q = if q = pid then .zeroed else t.stateOf q := by
  unfold stateOf
  rw [SlotTable.find_remove]
  split_ifs <;> rfl

theorem mem_keys_add {t t' : Tracees} {pid : Nat} (h : t.addTracee pid = some t') (q : Nat) :
    q ∈ t'.keys ↔ q = pid ∨ q ∈ t.keys := by
  rcases SlotTable.add_eq_some h with ⟨hm, rfl⟩ | ⟨-, hperm, -⟩
  · exact ⟨Or.inr, fun hq => hq.elim (fun e => e ▸ hm) id⟩
  · rw [hperm.mem_iff, List.mem_cons]

theorem mem_keys_remove (t : Tracees) (pid q : Nat) :
    q ∈ (t.removeTracee pid).keys ↔ q ≠ pid ∧ q ∈ t.keys := by
  rw [SlotTable.keys_remove, (SlotTable.nodup_keys t).mem_erase_iff]

end Tracees

/-! ## The effect of a report -/

section Effect

variable {τ : Type} (cfg : Config τ)

/-- The state of a process after a report of it. -/
def localState (r : Report) (ts : TraceeState) : TraceeState :=
  match r.kind with
  | .gone => .zeroed
  | .signal | .forkEvent => ts
  | .entry | .exit => match r.stop.regs with
    | none => ts
    | some regs => if ts.inSyscall then exitState ts else entryState cfg r.stop regs ts

/-- What a report makes the tracer print. -/
def localTexts (r : Report) (ts : TraceeState) : List Text :=
  match r.kind with
  | .gone | .forkEvent => []
  | .signal =>
      let deliver := if r.stop.stopsig ≠ Stop.sigtrap then r.stop.stopsig else 0
      if deliver ≠ 0 then [signalLine cfg.host cfg.opts r.stop.pid deliver] else []
  | .entry | .exit => match r.stop.regs with
    | none => []
    | some regs =>
        if ts.inSyscall then exitTexts cfg r.stop regs ts else entryTexts cfg r.stop regs

/-- Every process the report registers has a slot or finds one. -/
def FindsSlot (st : Tracer τ) (r : Report) : Prop :=
  ∀ q, r.stop.registers cfg = some q → st.tracees.addTracee q ≠ none

/-- What handling a report does, from the point of view of the processes. -/
structure ActsLocally (st st' : Tracer τ) (r : Report) : Prop where
  keys : ∀ q, q ∈ st'.tracees.keys ↔
    r.stop.registers cfg = some q ∨ (¬ (r.kind = .gone ∧ q = r.stop.pid) ∧ q ∈ st.tracees.keys)
  states : ∀ q, st'.tracees.stateOf q =
    if q = r.stop.pid then localState cfg r (st.tracees.stateOf r.stop.pid)
    else st.tracees.stateOf q
  trace : st'.trace =
    st.trace ++ (localTexts cfg r (st.tracees.stateOf r.stop.pid)).map (⟨r.stop.pid, ·⟩)

variable {cfg}

/-- A step that only registers a process. -/
theorem ActsLocally.of_add {st st' : Tracer τ} {r : Report} {k : Nat} {t : Tracees}
    (hkind : r.kind = .signal ∨ r.kind = .forkEvent) (hreg : r.stop.registers cfg = some k)
    (ht : st.tracees.addTracee k = some t) (htr : st'.tracees = t)
    (htrace : st'.trace =
      st.trace ++ (localTexts cfg r (st.tracees.stateOf r.stop.pid)).map (⟨r.stop.pid, ·⟩)) :
    ActsLocally cfg st st' r where
  keys := by
    intro q
    have hk : r.kind ≠ .gone := by rcases hkind with h | h <;> simp [h]
    rw [htr, Tracees.mem_keys_add ht, hreg, Option.some.injEq]
    simp only [hk, false_and, not_false_eq_true, true_and, eq_comm]
  states := by
    intro q
    have hstate : localState cfg r (st.tracees.stateOf r.stop.pid) =
        st.tracees.stateOf r.stop.pid := by
      rcases hkind with h | h <;> simp [localState, h]
    rw [htr, Tracees.stateOf_add ht, hstate]
    split_ifs with hq
    · rw [hq]
    · rfl
  trace := htrace

theorem actsLocally_signalStop {st : Tracer τ} {r : Report}
    (hkind : r.kind = .signal ∨ r.kind = .forkEvent ∧ r.stop.stopsig = Stop.sigtrap)
    (hreg : r.stop.registers cfg = some r.stop.pid) (hslot : FindsSlot cfg st r) :
    ActsLocally cfg st (handleSignalStop cfg st r.stop) r := by
  obtain ⟨t, ht⟩ := Option.ne_none_iff_exists'.mp (hslot _ hreg)
  refine .of_add (hkind.imp_right (·.1)) hreg ht (by simp only [handleSignalStop, ht]; rfl) ?_
  rcases hkind with h | ⟨h, hsig⟩
  · simp only [handleSignalStop, localTexts, h]
    split_ifs <;> rfl
  · simp [handleSignalStop, localTexts, h, hsig]

theorem actsLocally_forkEvent {st : Tracer τ} {r : Report} (hkind : r.kind = .forkEvent)
    {c : Nat} (hmsg : r.stop.eventMsg = some c) (hreg : r.stop.registers cfg = some c)
    (hslot : FindsSlot cfg st r) : ActsLocally cfg st (handleForkEvent st r.stop) r := by
  obtain ⟨t, ht⟩ := Option.ne_none_iff_exists'.mp (hslot _ hreg)
  refine .of_add (Or.inr hkind) hreg ht ?_ ?_
  · simp only [handleForkEvent, hmsg, ht]
  · simp [handleForkEvent, hmsg, ht, localTexts, hkind]

theorem actsLocally_gone {st : Tracer τ} {r : Report} (hkind : r.kind = .gone)
    (hgone : r.stop.isGone = true) : ActsLocally cfg st (handleGone cfg st r.stop) r where
  keys := by
    intro q
    have hreg : r.stop.registers cfg = none := by rw [Stop.registers, if_pos hgone]
    simp only [handleGone, Tracees.mem_keys_remove, hreg, hkind, true_and, reduceCtorEq, false_or,
      ne_eq]
  states := by
    intro q
    simp only [handleGone, Tracees.stateOf_remove, localState, hkind]
  trace := by simp [handleGone, localTexts, hkind]

variable [Zero τ] [Add τ]

theorem actsLocally_syscall {st : Tracer τ} {r : Report} (hkind : r.kind = .entry ∨ r.kind = .exit)
    (hreg : r.stop.registers cfg = some r.stop.pid) (hslot : FindsSlot cfg st r)
    (hregs : RegsReadable r) : ActsLocally cfg st (handleSyscallStop cfg st r.stop) r := by
  obtain ⟨t, ht⟩ := Option.ne_none_iff_exists'.mp (hslot _ hreg)
  obtain ⟨regs, hr⟩ := Option.isSome_iff_exists.mp (hregs hkind)
  have hkeys : (handleSyscallStop cfg st r.stop).tracees.keys = t.keys := by
    rw [handleSyscallStop_eq cfg ht hr, handleRegs]
    split <;> exact SlotTable.keys_modify _ _ _
  refine ⟨fun q => ?_, fun q => ?_, ?_⟩
  · have hk : r.kind ≠ .gone := by rcases hkind with h | h <;> simp [h]
    rw [hkeys, Tracees.mem_keys_add ht, hreg, Option.some.injEq]
    simp only [hk, false_and, not_false_eq_true, true_and, eq_comm]
  · have hstate : localState cfg r (st.tracees.stateOf r.stop.pid) =
        (if (st.tracees.stateOf r.stop.pid).inSyscall then exitState
          else entryState cfg r.stop regs) (st.tracees.stateOf r.stop.pid) := by
      rcases hkind with h | h <;> simp only [localState, h, hr] <;> split_ifs <;> rfl
    rw [Tracees.stateOf, handleSyscallStop_eq cfg ht hr, find_handleRegs, hstate,
      find_addTracee_self ht]
    by_cases hq : q = r.stop.pid
    · rw [if_pos hq, if_pos hq]
      rfl
    · rw [if_neg hq, if_neg hq]
      exact Tracees.stateOf_add ht q
  · rw [handleSyscallStop_eq cfg ht hr, handleRegs]
    rcases hkind with h | h <;> cases hb : (st.tracees.stateOf r.stop.pid).inSyscall <;>
      simp [localTexts, h, hr, hb]

/-- Every report the kernel delivers acts on its own process only. -/
theorem actsLocally {st : Tracer τ} {r : Report} {k k' : Kernel}
    (hk : Kernel.Step k (some r) k') (hslot : FindsSlot cfg st r) (hregs : RegsReadable r) :
    ActsLocally cfg st (loopBody cfg st (.report r.stop)) r := by
  cases hk with
  | @forkEvent s c hmem hs he hmsg =>
      rw [loopBody, handleReport_forkEvent cfg hs he]
      by_cases hf : cfg.opts.followForks = true
      · rw [if_pos hf]
        exact actsLocally_forkEvent rfl hmsg ((registers_of_forkEvent hs hf he).trans hmsg) hslot
      · rw [if_neg hf]
        have hsig : s.stopsig = Stop.sigtrap := by
          simp only [Stop.isForkEvent, Bool.and_eq_true, beq_iff_eq] at he
          exact he.1
        exact actsLocally_signalStop (r := ⟨s, .forkEvent⟩) (Or.inr ⟨rfl, hsig⟩)
          (registers_of_stopped cfg hs (by simp [hf])) hslot
  | @signal s hmem hs he hc =>
      rw [loopBody, handleReport_signal cfg hs he hc]
      exact actsLocally_signalStop (r := ⟨s, .signal⟩) (Or.inl rfl)
        (registers_of_stopped cfg hs (by simp [he])) hslot
  | @syscall s hmem hs hc =>
      rw [loopBody, handleReport_syscall cfg hs hc]
      refine actsLocally_syscall ?_ (registers_of_stopped cfg hs (by simp [not_isForkEvent hc]))
        hslot hregs
      cases k.inCall s.pid <;> simp
  | @gone s hmem hparent hgone =>
      rw [loopBody, handleReport_gone cfg hgone]
      exact actsLocally_gone (r := ⟨s, .gone⟩) rfl hgone

end Effect

end MiniStrace
