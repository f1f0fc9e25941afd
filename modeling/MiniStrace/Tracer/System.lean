/-
  Tracer/System.lean --- the tracer together with the processes it traces.

  THE KERNEL.  A process creates others, stops, and is eventually gone.  Creating a
  process owes the tracer one fork event on the parent, delivered before the parent is
  gone; the child itself may run, stop and even be gone before that event.  The
  syscall-stops of a process alternate between entry and exit, starting with an entry,
  and a pid may be given out again once its process is gone.  In which order the
  processes are reported is left open.

  THE SYSTEM.  A kernel, a tracer, and the log of what was reported so far.  Steps
  carry the report they deliver, so that a property of runs can be stated relative to
  a condition on every report of the run.
-/
import Mathlib.Logic.Relation
import Mathlib.Data.List.Perm.Basic
import MiniStrace.Tracer.Step

set_option autoImplicit false

namespace MiniStrace

open CLib

/-! ## The kernel -/

/-- The processes as the kernel knows them.  A process is live from its creation until it is
reported as gone; that report takes it off the list, so every process is reported as gone
exactly once if it ends at all. -/
structure Kernel where
  /-- the processes not yet reported as gone, oldest first -/
  live : List Nat
  /-- the creations (parent, child) whose event is still to come -/
  pending : List (Nat × Nat)
  /-- the process is between a syscall's entry-stop and its exit-stop -/
  inCall : Nat → Bool

/-- What the kernel reports a process for. -/
inductive Kind where
  | entry
  | exit
  | signal
  | forkEvent
  | gone
  deriving DecidableEq, Repr

/-- Whether a process is inside a syscall after a report of it. -/
def Kind.inCallAfter : Kind → Bool → Bool
  | .entry, _ => true
  | .exit, _ | .gone, _ => false
  | .signal, b | .forkEvent, b => b

/-- A reported status, with what the kernel meant by it. -/
structure Report where
  stop : Stop
  kind : Kind

namespace Kernel

/-- One process, outside any syscall. -/
def init (root : Nat) : Kernel := ⟨[root], [], fun _ => false⟩

/-- What the kernel can do; a step that `waitpid` reports carries the report. -/
inductive Step : Kernel → Option Report → Kernel → Prop
  | create {k : Kernel} {p c : Nat} : p ∈ k.live → c ∉ k.live →
      Step k none
        { live := k.live ++ [c], pending := k.pending ++ [(p, c)],
          inCall := Function.update k.inCall c false }
  | forkEvent {k : Kernel} {s : Stop} {c : Nat} : (s.pid, c) ∈ k.pending →
      wIfStopped s.status = true → s.isForkEvent = true → s.eventMsg = some c →
      Step k (some ⟨s, .forkEvent⟩) { k with pending := k.pending.erase (s.pid, c) }
  | signal {k : Kernel} {s : Stop} : s.pid ∈ k.live → wIfStopped s.status = true →
      s.isForkEvent = false → s.isSyscallStop = false → Step k (some ⟨s, .signal⟩) k
  | syscall {k : Kernel} {s : Stop} : s.pid ∈ k.live → wIfStopped s.status = true →
      s.isSyscallStop = true →
      Step k (some ⟨s, if k.inCall s.pid then .exit else .entry⟩)
        { k with inCall := Function.update k.inCall s.pid (!k.inCall s.pid) }
  | gone {k : Kernel} {s : Stop} : s.pid ∈ k.live → (∀ c, (s.pid, c) ∉ k.pending) →
      s.isGone = true →
      Step k (some ⟨s, .gone⟩)
        { k with live := k.live.erase s.pid, inCall := Function.update k.inCall s.pid false }

variable {k : Kernel} {s : Stop}

/-- The syscall-stop of a process outside any syscall. -/
theorem Step.entry (hp : s.pid ∈ k.live) (hs : wIfStopped s.status = true)
    (hc : s.isSyscallStop = true) (hout : k.inCall s.pid = false) :
    Step k (some ⟨s, .entry⟩) { k with inCall := Function.update k.inCall s.pid true } := by
  have h := Step.syscall hp hs hc
  simpa only [hout, Bool.not_false, Bool.false_eq_true, if_false] using h

/-- The syscall-stop of a process inside a syscall. -/
theorem Step.exit (hp : s.pid ∈ k.live) (hs : wIfStopped s.status = true)
    (hc : s.isSyscallStop = true) (hin : k.inCall s.pid = true) :
    Step k (some ⟨s, .exit⟩) { k with inCall := Function.update k.inCall s.pid false } := by
  have h := Step.syscall hp hs hc
  simpa only [hin, Bool.not_true, if_true] using h

variable {k' : Kernel}

/-- An entry is reported outside a syscall and an exit inside one. -/
theorem Step.inCall_before {r : Report} (h : Step k (some r) k') :
    (r.kind = .entry → k.inCall r.stop.pid = false) ∧
      (r.kind = .exit → k.inCall r.stop.pid = true) := by
  cases h with
  | @syscall s => cases hb : k.inCall s.pid <;> simp
  | forkEvent | signal | gone => exact ⟨fun h => absurd h (by simp), fun h => absurd h (by simp)⟩

/-- Entries and exits are syscall-stops. -/
theorem Step.isSyscallStop {r : Report} (h : Step k (some r) k')
    (hr : r.kind = .entry ∨ r.kind = .exit) :
    wIfStopped r.stop.status = true ∧ r.stop.isSyscallStop = true := by
  cases h with
  | syscall _ hs hc => exact ⟨hs, hc⟩
  | forkEvent | signal | gone => simp at hr

/-- A report changes the phase of its own process only. -/
theorem Step.inCall_after {r : Report} (h : Step k (some r) k') (q : Nat) :
    k'.inCall q = if q = r.stop.pid then r.kind.inCallAfter (k.inCall q) else k.inCall q := by
  cases h with
  | forkEvent | signal => exact (ite_self _).symm
  | @syscall s =>
      simp only [Function.update_apply]
      by_cases hq : q = s.pid
      · rw [if_pos hq, if_pos hq, hq]
        cases k.inCall s.pid <;> rfl
      · rw [if_neg hq, if_neg hq]
  | gone => exact Function.update_apply _ _ _ _

/-- A process that is not live is outside any syscall. -/
def Idle (k : Kernel) : Prop := ∀ q, q ∉ k.live → k.inCall q = false

theorem Idle.step {r : Option Report} (hi : k.Idle) (h : Step k r k') : k'.Idle := by
  intro q hq
  cases h with
  | @create p c hp hc =>
      rw [List.mem_append, not_or, List.mem_singleton] at hq
      simp only [Function.update_of_ne hq.2]
      exact hi q hq.1
  | forkEvent | signal => exact hi q hq
  | @syscall s hmem hs hc =>
      have hne : q ≠ s.pid := fun e => hq (e ▸ hmem)
      simp only [Function.update_of_ne hne]
      exact hi q hq
  | @gone s hmem hparent hgone =>
      by_cases hqs : q = s.pid
      · simp only [hqs, Function.update_self]
      · simp only [Function.update_of_ne hqs]
        exact hi q fun hm => hq ((List.mem_erase_of_ne hqs).mpr hm)

end Kernel

/-! ## Runs -/

structure System (τ : Type) where
  kernel : Kernel
  tracer : Tracer τ
  log : List Report

namespace System

variable {τ : Type} [Zero τ] [Add τ]

/-- `run_tracer` about to enter its loop. -/
def init (root : Nat) : System τ := ⟨.init root, .init root, []⟩

/-- One step; the tracer takes part in those that deliver something to `waitpid`. -/
inductive Step (cfg : Config τ) : System τ → Option Report → System τ → Prop
  | silent {sys : System τ} {k : Kernel} : Kernel.Step sys.kernel none k →
      Step cfg sys none { sys with kernel := k }
  | report {sys : System τ} {r : Report} {k : Kernel} : sys.tracer.left = none →
      Kernel.Step sys.kernel (some r) k →
      Step cfg sys (some r)
        ⟨k, loopBody cfg sys.tracer (.report r.stop), sys.log ++ [r]⟩
  | interrupted {sys : System τ} : sys.tracer.left = none →
      Step cfg sys none { sys with tracer := loopBody cfg sys.tracer .interrupted }
  | noChild {sys : System τ} : sys.tracer.left = none → sys.kernel.live = [] →
      Step cfg sys none { sys with tracer := loopBody cfg sys.tracer .noChild }

/-- The states of the runs from `root` in which every report satisfies `ok` when it is
delivered. -/
def Reachable (cfg : Config τ) (ok : System τ → Report → Prop) (root : Nat) :
    System τ → Prop :=
  Relation.ReflTransGen (fun sys sys' => ∃ r, Step cfg sys r sys' ∧ ∀ q, r = some q → ok sys q)
    (init root)

/-- An invariant of the steps that satisfy `ok` holds in every state of such a run. -/
theorem Reachable.induct {cfg : Config τ} {ok : System τ → Report → Prop} {root : Nat}
    {inv : System τ → Prop} (base : inv (init root))
    (step : ∀ sys r sys', inv sys → Step cfg sys r sys' → (∀ q, r = some q → ok sys q) → inv sys')
    {sys : System τ} (h : Reachable cfg ok root sys) : inv sys := by
  induction h with
  | refl => exact base
  | tail _ hstep ih =>
      obtain ⟨r, hs, hok⟩ := hstep
      exact step _ r _ ih hs hok

theorem Reachable.create {cfg : Config τ} {ok : System τ → Report → Prop} {root p c : Nat}
    {sys : System τ} (h : Reachable cfg ok root sys) (hp : p ∈ sys.kernel.live)
    (hc : c ∉ sys.kernel.live) :
    Reachable cfg ok root
      { sys with
        kernel :=
          { live := sys.kernel.live ++ [c], pending := sys.kernel.pending ++ [(p, c)],
            inCall := Function.update sys.kernel.inCall c false } } :=
  h.tail ⟨none, .silent (.create hp hc), fun _ hq => absurd hq (by simp)⟩

theorem Reachable.report {cfg : Config τ} {ok : System τ → Report → Prop} {root : Nat}
    {sys : System τ} (h : Reachable cfg ok root sys) {r : Report} {k : Kernel}
    (hleft : sys.tracer.left = none) (hk : Kernel.Step sys.kernel (some r) k) (hok : ok sys r) :
    Reachable cfg ok root ⟨k, loopBody cfg sys.tracer (.report r.stop), sys.log ++ [r]⟩ :=
  h.tail ⟨some r, .report hleft hk, fun q hq => by
    injection hq with hq
    exact hq ▸ hok⟩

end System

/-- A setup with nothing special about it: no filter, no library names, one syscall. -/
def Config.plain (opts : Options) : Config Nat where
  host := default
  opts := opts
  filter := []
  syscallName := fun n => if n = 39 then "getpid" else "unknown"
  elapsed := fun _ _ => 0
  timing := fun _ => []

/-- `-f` and nothing else. -/
def followOptions : Options := ⟨true, false, false, false⟩

/-- A report of `pid` with the given status, from a process with nothing mapped. -/
def Stop.plain (pid status : Nat) : Stop := ⟨pid, status, none, none, fun _ => none,
  fun _ => none, ⟨0, 0⟩⟩

/-- The fork event of `pid` for its child. -/
def Stop.fork (pid child : Nat) : Stop := { Stop.plain pid 0x1057f with eventMsg := some child }

theorem Stop.stopped_fork (pid child : Nat) : wIfStopped (Stop.fork pid child).status = true := by
  simp only [Stop.fork, Stop.plain]
  decide

theorem Stop.isForkEvent_fork (pid child : Nat) : (Stop.fork pid child).isForkEvent = true := by
  simp only [Stop.isForkEvent, Stop.stopsig, Stop.event, Stop.fork, Stop.plain]
  decide

/-! ## Which branch of the loop a report takes -/

section Branches

variable {τ : Type} [Zero τ] [Add τ] (cfg : Config τ)

theorem not_isGone {s : Stop} (h : wIfStopped s.status = true) : s.isGone = false := by
  simp only [wIfStopped, beq_iff_eq] at h
  have hsig : wTermSig s.status = 0x7f := by
    unfold wTermSig
    omega
  simp [Stop.isGone, wIfExited, wIfSignaled, hsig]

theorem not_isForkEvent {s : Stop} (h : s.isSyscallStop = true) : s.isForkEvent = false := by
  simp only [Stop.isSyscallStop, beq_iff_eq] at h
  simp [Stop.isForkEvent, h, Stop.sigtrap]

theorem not_isSyscallStop {s : Stop} (h : s.isForkEvent = true) : s.isSyscallStop = false := by
  by_contra hs
  rw [not_isForkEvent (by simpa using hs)] at h
  exact absurd h (by decide)

theorem handleReport_gone {s : Stop} (h : s.isGone = true) (st : Tracer τ) :
    handleReport cfg st s = handleGone cfg st s := by
  rw [handleReport, if_pos h]

theorem handleReport_forkEvent {s : Stop} (hs : wIfStopped s.status = true)
    (he : s.isForkEvent = true) (st : Tracer τ) :
    handleReport cfg st s =
      if cfg.opts.followForks then handleForkEvent st s else handleSignalStop cfg st s := by
  rw [handleReport, if_neg (by simp [not_isGone hs]), if_neg (by simp [hs])]
  cases cfg.opts.followForks <;> simp [he, not_isSyscallStop he]

/-- A fork event whose child gets a slot. -/
theorem loopBody_forkEvent {s : Stop} (hs : wIfStopped s.status = true)
    (he : s.isForkEvent = true) (hf : cfg.opts.followForks = true) {c : Nat}
    (hm : s.eventMsg = some c) {st : Tracer τ} {t : Tracees}
    (ht : st.tracees.addTracee c = some t) :
    ∃ msgs, loopBody cfg st (.report s) =
      { st with tracees := t, activeCount := st.activeCount + 1, status := msgs } := by
  rw [loopBody, handleReport_forkEvent cfg hs he, if_pos hf]
  simp only [handleForkEvent, hm, ht]
  exact ⟨_, rfl⟩

theorem handleReport_signal {s : Stop} (hs : wIfStopped s.status = true)
    (he : s.isForkEvent = false) (hc : s.isSyscallStop = false) (st : Tracer τ) :
    handleReport cfg st s = handleSignalStop cfg st s := by
  rw [handleReport, if_neg (by simp [not_isGone hs]), if_neg (by simp [hs])]
  simp [he, hc]

theorem handleReport_syscall {s : Stop} (hs : wIfStopped s.status = true)
    (hc : s.isSyscallStop = true) (st : Tracer τ) :
    handleReport cfg st s = handleSyscallStop cfg st s := by
  rw [handleReport, if_neg (by simp [not_isGone hs]), if_neg (by simp [hs])]
  simp [not_isForkEvent hc, hc]

end Branches

end MiniStrace
