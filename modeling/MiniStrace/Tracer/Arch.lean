/-
  Tracer/Arch.lean --- the other half of `arch.h`: ARM64.

  THE REGISTERS.  On x86-64 the number of a call and its result have registers of their own
  (`orig_rax`, `rax`), and the argument registers survive the call.  On ARM64 the result
  comes back in `x0`, which held the first argument at the entry-stop; the number is in `x8`
  at both stops, and the numbering is another one.

  WHAT DOES NOT DEPEND ON THEM.  At an entry-stop the loop reads the number and the arguments,
  at an exit-stop only the result; a call that is printed at its exit takes its arguments
  from the slot.  So where the reports on both machines tell of the same calls, the observer
  sees the same events, with the same names, argument values and results, and the same
  messages are printed.

  WHAT DOES.  Nothing is said here of the text of a call on ARM64.  The decoders are compiled
  against the headers of the machine, and layouts and flag values differ there: those of
  `struct stat`, `struct epoll_event` and the `O_` flags, among others.
-/
import MiniStrace.Tracer.Accounting

set_option autoImplicit false

namespace MiniStrace

open CLib

/-! ## ARM64 -/

namespace Aarch64

/-- The general registers of `user_regs_struct`. -/
structure Regs where
  regs : Fin 31 → Word

def syscallNoOf (r : Regs) : Int := (r.regs 8).toInt

def returnValOf (r : Regs) : Int := (r.regs 0).toInt

/-- `arg0` to `arg5`. -/
def argsOf (r : Regs) : Args
  | 0 => r.regs 0
  | 1 => r.regs 1
  | 2 => r.regs 2
  | 3 => r.regs 3
  | 4 => r.regs 4
  | _ => r.regs 5

/-- What the accessors see, in the places where those of x86-64 look for it. -/
def Regs.view (r : Regs) : MiniStrace.Regs where
  origRax := r.regs 8
  rax := r.regs 0
  rdi := r.regs 0
  rsi := r.regs 1
  rdx := r.regs 2
  r10 := r.regs 3
  r8 := r.regs 4
  r9 := r.regs 5

theorem view_accessors (r : Regs) :
    MiniStrace.syscallNoOf r.view = syscallNoOf r ∧
      MiniStrace.returnValOf r.view = returnValOf r ∧ MiniStrace.argsOf r.view = argsOf r := by
  refine ⟨rfl, rfl, ?_⟩
  funext i
  match i with
  | 0 | 1 | 2 | 3 | 4 | _ + 5 => rfl

end Aarch64

/-! ## The same call on both -/

/-- The registers of x86-64 and those of ARM64 at a stop say the same of a call: at an entry
its name and its arguments, at an exit its result. -/
def SameCall (names armNames : Int → String) (kind : Kind) (x86 : Regs) (arm : Aarch64.Regs) :
    Prop :=
  match kind with
  | .entry =>
      names (syscallNoOf x86) = armNames (Aarch64.syscallNoOf arm) ∧ argsOf x86 = Aarch64.argsOf arm
  | .exit => returnValOf x86 = Aarch64.returnValOf arm
  | .signal | .forkEvent | .gone => True

/-- A report on ARM64: a stop, but for its registers, and these. -/
structure ArmReport where
  stop : Stop
  regs : Option Aarch64.Regs

/-- What the loop gets to see of it. -/
def ArmReport.seen (r : ArmReport) : Stop := { r.stop with regs := r.regs.map Aarch64.Regs.view }

/-- The same report on both machines.  The memory of the processes may be any. -/
structure SameReport (names armNames : Int → String) (r : Report) (a : ArmReport) : Prop where
  pid : a.stop.pid = r.stop.pid
  status : a.stop.status = r.stop.status
  eventMsg : a.stop.eventMsg = r.stop.eventMsg
  now : a.stop.now = r.stop.now
  regs : Option.Rel (SameCall names armNames r.kind) r.stop.regs a.regs

/-! ## What an observer is told -/

/-- An event without the memory and the descriptors of its process. -/
def Event.told : Event → Event
  | .entered t c => .entered { t with mem := fun _ => none, link := fun _ => none } c
  | .returned t c ret now =>
      .returned { t with mem := fun _ => none, link := fun _ => none } c ret now
  | .signalled pid sig => .signalled pid sig
  | .created pid => .created pid
  | .gone pid status running active callCount => .gone pid status running active callCount

theorem messages_told {τ : Type} (cfg : Config τ) (e : Event) :
    e.told.messages cfg = e.messages cfg := by
  cases e <;> rfl

/-- Events that tell the same are announced by the same messages. -/
theorem flatMap_messages_congr {τ : Type} (cfg : Config τ) {es es' : List Event}
    (h : es.map Event.told = es'.map Event.told) :
    es.flatMap (Event.messages cfg) = es'.flatMap (Event.messages cfg) := by
  have hmap : ∀ es : List Event,
      es.flatMap (Event.messages cfg) = (es.map Event.told).flatMap (Event.messages cfg) := by
    intro es
    rw [List.flatMap_map]
    exact congrArg (es.flatMap ·) (funext fun e => (messages_told cfg e).symm)
  rw [hmap es, hmap es', h]

/-- Two observers that were told the same. -/
structure Observer.Alike (o o' : Observer) : Prop where
  calls : o.calls = o'.calls
  activeCount : o.activeCount = o'.activeCount
  callCount : o.callCount = o'.callCount
  left : o.left = o'.left
  events : o.events.map Event.told = o'.events.map Event.told

namespace Observer.Alike

variable {o o' : Observer} {s s' : Stop}

theorem refl (o : Observer) : o.Alike o := ⟨rfl, rfl, rfl, rfl, rfl⟩

theorem gone (h : o.Alike o') (hpid : s'.pid = s.pid) (hstatus : s'.status = s.status) :
    (o.gone s).Alike (o'.gone s') where
  calls := by simp only [Observer.gone, h.calls, hpid]
  activeCount := by simp only [Observer.gone, h.activeCount]
  callCount := h.callCount
  left := by simp only [Observer.gone, h.activeCount]
  events := by
    simp only [Observer.gone, List.map_append, h.events, h.calls, h.activeCount, h.callCount, hpid,
      hstatus]

theorem forkEvent (h : o.Alike o') (hmsg : s'.eventMsg = s.eventMsg) :
    (o.forkEvent s).Alike (o'.forkEvent s') := by
  unfold Observer.forkEvent
  rw [hmsg, ← h.calls]
  split
  · exact h
  · split
    · exact h
    · refine ⟨rfl, ?_, h.callCount, h.left, ?_⟩
      · simp only [h.activeCount]
      · simp only [List.map_append, h.events]

theorem signalStop (h : o.Alike o') (hpid : s'.pid = s.pid) (hsig : s'.stopsig = s.stopsig) :
    (o.signalStop s).Alike (o'.signalStop s') where
  calls := by simp only [Observer.signalStop, h.calls, hpid]
  activeCount := h.activeCount
  callCount := h.callCount
  left := h.left
  events := by simp only [Observer.signalStop, List.map_append, h.events, hpid, hsig]

/-- What a syscall-stop must have in common: the name and the arguments where a call begins,
the result where one ends. -/
def SameRead (names names' : Int → String) (cur : Option Call) (x y : Regs) : Prop :=
  match cur with
  | none => names (syscallNoOf x) = names' (syscallNoOf y) ∧ argsOf x = argsOf y
  | some _ => returnValOf x = returnValOf y

theorem syscallStop (h : o.Alike o') {names names' : Int → String} (hpid : s'.pid = s.pid)
    (hnow : s'.now = s.now)
    (hregs : ∀ calls, o.calls.register s.pid none = some calls →
      Option.Rel (SameRead names names' (o.calls.lookup s.pid).join) s.regs s'.regs) :
    (o.syscallStop names s).Alike (o'.syscallStop names' s') := by
  unfold Observer.syscallStop
  rw [hpid, ← h.calls]
  cases hr : o.calls.register s.pid none with
  | none => exact h
  | some calls =>
      have hread := hregs calls hr
      have hlook : calls.lookup s.pid = some (o.calls.lookup s.pid).join := by
        rw [BoundedMap.lookup_of_register hr, if_pos rfl]
        cases o.calls.lookup s.pid <;> rfl
      dsimp only
      rw [hlook]
      generalize s.regs = regs, s'.regs = regs' at hread
      cases hread with
      | none => exact ⟨rfl, h.activeCount, h.callCount, h.left, h.events⟩
      | @some x y hxy =>
          cases hcur : (o.calls.lookup s.pid).join with
          | none =>
              rw [hcur] at hxy
              obtain ⟨hname, hargs⟩ := hxy
              dsimp only
              rw [hname, hargs, hnow]
              refine ⟨rfl, h.activeCount, ?_, h.left, ?_⟩
              · simp only [h.callCount]
              · simp only [List.map_append, h.events, List.map_cons, List.map_nil, Event.told,
                  Stop.tracee, hpid]
          | some c =>
              rw [hcur] at hxy
              have hret : returnValOf x = returnValOf y := hxy
              dsimp only
              rw [hret, hnow]
              refine ⟨rfl, h.activeCount, h.callCount, h.left, ?_⟩
              simp only [List.map_append, h.events, List.map_cons, List.map_nil, Event.told,
                Stop.tracee, hpid]

theorem report (h : o.Alike o') {names names' : Int → String} (follow : Bool)
    (hpid : s'.pid = s.pid) (hstatus : s'.status = s.status) (hmsg : s'.eventMsg = s.eventMsg)
    (hnow : s'.now = s.now)
    (hregs : wIfStopped s.status = true → s.isSyscallStop = true →
      ∀ calls, o.calls.register s.pid none = some calls →
        Option.Rel (SameRead names names' (o.calls.lookup s.pid).join) s.regs s'.regs) :
    (o.report follow names s).Alike (o'.report follow names' s') := by
  have hsig : s'.stopsig = s.stopsig := by rw [Stop.stopsig, Stop.stopsig, hstatus]
  have hgone : s'.isGone = s.isGone := by rw [Stop.isGone, Stop.isGone, hstatus]
  have hfork : s'.isForkEvent = s.isForkEvent := by
    simp only [Stop.isForkEvent, Stop.event, hsig, hstatus]
  have hsys : s'.isSyscallStop = s.isSyscallStop := by
    rw [Stop.isSyscallStop, Stop.isSyscallStop, hsig]
  unfold Observer.report
  rw [hgone, hfork, hsys, hstatus]
  split_ifs with hg hs hf hc
  · exact h.gone hpid hstatus
  · exact h
  · exact h.forkEvent hmsg
  · exact h.signalStop hpid hsig
  · exact h.syscallStop hpid hnow (hregs (by simpa using hs) (by simpa using hc))

end Observer.Alike

/-! ## The reports of a run -/

/-- One more result of `waitpid`. -/
theorem Observer.run_concat (follow : Bool) (names : Int → String) (o : Observer) (ws : List Wait)
    (w : Wait) :
    o.run follow names (ws ++ [w]) =
      if (o.run follow names ws).left.isSome then o.run follow names ws
      else (o.run follow names ws).step follow names w := by
  induction ws generalizing o with
  | nil => rfl
  | cons v ws ih =>
      rw [List.cons_append, Observer.run, Observer.run]
      by_cases hleft : o.left.isSome = true
      · simp only [if_pos hleft]
      · simp only [if_neg hleft]
        exact ih _

/-- What the tracer of a run has been told. -/
def System.observed {τ : Type} (cfg : Config τ) (root : Nat) (sys : System τ) : Observer :=
  observe cfg.opts.followForks cfg.syscallName root (sys.log.map fun r => .report r.stop)

/-- What the same loop is told on ARM64. -/
def armObserved (follow : Bool) (armNames : Int → String) (root : Nat) (arm : List ArmReport) :
    Observer :=
  observe follow armNames root (arm.map fun a => .report a.seen)

/-- What answers a list with one more element has one more element. -/
theorem forall₂_concat {α β : Type} {R : α → β → Prop} {xs : List α} {x : α} {ys : List β}
    (h : List.Forall₂ R (xs ++ [x]) ys) :
    ∃ zs y, ys = zs ++ [y] ∧ List.Forall₂ R xs zs ∧ R x y := by
  induction xs generalizing ys with
  | nil =>
      cases h with
      | cons hxy hrest =>
          cases hrest
          exact ⟨[], _, rfl, .nil, hxy⟩
  | cons a xs ih =>
      cases h with
      | @cons _ b _ _ hab hrest =>
          obtain ⟨zs, y, rfl, hzs, hxy⟩ := ih hrest
          exact ⟨b :: zs, y, rfl, .cons hab hzs, hxy⟩

section Agree

variable {τ : Type} [AddCommMonoid τ] {cfg : Config τ} {armNames : Int → String} {root : Nat}

/-- The phase of a process is that of the call the observer knows of. -/
theorem Follows.inCall_isSome {st : Tracer τ} {o : Observer} (h : Follows cfg st o) (pid : Nat) :
    (st.tracees.stateOf pid).inSyscall = (o.calls.lookup pid).join.isSome := by
  rcases h.calls.cases pid with ⟨hf, hl⟩ | ⟨ts, cur, hf, hl, hts⟩ <;> rw [Tracees.stateOf, hf, hl]
  · rfl
  · exact hts.inSyscall_eq

theorem SameCall.sameRead {names : Int → String} {cur : Option Call} {x : Regs} {y : Aarch64.Regs}
    (h : SameCall names armNames (if cur.isSome then .exit else .entry) x y) :
    Observer.Alike.SameRead names armNames cur x y.view := by
  obtain ⟨hno, hret, hargs⟩ := Aarch64.view_accessors y
  cases cur with
  | none => exact ⟨h.1.trans (by rw [hno]), h.2.trans hargs.symm⟩
  | some c => exact Eq.trans h hret.symm

/-- What both loops read at a syscall-stop that the tracer takes for what the kernel meant. -/
theorem sameRead_of_report {sys : System τ} {o : Observer} (hf : Follows cfg sys.tracer o)
    (hi : ToggleInv sys) {r : Report} {k : Kernel} (hk : Kernel.Step sys.kernel (some r) k)
    (hok : ToggleOk cfg sys r) {a : ArmReport} (ha : SameReport cfg.syscallName armNames r a)
    (hs : wIfStopped r.stop.status = true) (hc : r.stop.isSyscallStop = true)
    {calls : BoundedMap Nat (Option Call) maxTracees}
    (hr : o.calls.register r.stop.pid none = some calls) :
    Option.Rel (Observer.Alike.SameRead cfg.syscallName armNames (o.calls.lookup r.stop.pid).join)
      r.stop.regs a.seen.regs := by
  -- there is a slot for the process, since the observer has one
  have hadd := hf.calls.add r.stop.pid (inCall_zeroed : InCall cfg none .zeroed)
  rw [hr] at hadd
  obtain ⟨t, ht⟩ : ∃ t, sys.tracer.tracees.addTracee r.stop.pid = some t := by
    cases ht : sys.tracer.tracees.addTracee r.stop.pid with
    | none => rw [show sys.tracer.tracees.add r.stop.pid .zeroed = none from ht] at hadd; cases hadd
    | some t => exact ⟨t, rfl⟩
  have hkind : ∀ x, r.stop.regs = some x →
      (if (o.calls.lookup r.stop.pid).join.isSome then Kind.exit else .entry) = r.kind :=
    fun x hx => by
      rw [← hf.inCall_isSome]
      exact hi.branch_kind hk hok (syscallBranch_of_slot hs hc ht hx)
  have hregs := ha.regs
  unfold ArmReport.seen
  dsimp only
  generalize r.stop.regs = regs, a.regs = regs' at hregs hkind ⊢
  cases hregs with
  | none => exact .none
  | some hcall =>
      rw [← hkind _ rfl] at hcall
      exact .some hcall.sameRead

/-- The tracer has shown what its observer was told, and the observer on ARM64 is told the
same. -/
structure ArmInv (cfg : Config τ) (armNames : Int → String) (root : Nat) (sys : System τ) :
    Prop where
  toggle : ToggleInv sys
  waits : WaitInv sys
  follows : Follows cfg sys.tracer (sys.observed cfg root)
  alike : ∀ arm, List.Forall₂ (SameReport cfg.syscallName armNames) sys.log arm →
    (sys.observed cfg root).Alike (armObserved cfg.opts.followForks armNames root arm)

theorem armInv_report {sys : System τ} (hi : ArmInv cfg armNames root sys)
    (hleft : sys.tracer.left = none) {r : Report} {k : Kernel}
    (hk : Kernel.Step sys.kernel (some r) k) (hok : ToggleOk cfg sys r) :
    ArmInv cfg armNames root ⟨k, loopBody cfg sys.tracer (.report r.stop), sys.log ++ [r]⟩ := by
  have hgoes : (sys.observed cfg root).left = none := hi.follows.left.symm.trans hleft
  have hnext : System.observed cfg root
      ⟨k, loopBody cfg sys.tracer (.report r.stop), sys.log ++ [r]⟩ =
      (sys.observed cfg root).report cfg.opts.followForks cfg.syscallName r.stop := by
    rw [System.observed, observe, List.map_append, List.map_singleton, Observer.run_concat]
    exact if_neg (by rw [← observe, ← System.observed, hgoes]; simp)
  refine ⟨toggleInv_report hi.toggle hk hok _, waitInv_report hi.waits hleft hk, ?_,
    fun arm harm => ?_⟩
  · rw [hnext]
    exact hi.follows.report r.stop
  · obtain ⟨earlier, last, rfl, hearlier, hlast⟩ := forall₂_concat harm
    have halike := hi.alike earlier hearlier
    have harm : armObserved cfg.opts.followForks armNames root (earlier ++ [last]) =
        (armObserved cfg.opts.followForks armNames root earlier).report cfg.opts.followForks
          armNames last.seen := by
      rw [armObserved, observe, List.map_append, List.map_singleton, Observer.run_concat]
      exact if_neg (by rw [← observe, ← armObserved, ← halike.left, hgoes]; simp)
    rw [hnext, harm]
    exact halike.report _ hlast.pid hlast.status hlast.eventMsg hlast.now fun hs hc _ hr =>
      sameRead_of_report hi.follows hi.toggle hk hok hlast hs hc hr

theorem armInv_step (sys : System τ) (r : Option Report) (sys' : System τ)
    (hi : ArmInv cfg armNames root sys) (hs : System.Step cfg sys r sys')
    (hok : ∀ q, r = some q → ToggleOk cfg sys q) : ArmInv cfg armNames root sys' := by
  have htoggle := toggleInv_step sys r sys' hi.toggle hs hok
  have hwaits := waitInv_step sys r sys' hi.waits hs
  cases hs with
  | silent => exact ⟨htoggle, hwaits, hi.follows, hi.alike⟩
  | interrupted => exact hi
  | noChild hleft hlive => exact absurd hlive (hi.waits.live_ne_nil hleft)
  | report hleft hk => exact armInv_report hi hleft hk (hok _ rfl)

/-- In every run on x86-64 in which registers can be read and no process gets its slot in
the middle of a call, the registers of ARM64 tell the loop the same on reports of the same
calls, although a result overwrites the first argument there: the same calls with the same
names, arguments and results, the same signals and ends, the same calls in progress, the same
counters and messages.  What x86-64 prints is its rendering of these events. -/
theorem register_layers_agree (cfg : Config τ) (armNames : Int → String) (root : Nat)
    (sys : System τ) (h : System.Reachable cfg (ToggleOk cfg) root sys) (arm : List ArmReport)
    (hsame : List.Forall₂ (SameReport cfg.syscallName armNames) sys.log arm) :
    let o := armObserved cfg.opts.followForks armNames root arm
    o.events.map Event.told = (sys.observed cfg root).events.map Event.told ∧
      sys.tracer.trace = (sys.observed cfg root).events.flatMap (Event.chunks cfg) ∧
      sys.tracer.status = o.events.flatMap (Event.messages cfg) ∧
      sys.tracer.callCount = o.callCount ∧ sys.tracer.activeCount = o.activeCount ∧
      sys.tracer.left = o.left ∧
      ∀ pid, (sys.tracer.tracees.find pid).map (·.inSyscall) =
        (o.calls.lookup pid).map (·.isSome) := by
  have hinit : ArmInv cfg armNames root (.init root) := by
    refine ⟨toggleInv_init root, waitInv_init root, follows_init root, fun arm harm => ?_⟩
    cases harm
    exact .refl _
  have hi : ArmInv cfg armNames root sys := h.induct hinit armInv_step
  have halike := hi.alike arm hsame
  refine ⟨halike.events.symm, hi.follows.trace, ?_, hi.follows.callCount.trans halike.callCount,
    hi.follows.activeCount.trans halike.activeCount, hi.follows.left.trans halike.left,
    fun pid => ?_⟩
  · rw [hi.follows.status, flatMap_messages_congr cfg halike.events]
  · rw [hi.follows.phase, halike.calls]

end Agree

/-! ## One call on both -/

/-- `close` and `getpid` as they are numbered on ARM64. -/
def armCallNames (n : Int) : String :=
  if n = 57 then "close" else if n = 172 then "getpid" else "unknown"

/-- A syscall-stop of process 1 in `close(5)` on x86-64. -/
def closeStop (result : Word) : Stop :=
  { Stop.plain 1 0x857f with regs := some ⟨3, result, 5, 0, 0, 0, 0, 0⟩ }

/-- The registers of `close` on ARM64, with `x0` as given. -/
def armCloseRegs (x0 : Word) : Aarch64.Regs :=
  ⟨fun i => if i = 0 then x0 else if i = 8 then 57 else 0⟩

/-- `close(5)` fails on both, with a signal before it does; on ARM64 the error stands where
the descriptor was. -/
theorem register_layers_agree_close :
    ∃ sys, System.Reachable twoCallsConfig (ToggleOk twoCallsConfig) 1 sys ∧
      sys.log.map (·.kind) = [.entry, .signal, .exit] ∧
      (armObserved true armCallNames 1
        [⟨Stop.plain 1 0x857f, some (armCloseRegs 5)⟩, ⟨Stop.plain 1 0x0a7f, none⟩,
          ⟨Stop.plain 1 0x857f, some (armCloseRegs (-9))⟩]).events.map Event.told =
        (sys.observed twoCallsConfig 1).events.map Event.told := by
  have h₀ : System.Reachable twoCallsConfig (ToggleOk twoCallsConfig) 1 (.init 1) := .refl
  have h₁ := h₀.report (r := ⟨closeStop (-38), .entry⟩) rfl
    (.entry (by decide) (by decide) (by decide) rfl)
    ⟨fun _ => rfl, .of_some (c := 1) (by decide) (.inl rfl)⟩
  have h₂ := h₁.report (r := ⟨Stop.plain 1 0x0a7f, .signal⟩) rfl
    (.signal (by decide) (by decide) (by decide) (by decide))
    ⟨fun h => absurd h (by decide), .of_some (c := 1) (by decide) (.inr (by decide +kernel))⟩
  have h₃ := h₂.report (r := ⟨closeStop (-9), .exit⟩) rfl
    (.exit (by decide) (by decide) (by decide) rfl)
    ⟨fun _ => rfl, .of_some (c := 1) (by decide) (.inr (by decide +kernel))⟩
  refine ⟨_, h₃, rfl, (register_layers_agree twoCallsConfig armCallNames 1 _ h₃ _
    (.cons ?_ (.cons ?_ (.cons ?_ .nil)))).1⟩
  · refine ⟨rfl, rfl, rfl, rfl, .some ⟨by decide, ?_⟩⟩
    funext i
    match i with
    | 0 | 1 | 2 | 3 | 4 | _ + 5 => rfl
  · exact ⟨rfl, rfl, rfl, rfl, .none⟩
  · exact ⟨rfl, rfl, rfl, rfl, .some rfl⟩

end MiniStrace
