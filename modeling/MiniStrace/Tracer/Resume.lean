/-
  Tracer/Resume.lean --- the tracer's side of the ptrace protocol.

  A process that stops under ptrace waits until its tracer resumes it, and a signal that
  stopped it is gone unless the tracer hands it back.  `Jobs` is the kernel's half of the
  bargain: which reported processes are waiting, which signals they were resumed with, and
  which requests named a process that was not waiting.

  EVERY STOP IS ANSWERED.  After each round nobody is waiting, no request was refused, and
  the signals handed back are those of the signal-stops, in order.  `SIGTRAP` is not handed
  back: the tracer takes it for a stop of its own making.

  THE REQUESTS are those of `run_tracer` itself.  The decoders read the memory of the process
  whose stop is being handled with `PTRACE_PEEKDATA`; these are left out.
-/
import MiniStrace.Tracer.Observer

set_option autoImplicit false

namespace MiniStrace

open CLib

/-! ## Requests -/

/-- The requests of `run_tracer`; the words peeked by the decoders are not among them. -/
inductive Request where
  /-- `PTRACE_SETOPTIONS` -/
  | setOptions (pid options : Nat)
  /-- `PTRACE_GETEVENTMSG` -/
  | getEventMsg (pid : Nat)
  /-- `get_regs` -/
  | getRegs (pid : Nat)
  /-- `PTRACE_SYSCALL`, with the signal to deliver or zero -/
  | resume (pid sig : Nat)
  deriving DecidableEq, Repr

/-- The process a request is about. -/
def Request.pid : Request → Nat
  | .setOptions pid _ | .getEventMsg pid | .getRegs pid | .resume pid _ => pid

/-- `options`: `PTRACE_O_TRACESYSGOOD`, and with `-f` the three that announce children. -/
def traceOptions (followForks : Bool) : Nat := if followForks then 1 ||| (2 ||| 4 ||| 8) else 1

/-- The requests before the loop. -/
def startRequests (followForks : Bool) (child : Nat) : List Request :=
  [.setOptions child (traceOptions followForks), .resume child 0]

section Requests

variable {τ : Type} (cfg : Config τ)

/-- `deliver`. -/
def Stop.deliver (s : Stop) : Nat := if s.stopsig ≠ Stop.sigtrap then s.stopsig else 0

/-- The requests `run_tracer` itself makes in one round. -/
def requests (st : Tracer τ) (s : Stop) : List Request :=
  if s.isGone then []
  else if !wIfStopped s.status then []
  else if cfg.opts.followForks && s.isForkEvent then [.getEventMsg s.pid, .resume s.pid 0]
  else if !s.isSyscallStop then [.resume s.pid s.deliver]
  else match st.tracees.addTracee s.pid with
    | none => [.resume s.pid 0]
    | some _ => [.getRegs s.pid, .resume s.pid 0]

end Requests

/-! ## The kernel's half -/

/-- The processes that wait for the tracer, the signals they were resumed with, and the
requests that were refused. -/
structure Jobs where
  waiting : Finset Nat
  delivered : List (Nat × Nat)
  refused : List Request

namespace Jobs

/-- A request is refused unless its process waits. -/
def request (j : Jobs) (r : Request) : Jobs :=
  if r.pid ∈ j.waiting then
    match r with
    | .resume pid sig =>
        { j with
          waiting := j.waiting.erase pid
          delivered := if sig = 0 then j.delivered else j.delivered ++ [(pid, sig)] }
    | .setOptions .. | .getEventMsg _ | .getRegs _ => j
  else { j with refused := j.refused ++ [r] }

/-- A process is reported as stopped and waits from then on. -/
def report (j : Jobs) (s : Stop) : Jobs :=
  if wIfStopped s.status then { j with waiting := insert s.pid j.waiting } else j

/-- The child has stopped itself before the first `waitpid`. -/
def init (child : Nat) : Jobs := ⟨{child}, [], []⟩

end Jobs

section Run

variable {τ : Type} [Zero τ] [Add τ] (cfg : Config τ)

/-- The loop with the kernel's half beside it. -/
def runJobs (st : Tracer τ) (j : Jobs) : List Wait → Tracer τ × Jobs
  | [] => (st, j)
  | w :: ws =>
      if st.left.isSome then (st, j)
      else
        match w with
        | .noChild | .interrupted => runJobs (loopBody cfg st w) j ws
        | .report s =>
            runJobs (loopBody cfg st w) ((requests cfg st s).foldl Jobs.request (j.report s)) ws

/-- `run_tracer` with the kernel's half beside it. -/
def runWithJobs (child : Nat) (ws : List Wait) : Tracer τ × Jobs :=
  runJobs cfg (.init child)
    ((startRequests cfg.opts.followForks child).foldl Jobs.request (Jobs.init child)) ws

/-- The reports the loop asks for before it is left. -/
def reportsAsked (st : Tracer τ) : List Wait → List Stop
  | [] => []
  | w :: ws =>
      if st.left.isSome then []
      else
        match w with
        | .noChild | .interrupted => reportsAsked (loopBody cfg st w) ws
        | .report s => s :: reportsAsked (loopBody cfg st w) ws

/-- The signal a report is about: that of a stop which is neither a fork event under `-f`
nor a syscall-stop, and not `SIGTRAP`. -/
def Stop.signalOf (s : Stop) : Option (Nat × Nat) :=
  if wIfStopped s.status && !(cfg.opts.followForks && s.isForkEvent) && !s.isSyscallStop &&
      s.deliver != 0 then
    some (s.pid, s.stopsig)
  else none

end Run

/-! ## Every stop is answered -/

section Answered

variable {τ : Type} {cfg : Config τ}

theorem Stop.deliver_eq {s : Stop} (h : s.deliver ≠ 0) : s.deliver = s.stopsig := by
  unfold Stop.deliver at h ⊢
  split_ifs at h ⊢
  · rfl
  · exact absurd rfl h

/-- A process that waits is resumed, and waits no more. -/
theorem request_resume {j : Jobs} {pid : Nat} (h : pid ∈ j.waiting) (sig : Nat) :
    j.request (.resume pid sig) =
      { j with
        waiting := j.waiting.erase pid
        delivered := if sig = 0 then j.delivered else j.delivered ++ [(pid, sig)] } := if_pos h

/-- A question about a process that waits changes nothing. -/
theorem request_ask {j : Jobs} {pid : Nat} (h : pid ∈ j.waiting) :
    j.request (.getEventMsg pid) = j ∧ j.request (.getRegs pid) = j ∧
      ∀ options, j.request (.setOptions pid options) = j :=
  ⟨if_pos h, if_pos h, fun _ => if_pos h⟩

/-- One round: the reported process is the one that waits, and is resumed once. -/
theorem round_answers (st : Tracer τ) {j : Jobs} (hj : j.waiting = ∅) (s : Stop) :
    (requests cfg st s).foldl Jobs.request (j.report s) =
      { j with delivered := j.delivered ++ (s.signalOf cfg).toList } := by
  by_cases hs : wIfStopped s.status = true
  · have hgone := not_isGone hs
    have hwait : s.pid ∈ (j.report s).waiting := by simp [Jobs.report, hs]
    have hreport : (j.report s).waiting.erase s.pid = ∅ := by simp [Jobs.report, hs, hj]
    have hdelivered : (j.report s).delivered = j.delivered := by simp [Jobs.report, hs]
    have hrefused : (j.report s).refused = j.refused := by simp [Jobs.report, hs]
    have hask := request_ask hwait
    have hquiet : (j.report s).request (.resume s.pid 0) = j := by
      rw [request_resume hwait, if_pos rfl, hreport, hdelivered, hrefused, ← hj]
    unfold requests Stop.signalOf
    rw [hgone, hs]
    simp only [Bool.false_eq_true, if_false, Bool.not_true, Bool.true_and]
    by_cases hfork : (cfg.opts.followForks && s.isForkEvent) = true
    · simp [hfork, hask.1, hquiet]
    · rw [if_neg hfork]
      simp only [Bool.not_eq_true] at hfork
      by_cases hsys : s.isSyscallStop = true
      · simp only [hsys, Bool.not_true, Bool.false_eq_true, if_false, Bool.and_false,
          Bool.false_and, Option.toList_none, List.append_nil]
        split <;> simp [hask.2.1, hquiet]
      · simp only [Bool.not_eq_true] at hsys
        simp only [hsys, hfork, Bool.not_false, if_true, List.foldl_cons, List.foldl_nil,
          Bool.true_and, request_resume hwait, hreport, hdelivered, hrefused]
        by_cases hd : s.deliver = 0
        · simp [hd, hj]
        · have hne : s.stopsig ≠ 0 := Stop.deliver_eq hd ▸ hd
          simp [hj, Stop.deliver_eq hd, hne]
  · have hnone : requests cfg st s = [] := by
      unfold requests
      split_ifs <;> simp_all
    rw [hnone]
    simp [Jobs.report, Stop.signalOf, hs]

variable [Zero τ] [Add τ]

/-- The whole loop. -/
theorem runJobs_answers (st : Tracer τ) {j : Jobs} (hj : j.waiting = ∅) (ws : List Wait) :
    runJobs cfg st j ws =
      (runLoop cfg st ws,
        { j with
          delivered := j.delivered ++ (reportsAsked cfg st ws).filterMap (Stop.signalOf cfg) }) := by
  induction ws generalizing st j with
  | nil => simp [runJobs, runLoop, reportsAsked]
  | cons w ws ih =>
      by_cases hleft : st.left.isSome = true
      · cases w <;> simp only [runJobs, runLoop, reportsAsked, hleft, if_true, List.filterMap_nil,
          List.append_nil]
      · cases w with
        | noChild | interrupted =>
            simp only [runJobs, runLoop, reportsAsked, hleft, Bool.false_eq_true, if_false]
            exact ih _ hj
        | report s =>
            simp only [runJobs, runLoop, reportsAsked, hleft, Bool.false_eq_true, if_false]
            have hrest := ih (loopBody cfg st (.report s))
              (j := { j with delivered := j.delivered ++ (s.signalOf cfg).toList }) hj
            rw [round_answers st hj, hrest, List.filterMap_cons]
            cases s.signalOf cfg <;> simp

/-- In every run, once the child has been started and after every round, no process is left
waiting for the tracer and no request of `run_tracer` itself was refused; and the signals
handed back are exactly those of the signal-stops reported, each once, to the process it
stopped, in the order of the reports, but for `SIGTRAP`. -/
theorem every_stop_is_answered (cfg : Config τ) (child : Nat) (ws : List Wait) :
    (runWithJobs cfg child ws).1 = runTracer cfg child ws ∧
      (runWithJobs cfg child ws).2.waiting = ∅ ∧
      (runWithJobs cfg child ws).2.refused = [] ∧
      (runWithJobs cfg child ws).2.delivered =
        (reportsAsked cfg (.init child) ws).filterMap (Stop.signalOf cfg) := by
  have hstart : (startRequests cfg.opts.followForks child).foldl Jobs.request (Jobs.init child) =
      ⟨∅, [], []⟩ := by
    have hwait : child ∈ (Jobs.init child).waiting := Finset.mem_singleton_self child
    simp only [startRequests, List.foldl_cons, List.foldl_nil, (request_ask hwait).2.2,
      request_resume hwait]
    simp [Jobs.init]
  unfold runWithJobs runTracer
  rw [hstart, runJobs_answers _ rfl]
  exact ⟨rfl, rfl, rfl, List.nil_append _⟩

end Answered

end MiniStrace
