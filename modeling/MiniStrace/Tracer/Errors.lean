/-
  Tracer/Errors.lean --- which return values the exit-stop reports as errors.

  THE KERNEL'S CONVENTION.  A call failed when its return value lies between -4095 and
  -1, and minus the value is the error number.  Any other value is a result, however
  negative it reads.

  THE CODE'S TEST.  The exit-stop asks whether the value is negative, on the line and in
  the summary alike, and narrows minus the value to an `int` before the name is looked
  up.  On the line the two agree exactly from -4095 on.  In the summary a call that finds
  neither its row nor room for a new one is not counted at all.
-/
import MiniStrace.Tracer.System

set_option autoImplicit false

namespace MiniStrace

open CLib

/-- The return value of a call that failed. -/
def IsKernelError (ret : Int) : Prop := -4095 ≤ ret ∧ ret ≤ -1

instance (ret : Int) : Decidable (IsKernelError ret) := inferInstanceAs (Decidable (_ ∧ _))

/-! ## The line -/

/-- The `= ret` group by the kernel's convention. -/
def retText (host : Host) (ret : Int) (timing : Text) : Text :=
  if IsKernelError ret then
    lit "= " ++ decInt ret ++ lit " (" ++
      (host.strerrorname (-ret)).getD (lit "unknown errno") ++ lit ")" ++ timing ++ lit "\n"
  else lit "= " ++ decInt ret ++ timing ++ lit "\n"

/-- An error number is not changed by the narrowing to `int`. -/
theorem signed_neg_of_isKernelError {ret : Int} (h : IsKernelError ret) :
    signed 32 ((-ret) % 2 ^ 32).toNat = -ret := by
  obtain ⟨hlow, hhigh⟩ := h
  have hmod : (-ret) % 2 ^ 32 = -ret := Int.emod_eq_of_lt (by omega) (by omega)
  rw [hmod, signed, Int.toNat_of_nonneg (by omega)]
  exact Int.bmod_eq_of_le (by omega) (by omega)

theorem printRet_eq_retText_iff (host : Host) (ret : Int) (timing : Text) :
    printRet host ret timing = retText host ret timing ↔ -4095 ≤ ret := by
  unfold printRet retText
  by_cases herr : IsKernelError ret
  · have hneg : ret < 0 := lt_of_le_of_lt herr.2 (by decide)
    rw [if_pos hneg, if_pos herr, signed_neg_of_isKernelError herr]
    exact iff_of_true rfl herr.1
  · rw [if_neg herr]
    by_cases hneg : ret < 0
    · have hlow : ¬-4095 ≤ ret := fun h => herr ⟨h, by omega⟩
      rw [if_pos hneg]
      refine iff_of_false (fun heq => ?_) hlow
      -- the group with a name is longer
      have hopen : 0 < (lit " (").length := by with_unfolding_all decide
      have hlen := congrArg List.length heq
      simp only [List.length_append] at hlen
      omega
    · rw [if_neg hneg]
      exact iff_of_true rfl (by omega)

/-! ## The summary -/

section Summary

variable {τ : Type}

/-- The errors counted for a name. -/
def errorsOf (name : String) (summary : List (SummaryEntry τ)) : Nat :=
  ((summary.find? fun e => strcmpEq e.name name).map (·.errors)).getD 0

/-- A call of that name is counted: it has a row, or there is room for one. -/
def HasRow (name : String) (summary : List (SummaryEntry τ)) : Prop :=
  (∃ e ∈ summary, e.name = name) ∨ summary.length < maxSummaryEntries

instance (name : String) (summary : List (SummaryEntry τ)) : Decidable (HasRow name summary) :=
  inferInstanceAs (Decidable (_ ∨ _))

variable [Zero τ] [Add τ]

theorem errorsOf_recordCall (name : String) (ret : Int) (elapsed : τ)
    (summary : List (SummaryEntry τ)) (room : Nat) :
    errorsOf name (recordCall name ret elapsed summary room) = errorsOf name summary +
      if ret < 0 ∧ ((∃ e ∈ summary, e.name = name) ∨ summary.length < room) then 1 else 0 := by
  induction summary generalizing room with
  | nil =>
      cases room with
      | zero => simp [recordCall]
      | succ room =>
          by_cases hneg : ret < 0 <;> simp [recordCall, errorsOf, SummaryEntry.count, hneg]
  | cons e summary ih =>
      rw [recordCall]
      by_cases hname : e.name = name
      · by_cases hneg : ret < 0 <;> simp [errorsOf, SummaryEntry.count, hname, hneg]
      · have hskip : ∀ es : List (SummaryEntry τ), errorsOf name (e :: es) = errorsOf name es :=
          fun es => by simp [errorsOf, hname]
        have hroom : summary.length < room - 1 ↔ (e :: summary).length < room := by
          rw [List.length_cons]
          omega
        rw [if_neg (by simpa using hname), hskip, hskip, ih]
        simp only [hroom, List.mem_cons, exists_eq_or_imp, hname, false_or]

theorem errorsOf_recordCall_iff (name : String) (ret : Int) (elapsed : τ)
    (summary : List (SummaryEntry τ)) :
    errorsOf name (recordCall name ret elapsed summary maxSummaryEntries) =
        errorsOf name summary + (if IsKernelError ret then 1 else 0) ↔
      0 ≤ ret ∨ (-4095 ≤ ret ↔ HasRow name summary) := by
  rw [errorsOf_recordCall, Nat.add_left_cancel_iff]
  change (if ret < 0 ∧ HasRow name summary then 1 else 0) = _ ↔ _
  by_cases hneg : ret < 0
  · have hpos : ¬0 ≤ ret := by omega
    by_cases herr : IsKernelError ret
    · by_cases hrow : HasRow name summary <;> simp [hneg, hpos, herr, herr.1, hrow]
    · have hlow : ¬-4095 ≤ ret := fun h => herr ⟨h, by omega⟩
      by_cases hrow : HasRow name summary <;> simp [hneg, hpos, herr, hlow, hrow]
  · have herr : ¬IsKernelError ret := fun h => hneg (lt_of_le_of_lt h.2 (by decide))
    have hpos : 0 ≤ ret := by omega
    simp [hneg, herr, hpos]

end Summary

/-! ## The exit-stop -/

section Exit

variable {τ : Type} [Zero τ] [Add τ] (cfg : Config τ)

/-- The exit-stop reports an error, by the kernel's convention and under the name of the
error's own number, exactly when there is one: in the last group it prints, and under
`-c`, where it prints nothing, in the errors counted for the call's name. -/
def ReportsErrors (s : Stop) (regs : Regs) (ts : TraceeState) (summary : List (SummaryEntry τ)) :
    Prop :=
  let ret := returnValOf regs
  let name := ts.currentName.getD ""
  if cfg.opts.summaryMode then
    exitTexts cfg s regs ts = [] ∧
      errorsOf name (exitSummary cfg s regs ts summary) =
        errorsOf name summary + if IsKernelError ret then 1 else 0
  else
    (exitTexts cfg s regs ts).getLast? = some (retText cfg.host ret (timingBuf cfg s ts))

/-- The line is right from -4095 on.  Under `-c` a result is never counted as an error
from 0 on; below, the values from -4095 on have to find a row and the others must not. -/
theorem exit_reportsErrors_iff (s : Stop) (regs : Regs) (ts : TraceeState)
    (summary : List (SummaryEntry τ)) (hs : ts.suppressed = false) :
    ReportsErrors cfg s regs ts summary ↔
      if cfg.opts.summaryMode then
        0 ≤ returnValOf regs ∨
          (-4095 ≤ returnValOf regs ↔ HasRow (ts.currentName.getD "") summary)
      else -4095 ≤ returnValOf regs := by
  unfold ReportsErrors
  by_cases hc : cfg.opts.summaryMode = true
  · simp only [hc, if_true, exitTexts, exitSummary, hs, Bool.not_true, Bool.or_false,
      Bool.and_false, Bool.false_eq_true, if_false, List.append_nil, true_and]
    exact errorsOf_recordCall_iff _ _ _ _
  · simp only [hc, exitTexts, hs, Bool.false_eq_true, if_false, List.getLast?_append,
      List.getLast?_singleton, Option.some_or, Option.some.injEq]
    exact printRet_eq_retText_iff _ _ _

/-- The registers at a stop of `getpid`, with `ret` as its result. -/
def returned (ret : Int) : Regs := ⟨39, BitVec.ofInt 64 ret, 0, 0, 0, 0, 0, 0⟩

/-- Process 1 between the stops of `getpid`. -/
def inGetpid : TraceeState :=
  entryState (Config.plain followOptions) (Stop.plain 1 0x857f) (returned 0) .zeroed

theorem exit_reportsErrors_enosys :
    inGetpid.suppressed = false ∧
      ReportsErrors (Config.plain followOptions) (Stop.plain 1 0x857f) (returned (-38)) inGetpid
        [] := by
  have hs : inGetpid.suppressed = false := by with_unfolding_all decide
  have hret : -4095 ≤ returnValOf (returned (-38)) := by decide
  exact ⟨hs, (exit_reportsErrors_iff _ _ _ _ _ hs).mpr hret⟩

/-- A C library that knows error number 2. -/
def enoentHost : Host :=
  { (default : Host) with strerrorname := fun n => if n = 2 then some (lit "ENOENT") else none }

/-- A result of -4294967298, which is no error, is given the name of error number 2. -/
theorem exit_names_result :
    inGetpid.suppressed = false ∧
      exitTexts { Config.plain followOptions with host := enoentHost } (Stop.plain 1 0x857f)
        (returned (-4294967298)) inGetpid = [lit "= -4294967298 (ENOENT)\n"] ∧
      ¬ReportsErrors { Config.plain followOptions with host := enoentHost } (Stop.plain 1 0x857f)
        (returned (-4294967298)) inGetpid [] := by
  have hline : exitTexts { Config.plain followOptions with host := enoentHost }
      (Stop.plain 1 0x857f) (returned (-4294967298)) inGetpid =
      [lit "= -4294967298 (ENOENT)\n"] := by with_unfolding_all decide
  have hret : retText enoentHost (-4294967298) [] ≠ lit "= -4294967298 (ENOENT)\n" := by
    with_unfolding_all decide
  refine ⟨by with_unfolding_all decide, hline, fun h => ?_⟩
  have hlast : (exitTexts { Config.plain followOptions with host := enoentHost }
      (Stop.plain 1 0x857f) (returned (-4294967298)) inGetpid).getLast? =
      some (retText enoentHost (-4294967298) []) := h
  rw [hline] at hlast
  exact hret (Option.some.inj hlast).symm

end Exit

end MiniStrace
