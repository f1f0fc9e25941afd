/-
  Tracer/Summary.lean --- the `-c` summary (`summary_lookup_or_add`, `print_summary`).

  THE CALLS.  A call is completed when its process reports the exit-stop; its name and
  its start are those of the entry-stop.  `completedCalls` reads them off the reports of
  a run, with the calls the filter rejects left out.

  THE TABLE.  The tracer folds each completed call into the row of its name.  In every
  run that never has more registered processes than slots, the table is the one that
  counts the completed calls, by name, in the order in which the names first came up,
  and up to its 256 rows.

  THE REPORT.  `print_summary` sorts the rows in place and adds them up.  Durations are
  taken in any linearly ordered commutative monoid.
-/
import Mathlib.Algebra.BigOperators.Group.List.Basic
import MiniStrace.Lib.SelectionSort
import MiniStrace.Tracer.Fidelity

set_option autoImplicit false

namespace MiniStrace

open CLib

/-! ## Completed calls -/

/-- A completed call. -/
structure Done (τ : Type) where
  name : String
  ret : Int
  elapsed : τ

section Completed

variable {τ : Type} (cfg : Config τ)

/-- The call a report completes, given the call its process is in. -/
def doneOf (cur : Option Call) (r : Report) : List (Done τ) :=
  match r.kind, r.stop.regs, cur with
  | .exit, some regs, some c =>
      if syscallAllowed cfg.filter c.name then
        [⟨c.name, returnValOf regs, cfg.elapsed c.start r.stop.now⟩]
      else []
  | _, _, _ => []

/-- The calls the processes are in after a report. -/
def callsNext (cur : Nat → Option Call) (r : Report) : Nat → Option Call :=
  Function.update cur r.stop.pid (ownNext cfg (cur r.stop.pid) r)

/-- The calls completed by a list of reports, given the calls the processes are in. -/
def completedFrom : (Nat → Option Call) → List Report → List (Done τ)
  | _, [] => []
  | cur, r :: rs => doneOf cfg (cur r.stop.pid) r ++ completedFrom (callsNext cfg cur r) rs

/-- The calls completed in a run. -/
def completedCalls (log : List Report) : List (Done τ) := completedFrom cfg (fun _ => none) log

/-- The calls the processes are in depend on their own reports. -/
theorem foldl_callsNext (cur : Nat → Option Call) (log : List Report) (p : Nat) :
    log.foldl (callsNext cfg) cur p = ownCall cfg (cur p) (ownReports p log) := by
  induction log generalizing cur with
  | nil => rfl
  | cons r rs ih =>
      rw [List.foldl_cons, ih, callsNext, Function.update_apply]
      unfold ownReports
      rw [List.filter_cons]
      by_cases hp : p = r.stop.pid
      · rw [if_pos hp, if_pos (by simp [hp]), ← hp]
        rfl
      · rw [if_neg hp, if_neg (by simpa using Ne.symm hp)]

theorem completedFrom_append (cur : Nat → Option Call) (log rs : List Report) :
    completedFrom cfg cur (log ++ rs) =
      completedFrom cfg cur log ++ completedFrom cfg (log.foldl (callsNext cfg) cur) rs := by
  induction log generalizing cur with
  | nil => rfl
  | cons r log ih => rw [List.cons_append, completedFrom, completedFrom, ih, List.append_assoc,
      List.foldl_cons]

theorem completedCalls_concat (log : List Report) (r : Report) :
    completedCalls cfg (log ++ [r]) =
      completedCalls cfg log ++ doneOf cfg (ownCall cfg none (ownReports r.stop.pid log)) r := by
  rw [completedCalls, completedFrom_append, completedFrom, foldl_callsNext, completedFrom,
    List.append_nil]
  rfl

/-- Only exits complete calls. -/
theorem completedFrom_of_no_exit (cur : Nat → Option Call) {rs : List Report}
    (h : ∀ r ∈ rs, r.kind ≠ .exit) : completedFrom cfg cur rs = [] := by
  induction rs generalizing cur with
  | nil => rfl
  | cons r rs ih =>
      have hr : doneOf cfg (cur r.stop.pid) r = [] := by
        unfold doneOf
        split
        · rename_i hk _ _
          exact absurd hk (h r List.mem_cons_self)
        · rfl
      rw [completedFrom, hr, List.nil_append, ih _ fun r' hr' => h r' (List.mem_cons_of_mem r hr')]

end Completed

/-! ## The table -/

section Table

variable {τ : Type}

/-- The distinct names, in the order in which they first came up. -/
def distinctNames (calls : List (Done τ)) : List String :=
  calls.foldl (fun names d => if d.name ∈ names then names else names ++ [d.name]) []

theorem distinctNames_concat (calls : List (Done τ)) (d : Done τ) :
    distinctNames (calls ++ [d]) =
      if d.name ∈ distinctNames calls then distinctNames calls
      else distinctNames calls ++ [d.name] := by
  rw [distinctNames, List.foldl_append]
  rfl

theorem distinctNames_spec (calls : List (Done τ)) :
    (distinctNames calls).Nodup ∧ ∀ n, n ∈ distinctNames calls ↔ ∃ d ∈ calls, d.name = n := by
  induction calls using List.reverseRecOn with
  | nil => exact ⟨List.nodup_nil, fun n => by simp [distinctNames]⟩
  | append_singleton calls d ih =>
      obtain ⟨hnodup, hmem⟩ := ih
      rw [distinctNames_concat]
      split_ifs with hd
      · refine ⟨hnodup, fun n => ?_⟩
        rw [hmem]
        constructor
        · rintro ⟨e, he, rfl⟩
          exact ⟨e, List.mem_append_left _ he, rfl⟩
        · rintro ⟨e, he, rfl⟩
          rcases List.mem_append.mp he with he | he
          · exact ⟨e, he, rfl⟩
          · rw [List.mem_singleton.mp he]
            exact (hmem d.name).mp hd
      · refine ⟨List.nodup_append.mpr ⟨hnodup, List.nodup_singleton _, ?_⟩, fun n => ?_⟩
        · rintro a ha b hb rfl
          rw [List.mem_singleton.mp hb] at ha
          exact hd ha
        · rw [List.mem_append, List.mem_singleton, hmem]
          constructor
          · rintro (⟨e, he, rfl⟩ | rfl)
            · exact ⟨e, List.mem_append_left _ he, rfl⟩
            · exact ⟨d, List.mem_append_right _ List.mem_cons_self, rfl⟩
          · rintro ⟨e, he, rfl⟩
            rcases List.mem_append.mp he with he | he
            · exact Or.inl ⟨e, he, rfl⟩
            · rw [List.mem_singleton.mp he]
              exact Or.inr rfl

variable [AddCommMonoid τ]

/-- The calls of one name. -/
def callsOf (calls : List (Done τ)) (name : String) : List (Done τ) :=
  calls.filter (·.name = name)

/-- The row that counts the calls of one name. -/
def rowOf (calls : List (Done τ)) (name : String) : SummaryEntry τ where
  name := name
  calls := (callsOf calls name).length
  errors := ((callsOf calls name).filter (·.ret < 0)).length
  totalTime := ((callsOf calls name).map (·.elapsed)).sum

/-- The table that counts these calls. -/
def rowsOf (calls : List (Done τ)) : List (SummaryEntry τ) :=
  ((distinctNames calls).take maxSummaryEntries).map (rowOf calls)

theorem rowOf_concat_self (calls : List (Done τ)) (d : Done τ) :
    rowOf (calls ++ [d]) d.name = (rowOf calls d.name).count d.ret d.elapsed := by
  have hone : callsOf (calls ++ [d]) d.name = callsOf calls d.name ++ [d] := by
    simp [callsOf, List.filter_append]
  unfold rowOf SummaryEntry.count
  rw [hone]
  simp only [SummaryEntry.mk.injEq, true_and, List.length_append, List.length_singleton,
    List.filter_append, List.map_append, List.sum_append, List.map_singleton, List.sum_singleton,
    and_true]
  by_cases hneg : d.ret < 0
  · simp [hneg]
  · simp [hneg]

theorem rowOf_concat_other (calls : List (Done τ)) {d : Done τ} {name : String}
    (h : name ≠ d.name) : rowOf (calls ++ [d]) name = rowOf calls name := by
  have hsame : callsOf (calls ++ [d]) name = callsOf calls name := by
    simp [callsOf, List.filter_append, Ne.symm h]
  unfold rowOf
  rw [hsame]

/-- A call of a name that has no row yet starts one. -/
theorem rowOf_first {calls : List (Done τ)} {d : Done τ} (h : d.name ∉ distinctNames calls) :
    rowOf (calls ++ [d]) d.name = SummaryEntry.count d.ret d.elapsed ⟨d.name, 0, 0, 0⟩ := by
  have hnone : callsOf calls d.name = [] := by
    refine List.filter_eq_nil_iff.mpr fun e he hname => h ?_
    exact ((distinctNames_spec calls).2 d.name).mpr ⟨e, he, by simpa using hname⟩
  rw [rowOf_concat_self, rowOf, hnone]
  rfl

/-- `summary_lookup_or_add` in a table with a row for each name of a list. -/
theorem recordCall_map {names : List String} (hn : names.Nodup) {row : String → SummaryEntry τ}
    (hrow : ∀ n, (row n).name = n) (name : String) (ret : Int) (elapsed : τ) (room : Nat) :
    recordCall name ret elapsed (names.map row) room =
      if name ∈ names then names.map fun n => if n = name then (row n).count ret elapsed else row n
      else if names.length < room then
        names.map row ++ [SummaryEntry.count ret elapsed ⟨name, 0, 0, 0⟩]
      else names.map row := by
  induction names generalizing room with
  | nil => cases room <;> simp [recordCall]
  | cons n ns ih =>
      obtain ⟨hnew, hns⟩ := List.nodup_cons.mp hn
      rw [List.map_cons, recordCall, strcmpEq_eq, hrow]
      by_cases heq : n = name
      · subst heq
        have hrest : ns.map (fun n' => if n' = n then (row n').count ret elapsed else row n') =
            ns.map row :=
          List.map_congr_left fun n' hn' => if_neg fun h : n' = n => hnew (h ▸ hn')
        rw [decide_eq_true rfl, if_pos rfl, if_pos List.mem_cons_self, List.map_cons, if_pos rfl,
          hrest]
      · rw [decide_eq_false heq, if_neg (by simp), ih hns]
        have hmem : name ∈ n :: ns ↔ name ∈ ns := by
          rw [List.mem_cons, or_iff_right (Ne.symm heq)]
        simp only [hmem, List.length_cons, List.map_cons, if_neg heq]
        split_ifs <;> first | rfl | omega

/-- One more completed call keeps the table right. -/
theorem recordCall_rowsOf (calls : List (Done τ)) (d : Done τ) :
    recordCall d.name d.ret d.elapsed (rowsOf calls) maxSummaryEntries = rowsOf (calls ++ [d]) := by
  have hnodup := (distinctNames_spec calls).1
  have hother : ∀ names : List String, d.name ∉ names →
      names.map (rowOf calls) = names.map (rowOf (calls ++ [d])) := fun names hd =>
    List.map_congr_left fun n hn => (rowOf_concat_other calls fun h => hd (h ▸ hn)).symm
  rw [rowsOf, rowsOf, recordCall_map (hnodup.sublist (List.take_sublist _ _)) (fun _ => rfl),
    distinctNames_concat]
  by_cases hrow : d.name ∈ (distinctNames calls).take maxSummaryEntries
  · -- the name has a row
    rw [if_pos hrow, if_pos (List.mem_of_mem_take hrow)]
    refine List.map_congr_left fun n hn => ?_
    split_ifs with heq
    · rw [heq, rowOf_concat_self]
    · rw [rowOf_concat_other calls heq]
  · rw [if_neg hrow]
    by_cases hfull : maxSummaryEntries ≤ (distinctNames calls).length
    · -- the table is full, and the name is dropped
      rw [if_neg (by rw [List.length_take]; omega), hother _ hrow]
      split_ifs
      · rfl
      · rw [List.take_append_of_le_length hfull]
    · -- the name is new
      have hall : (distinctNames calls).take maxSummaryEntries = distinctNames calls :=
        List.take_of_length_le (by omega)
      rw [hall] at hrow ⊢
      rw [if_pos (by omega), if_neg hrow, List.take_of_length_le
        (by rw [List.length_append, List.length_singleton]; omega), List.map_append,
        List.map_singleton, rowOf_first hrow, hother _ hrow]

end Table

/-! ## The table of a run -/

section Run

variable {τ : Type} {cfg : Config τ}

theorem entryState_currentName (s : Stop) (regs : Regs) (ts : TraceeState) :
    (entryState cfg s regs ts).currentName = some (callOf cfg s regs).name := by
  unfold entryState
  dsimp only
  split_ifs <;> rfl

variable [AddCommMonoid τ]

/-- The exit-stop folds in the call that the entry-stop has opened. -/
theorem exitSummary_entryState (hc : cfg.opts.summaryMode = true) (s s₀ : Stop)
    (regs regs₀ : Regs) (ts : TraceeState) (summary : List (SummaryEntry τ)) :
    exitSummary cfg s regs (entryState cfg s₀ regs₀ ts) summary =
      if syscallAllowed cfg.filter (callOf cfg s₀ regs₀).name then
        recordCall (callOf cfg s₀ regs₀).name (returnValOf regs)
          (cfg.elapsed (callOf cfg s₀ regs₀).start s.now) summary maxSummaryEntries
      else summary := by
  unfold exitSummary
  rw [entryState_suppressed, entryState_currentName,
    entryState_entryTime (by rw [hc, Bool.or_true]), hc]
  cases syscallAllowed cfg.filter (callOf cfg s₀ regs₀).name <;> rfl

/-- The summary after a report. -/
theorem summary_report {st : Tracer τ} {r : Report} {k k' : Kernel}
    (hk : Kernel.Step k (some r) k') (hslot : FindsSlot cfg st r) (hregs : RegsReadable r) :
    (loopBody cfg st (.report r.stop)).summary =
      match r.stop.regs with
      | some regs =>
          if (r.kind = .entry ∨ r.kind = .exit) ∧ (st.tracees.stateOf r.stop.pid).inSyscall = true
          then exitSummary cfg r.stop regs (st.tracees.stateOf r.stop.pid) st.summary
          else st.summary
      | none => st.summary := by
  cases hb : syscallBranch cfg st r.stop with
  | none =>
      -- with a slot and registers a syscall-stop would have taken a branch
      have hkind : ¬(r.kind = .entry ∨ r.kind = .exit) := by
        intro hkind
        obtain ⟨hs, hc⟩ := hk.isSyscallStop hkind
        obtain ⟨regs, hr⟩ := Option.isSome_iff_exists.mp (hregs hkind)
        obtain ⟨t, ht⟩ := Option.ne_none_iff_exists'.mp
          (hslot r.stop.pid (registers_of_stopped cfg hs (by simp [not_isForkEvent hc])))
        rw [syscallBranch_of_slot hs hc ht hr] at hb
        cases hb
      rw [(loopBody_no_branch hb).2]
      cases r.stop.regs with
      | none => rfl
      | some regs => exact (if_neg fun h => hkind h.1).symm
  | some kd =>
      have hkind := kind_of_syscallBranch hk hb
      obtain ⟨-, -, -, rfl⟩ := syscallBranch_eq hb
      cases hin : (st.tracees.stateOf r.stop.pid).inSyscall with
      | false =>
          rw [hin, if_neg Bool.false_ne_true] at hb
          obtain ⟨t, regs, -, hr, hbody⟩ := loopBody_entry hb
          rw [hbody, hr]
          exact (if_neg fun h => Bool.false_ne_true h.2).symm
      | true =>
          rw [hin, if_pos rfl] at hb
          obtain ⟨t, regs, -, hr, hbody⟩ := loopBody_exit hb
          rw [hbody, hr]
          exact (if_pos ⟨hkind, rfl⟩).symm

/-- What the tracer knows, and its table. -/
structure SummaryInv (cfg : Config τ) (root : Nat) (sys : System τ) : Prop
    extends TrackInv cfg root sys where
  summary : sys.tracer.summary = rowsOf (completedCalls cfg sys.log)

/-- Every report within capacity keeps the table right. -/
theorem summaryInv_report (hc : cfg.opts.summaryMode = true) {root : Nat} {sys : System τ}
    (hi : SummaryInv cfg root sys) {r : Report} {k : Kernel}
    (hk : Kernel.Step sys.kernel (some r) k) (hok : CapacityOk cfg root sys r) :
    SummaryInv cfg root ⟨k, loopBody cfg sys.tracer (.report r.stop), sys.log ++ [r]⟩ := by
  refine ⟨trackInv_report hi.toTrackInv hk hok, ?_⟩
  obtain ⟨hentry, hexit⟩ := hi.toggle hk
  have hcall := hi.call r.stop.pid
  rw [completedCalls_concat, summary_report hk (hi.findsSlot hk hok) hok.1, hi.summary]
  -- reports other than exits complete nothing
  have hother : r.kind ≠ .exit →
      doneOf cfg (ownCall cfg none (ownReports r.stop.pid sys.log)) r = [] := by
    intro hne
    unfold doneOf
    split
    · rename_i hkind _ _
      exact absurd hkind hne
    · rfl
  by_cases hx : r.kind = .exit
  · obtain ⟨regs, hr⟩ := Option.isSome_iff_exists.mp (hok.1 (Or.inr hx))
    obtain ⟨s₀, regs₀, ts₀, hts, hcur⟩ := hcall.call_of_inSyscall (hexit hx)
    rw [hr]
    dsimp only
    rw [if_pos ⟨Or.inr hx, hexit hx⟩, hts, exitSummary_entryState hc, hcur]
    simp only [doneOf, hx, hr]
    split_ifs
    · exact recordCall_rowsOf (completedCalls cfg sys.log) ⟨_, _, _⟩
    · rw [List.append_nil]
  · rw [hother hx, List.append_nil]
    split
    · refine if_neg ?_
      rintro ⟨hkind | hkind, hin⟩
      · exact absurd (hin.symm.trans (hentry hkind)) (by decide)
      · exact hx hkind
    · rfl

theorem summaryInv_step (hc : cfg.opts.summaryMode = true) (root : Nat) (sys : System τ)
    (r : Option Report) (sys' : System τ) (hi : SummaryInv cfg root sys)
    (hs : System.Step cfg sys r sys') (hok : ∀ q, r = some q → CapacityOk cfg root sys q) :
    SummaryInv cfg root sys' := by
  cases r with
  | none =>
      obtain ⟨htrack, hlog, -, hsummary⟩ := trackInv_quiet hi.toTrackInv hs
      exact ⟨htrack, by rw [hlog, hsummary, hi.summary]⟩
  | some q =>
      cases hs with
      | report hleft hk => exact summaryInv_report hc hi hk (hok _ rfl)

end Run

/-! ## `print_summary` -/

section Print

variable {τ : Type} [AddCommMonoid τ]

/-- The total row. -/
structure Totals (τ : Type) where
  time : τ
  calls : Nat
  errors : Nat

/-- One round of the loop over `grand_total`, `grand_calls` and `grand_errors`. -/
def Totals.add (t : Totals τ) (e : SummaryEntry τ) : Totals τ :=
  ⟨t.time + e.totalTime, t.calls + e.calls, t.errors + e.errors⟩

/-- What `print_summary` prints: the rows in their final order, and the totals. -/
structure SummaryReport (τ : Type) where
  rows : List (SummaryEntry τ)
  total : Totals τ

theorem foldl_add (rows : List (SummaryEntry τ)) (t : Totals τ) :
    rows.foldl Totals.add t =
      ⟨t.time + (rows.map (·.totalTime)).sum, t.calls + (rows.map (·.calls)).sum,
        t.errors + (rows.map (·.errors)).sum⟩ := by
  induction rows generalizing t with
  | nil => simp
  | cons e es ih =>
      rw [List.foldl_cons, ih]
      simp only [Totals.add, List.map_cons, List.sum_cons, add_assoc]

variable [LinearOrder τ]

/-- `print_summary`. -/
def printSummary (table : List (SummaryEntry τ)) : SummaryReport τ :=
  let rows := selectionSort (·.totalTime) table
  ⟨rows, rows.foldl Totals.add ⟨0, 0, 0⟩⟩

/-- The end of `run_tracer`. -/
def summaryAtEnd (cfg : Config τ) (st : Tracer τ) : Option (SummaryReport τ) :=
  if cfg.opts.summaryMode then some (printSummary st.summary) else none

/-- The totals are the sums over the rows of the table. -/
theorem printSummary_total (table : List (SummaryEntry τ)) :
    (printSummary table).total =
      ⟨(table.map (·.totalTime)).sum, (table.map (·.calls)).sum, (table.map (·.errors)).sum⟩ := by
  have hperm := selectionSort_perm (fun e : SummaryEntry τ => e.totalTime) table
  unfold printSummary
  dsimp only
  rw [foldl_add, zero_add, Nat.zero_add, Nat.zero_add, (hperm.map _).sum_eq, (hperm.map _).sum_eq,
    (hperm.map _).sum_eq]

/-- In every run with `-c` that never has more registered processes than slots, the table
counts the completed calls, and the report shows its rows by decreasing time and their
sums. -/
theorem summary_accounts_for_calls (cfg : Config τ) (hc : cfg.opts.summaryMode = true) (root : Nat)
    (sys : System τ) (h : System.Reachable cfg (CapacityOk cfg root) root sys) :
    sys.tracer.summary = rowsOf (completedCalls cfg sys.log) ∧
    ∃ report, summaryAtEnd cfg sys.tracer = some report ∧
      report.rows.Perm sys.tracer.summary ∧
      report.rows.Pairwise (fun e e' => e'.totalTime ≤ e.totalTime) ∧
      report.total = ⟨(report.rows.map (·.totalTime)).sum, (report.rows.map (·.calls)).sum,
        (report.rows.map (·.errors)).sum⟩ := by
  have hinv : SummaryInv cfg root sys :=
    h.induct ⟨trackInv_init root, rfl⟩ (summaryInv_step hc root)
  have hperm := selectionSort_perm (fun e : SummaryEntry τ => e.totalTime) sys.tracer.summary
  refine ⟨hinv.summary, printSummary sys.tracer.summary, if_pos hc, hperm,
    selectionSort_pairwise _ _, ?_⟩
  rw [printSummary_total]
  simp only [printSummary, (hperm.map _).sum_eq]

end Print

/-! ## Runs -/

/-- `-f -c`. -/
def summaryOptions : Options := { followOptions with summaryMode := true }

/-- `getpid` and `close`, with the time in nanoseconds. -/
def twoCallsConfig : Config Nat :=
  { Config.plain summaryOptions with
    syscallName := fun n => if n = 39 then "getpid" else if n = 3 then "close" else "unknown"
    elapsed := fun start now => (now.nsec - start.nsec).toNat }

/-- A syscall-stop of `pid` with the given number and result. -/
def callStop (pid : Nat) (no result : Word) (nsec : Int) : Stop :=
  { Stop.plain pid 0x857f with
    regs := some ⟨no, result, 0, 0, 0, 0, 0, 0⟩
    now := ⟨0, nsec⟩ }

/-- Process 2 fails to close a descriptor while process 1 is in `getpid`, and then calls
`getpid` too. -/
theorem summary_of_two :
    ∃ sys, System.Reachable twoCallsConfig (CapacityOk twoCallsConfig 1) 1 sys ∧
      sys.log.map (fun r => (r.stop.pid, r.kind)) =
        [(1, .forkEvent), (1, .entry), (2, .entry), (2, .exit), (1, .exit), (2, .entry),
          (2, .exit)] ∧
      sys.tracer.summary.map (fun e => (e.name, e.calls, e.errors, e.totalTime)) =
        [("close", 1, 1, 30), ("getpid", 2, 0, 55)] := by
  have h₀ : System.Reachable twoCallsConfig (CapacityOk twoCallsConfig 1) 1 (.init 1) := .refl
  have h₁ := h₀.create (p := 1) (c := 2) (by decide) (by decide)
  have h₂ := h₁.report (r := ⟨Stop.fork 1 2, .forkEvent⟩) rfl
    (.forkEvent (c := 2) (by decide) (by decide) (by decide) rfl)
    ⟨fun h => absurd h (by decide), by decide⟩
  have h₃ := h₂.report (r := ⟨callStop 1 39 0 10, .entry⟩) rfl
    (.entry (by decide) (by decide) (by decide) rfl) ⟨fun _ => rfl, by decide⟩
  have h₄ := h₃.report (r := ⟨callStop 2 3 0 20, .entry⟩) rfl
    (.entry (by decide) (by decide) (by decide) rfl) ⟨fun _ => rfl, by decide⟩
  have h₅ := h₄.report (r := ⟨callStop 2 3 (-9) 50, .exit⟩) rfl
    (.exit (by decide) (by decide) (by decide) rfl) ⟨fun _ => rfl, by decide⟩
  have h₆ := h₅.report (r := ⟨callStop 1 39 1 60, .exit⟩) (by decide +kernel)
    (.exit (by decide) (by decide) (by decide) rfl) ⟨fun _ => rfl, by decide⟩
  have h₇ := h₆.report (r := ⟨callStop 2 39 0 70, .entry⟩) (by decide +kernel)
    (.entry (by decide) (by decide) (by decide) rfl) ⟨fun _ => rfl, by decide⟩
  have h₈ := h₇.report (r := ⟨callStop 2 39 2 75, .exit⟩) (by decide +kernel)
    (.exit (by decide) (by decide) (by decide) rfl) ⟨fun _ => rfl, by decide⟩
  refine ⟨_, h₈, rfl, ?_⟩
  rw [(summary_accounts_for_calls twoCallsConfig rfl 1 _ h₈).1]
  decide +kernel

/-- Never more than three processes are alive, and process 65 completes a call that no row
counts. -/
theorem summary_misses_call :
    ∃ sys, System.Reachable (Config.plain summaryOptions) FewLive 1 sys ∧
      sys.tracer.left ≠ none ∧
      completedCalls (Config.plain summaryOptions) sys.log = [⟨"getpid", 0, 0⟩] ∧
      sys.tracer.summary = [] := by
  obtain ⟨sys, rs, h₀, hlive, hpend, hleft, hactive, -, hsum, hlog, hrs⟩ :=
    lost_call (show summaryOptions.followForks = true from rfl)
  -- two more ends, and the count is zero
  have hgone : ∀ st pid, loopBody (Config.plain summaryOptions) st (.report (Stop.plain pid 0)) =
      handleGone (Config.plain summaryOptions) st (Stop.plain pid 0) :=
    fun st _ => handleReport_gone _ rfl st
  have h₁ := h₀.report (r := ⟨Stop.plain 65 0, .gone⟩) hleft
    (.gone (by simp [hlive, Stop.plain]) (by simp [hpend]) rfl)
    ⟨fun h => absurd h (by simp), by simp [hlive]⟩
  simp only [hgone] at h₁
  have h₂ := h₁.report (r := ⟨Stop.plain 2 0, .gone⟩) (by simp [handleGone, hactive])
    (.gone (by simp [hlive, Stop.plain]) (by simp [hpend]) rfl)
    ⟨fun h => absurd h (by simp), by simp [hlive, Stop.plain]⟩
  simp only [hgone] at h₂
  refine ⟨_, h₂, by simp [handleGone, hactive], ?_, hsum⟩
  -- the call of process 65 is the only one that was completed
  dsimp only
  rw [hlog, List.append_assoc, List.append_assoc, completedCalls, completedFrom_append,
    completedFrom_of_no_exit _ _ fun r hr => (hrs r hr).1, List.nil_append]
  simp only [List.cons_append, List.nil_append, completedFrom, foldl_callsNext]
  change doneOf _ (ownCall _ none (ownReports 65 rs)) _ ++ _ = _
  rw [ownReports_eq_nil fun r hr => (hrs r hr).2]
  rfl

end MiniStrace
