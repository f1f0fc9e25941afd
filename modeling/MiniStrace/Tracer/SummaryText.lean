/-
  Tracer/SummaryText.lean --- the text of `print_summary`, and what can be read from it.

  THE TEXT.  Two lines of heading, a line for each row in the order of the sort, a rule and
  the totals.  How the floating-point columns are printed is left open (`SummaryFormat`);
  the integer columns and the widths are those of the source.

  READ BACK.  A count that is wider than its column moves the rest of the line, but the table
  can always be taken apart again: `readSummary` finds the name, the calls and the errors of
  every row, and the two totals.
-/
import MiniStrace.Lib.Columns
import MiniStrace.Tracer.ReadBack

set_option autoImplicit false

namespace MiniStrace

open CLib

/-! ## The text -/

/-- The conversions of floating-point numbers in `print_summary`. -/
structure SummaryFormat (τ : Type) where
  /-- `%.2f` of a time as a percentage of another -/
  percent : τ → τ → Text
  /-- `%.6f` -/
  seconds : τ → Text
  /-- `(long)(total_time * 1e6 / calls)` -/
  usecs : τ → Nat → Int

section Text

variable {τ : Type} [Zero τ] [LinearOrder τ] (fmt : SummaryFormat τ)

/-- The line of a row. -/
def summaryRow (grandTotal : τ) (e : SummaryEntry τ) : Text :=
  let pct := if 0 < grandTotal then fmt.percent e.totalTime grandTotal else lit "0.00"
  let usecsPerCall := if 0 < e.calls then fmt.usecs e.totalTime e.calls else 0
  joinColumns [(6, pct), (11, fmt.seconds e.totalTime), (11, decInt usecsPerCall),
    (9, dec e.calls), (9, dec e.errors)] (lit e.name)

/-- The line of the totals. -/
def summaryTotals (t : Totals τ) : Text :=
  joinColumns [(0, lit "100.00"), (11, fmt.seconds t.time), (11, []), (9, dec t.calls),
    (9, dec t.errors)] (lit "total")

def summaryHeading : Text := lit "% time     seconds  usecs/call     calls    errors syscall"

def summaryRule : Text :=
  lit "------ ----------- ----------- --------- --------- ----------------"

/-- What `print_summary` writes. -/
def summaryText (report : SummaryReport τ) : Text :=
  unlines ([summaryHeading, summaryRule] ++ report.rows.map (summaryRow fmt report.total.time) ++
    [summaryRule, summaryTotals fmt report.total])

end Text

/-! ## The reader -/

/-- The name, the calls and the errors of a line. -/
def readRow (line : Text) : Text × Nat × Nat :=
  let cols := fields 0x20 line
  (cols.getD 5 [], readNumeral 10 (cols.getD 3 []), readNumeral 10 (cols.getD 4 []))

/-- The calls and the errors of the last line. -/
def readTotals (line : Text) : Nat × Nat :=
  let cols := fields 0x20 line
  (readNumeral 10 (cols.getD 2 []), readNumeral 10 (cols.getD 3 []))

/-- The rows and the totals of a table. -/
def readSummary (out : Text) : List (Text × Nat × Nat) × Nat × Nat :=
  let ls := linesOf out
  ((ls.drop 2).dropLast.dropLast.map readRow, readTotals (ls.getLast?.getD []))

/-! ## Lines -/

section Lines

variable {τ : Type} {fmt : SummaryFormat τ}

/-- The conversions print entries of columns. -/
structure SummaryFormat.Plain (fmt : SummaryFormat τ) : Prop where
  percent : ∀ t total, IsEntry (fmt.percent t total)
  seconds : ∀ t, IsEntry (fmt.seconds t)

theorem readNumeral_dec (n : Nat) : readNumeral 10 (dec n) = n :=
  ofDigits_numeral (by decide) (by decide)

theorem readTotals_summaryTotals (hfmt : fmt.Plain) (t : Totals τ) :
    0x0a ∉ summaryTotals fmt t ∧ readTotals (summaryTotals fmt t) = (t.calls, t.errors) := by
  have hsec := hfmt.seconds t.time
  have hcalls := isEntry_dec t.calls
  have herrors := isEntry_dec t.errors
  have hhundred : IsEntry (lit "100.00") := by constructor <;> with_unfolding_all decide
  have htotal : IsEntry (lit "total") := by constructor <;> with_unfolding_all decide
  rw [summaryTotals]
  constructor
  · refine not_mem_joinColumns (by decide) ?_ htotal.noNewline
    simp [hhundred.noNewline, hsec.noNewline, hcalls.noNewline, herrors.noNewline]
  · rw [readTotals, fields_joinColumns
      (by simp [hhundred.noBlank, hsec.noBlank, hcalls.noBlank, herrors.noBlank]) htotal.noBlank]
    simp [hhundred.ne_nil, hsec.ne_nil, hcalls.ne_nil, herrors.ne_nil, htotal.ne_nil,
      readNumeral_dec]

variable [Zero τ] [LinearOrder τ]

/-- The columns of a row. -/
theorem summaryRow_eq (hfmt : fmt.Plain) (grandTotal : τ) (e : SummaryEntry τ) :
    ∃ pct usecs, IsEntry pct ∧ summaryRow fmt grandTotal e =
      joinColumns [(6, pct), (11, fmt.seconds e.totalTime), (11, decInt usecs),
        (9, dec e.calls), (9, dec e.errors)] (lit e.name) := by
  have hzero : IsEntry (lit "0.00") := by constructor <;> with_unfolding_all decide
  refine ⟨_, _, ?_, rfl⟩
  split_ifs
  · exact hfmt.percent _ _
  · exact hzero

theorem readRow_summaryRow (hfmt : fmt.Plain) (grandTotal : τ) {e : SummaryEntry τ}
    (hname : ∀ b ∈ lit e.name, NameByte b) :
    0x0a ∉ summaryRow fmt grandTotal e ∧
      readRow (summaryRow fmt grandTotal e) = (lit e.name, e.calls, e.errors) := by
  obtain ⟨pct, usecs, hpct, hrow⟩ := summaryRow_eq hfmt grandTotal e
  have hsec := hfmt.seconds e.totalTime
  have husecs := isEntry_decInt usecs
  have hcalls := isEntry_dec e.calls
  have herrors := isEntry_dec e.errors
  rw [hrow]
  constructor
  · refine not_mem_joinColumns (by decide) ?_ fun h => hname _ h (by decide)
    simp [hpct.noNewline, hsec.noNewline, husecs.noNewline, hcalls.noNewline, herrors.noNewline]
  · rw [readRow, fields_joinColumns
      (by simp [hpct.noBlank, hsec.noBlank, husecs.noBlank, hcalls.noBlank, herrors.noBlank])
      (fun h => hname _ h (by decide))]
    -- a name may be empty, and is then not among the fields
    by_cases hempty : lit e.name = [] <;>
      simp [hempty, hpct.ne_nil, hsec.ne_nil, husecs.ne_nil, hcalls.ne_nil, herrors.ne_nil,
        readNumeral_dec]

/-- The whole table. -/
theorem readSummary_summaryText (hfmt : fmt.Plain) {report : SummaryReport τ}
    (hnames : ∀ e ∈ report.rows, ∀ b ∈ lit e.name, NameByte b) :
    readSummary (summaryText fmt report) =
      (report.rows.map fun e => (lit e.name, e.calls, e.errors), report.total.calls,
        report.total.errors) := by
  have hheading : 0x0a ∉ summaryHeading ∧ 0x0a ∉ summaryRule := by with_unfolding_all decide
  have htotals := readTotals_summaryTotals hfmt report.total
  have hrows : ∀ e ∈ report.rows, _ := fun e he =>
    readRow_summaryRow hfmt report.total.time (hnames e he)
  have hlines : linesOf (summaryText fmt report) = [summaryHeading, summaryRule] ++
      report.rows.map (summaryRow fmt report.total.time) ++
      [summaryRule, summaryTotals fmt report.total] := by
    rw [summaryText, ← List.append_nil (unlines _)]
    refine linesOf_unlines (fun l hl => ?_) List.not_mem_nil
    simp only [List.mem_append, List.mem_cons, List.not_mem_nil, or_false, List.mem_map] at hl
    rcases hl with ((rfl | rfl) | ⟨e, he, rfl⟩) | (rfl | rfl)
    · exact hheading.1
    · exact hheading.2
    · exact (hrows e he).1
    · exact hheading.2
    · exact htotals.1
  have hmap : (report.rows.map (summaryRow fmt report.total.time)).map readRow =
      report.rows.map fun e => (lit e.name, e.calls, e.errors) := by
    rw [List.map_map]
    exact List.map_congr_left fun e he => (hrows e he).2
  have hend : [summaryHeading, summaryRule] ++
      report.rows.map (summaryRow fmt report.total.time) ++
      [summaryRule, summaryTotals fmt report.total] = summaryHeading :: summaryRule ::
      (report.rows.map (summaryRow fmt report.total.time) ++ [summaryRule] ++
        [summaryTotals fmt report.total]) := by simp
  rw [readSummary, hlines, hend, List.drop_succ_cons, List.drop_succ_cons, List.drop_zero,
    List.dropLast_concat, List.dropLast_concat, hmap, ← List.cons_append, ← List.cons_append, List.getLast?_concat,
    Option.getD_some, htotals.2]

end Lines

/-! ## Whole runs -/

section Runs

variable {τ : Type} [AddCommMonoid τ]

/-- The rows are those of calls that were made. -/
theorem mem_rowsOf {calls : List (Done τ)} {e : SummaryEntry τ} (h : e ∈ rowsOf calls) :
    ∃ d ∈ calls, d.name = e.name := by
  rw [rowsOf, List.mem_map] at h
  obtain ⟨name, hname, rfl⟩ := h
  exact ((distinctNames_spec calls).2 name).mp (List.mem_of_mem_take hname)

variable [LinearOrder τ]

/-- Whatever a run with `-c` has counted, the table it prints can be read: the rows with their
names, calls and errors, in the order of the table, and the sums. -/
theorem summary_reads_back (cfg : Config τ) (header : List (List Char))
    (hnames : cfg.syscallName = (generate header).syscallName)
    (hc : cfg.opts.summaryMode = true) (fmt : SummaryFormat τ) (hfmt : fmt.Plain) (child : Nat)
    (ws : List Wait) :
    ∃ report, summaryAtEnd cfg (runTracer cfg child ws) = some report ∧
      report.rows.Perm (runTracer cfg child ws).summary ∧
      readSummary (summaryText fmt report) =
        (report.rows.map fun e => (lit e.name, e.calls, e.errors),
          ((runTracer cfg child ws).summary.map (·.calls)).sum,
          ((runTracer cfg child ws).summary.map (·.errors)).sum) := by
  have hfollows := follows_runTracer cfg child ws
  have hperm := selectionSort_perm (fun e : SummaryEntry τ => e.totalTime)
    (runTracer cfg child ws).summary
  refine ⟨printSummary (runTracer cfg child ws).summary, if_pos hc, hperm, ?_⟩
  rw [readSummary_summaryText hfmt, printSummary_total]
  intro e he
  have hrow := hperm.subset he
  rw [hfollows.summary, tableOf, if_pos hc] at hrow
  obtain ⟨d, hd, hname⟩ := mem_rowsOf hrow
  obtain ⟨event, hevent, hdone⟩ := List.mem_flatMap.mp hd
  have hnamed := observe_named cfg.opts.followForks cfg.syscallName child ws event hevent
  rw [← hname]
  cases event with
  | returned t c ret now =>
      obtain ⟨n, hn⟩ := hnamed
      rw [Event.done] at hdone
      split_ifs at hdone
      · rw [List.mem_singleton.mp hdone, hn, hnames]
        exact syscallName_nameByte header n
      · cases hdone
  | entered | signalled | created | gone => cases hdone

end Runs

/-- A format that prints every time as `0`. -/
def zeroFormat : SummaryFormat Nat := ⟨fun _ _ => lit "0.00", fun _ => lit "0.000000", fun _ _ => 0⟩

theorem zeroFormat_plain : zeroFormat.Plain := by
  have hpercent : IsEntry (lit "0.00") := by constructor <;> with_unfolding_all decide
  have hseconds : IsEntry (lit "0.000000") := by constructor <;> with_unfolding_all decide
  exact ⟨fun _ _ => hpercent, fun _ => hseconds⟩

/-- Two calls of `getpid`. -/
theorem summary_reads_back_getpid :
    ∃ report, summaryAtEnd getpidConfig.counting (runTracer getpidConfig.counting 1
        [.report (getpidStop 1), .report (getpidStop 1), .report (getpidStop 1),
          .report (getpidStop 1)]) = some report ∧
      readSummary (summaryText zeroFormat report) =
        (report.rows.map fun e => (lit e.name, e.calls, e.errors), 2, 0) := by
  obtain ⟨report, hreport, -, hread⟩ := summary_reads_back getpidConfig.counting getpidHeader rfl rfl
    zeroFormat zeroFormat_plain 1 [.report (getpidStop 1), .report (getpidStop 1),
      .report (getpidStop 1), .report (getpidStop 1)]
  exact ⟨report, hreport, hread.trans (congrArg (Prod.mk _) (by decide +kernel))⟩

end MiniStrace
