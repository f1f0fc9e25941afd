/-
  Tracer/Display.lean --- what the display options do to a run.

  Everything here compares runs of the tracer on the same results of `waitpid` under
  different options.

  TRACKING.  `-e`, `-T`, `-c`, `-y` and `-s` decide nothing but what is printed: the same
  processes are followed, the same stops are taken for entries and exits, the same calls
  are counted, and the loop ends in the same round with the same messages.

  SELECTION.  `-e` drops calls, and leaves the text of the others as it is.

  COUNTING.  The totals of `-c` are the numbers of result groups that the same run prints
  without it.
-/
import MiniStrace.Lib.Lines
import MiniStrace.SyscallNames
import MiniStrace.Tracer.Observer

set_option autoImplicit false

namespace MiniStrace

open CLib

/-! ## Tracking -/

section Tracking

variable {τ : Type}

theorem InCall.inSyscall_eq {cfg : Config τ} {cur : Option Call} {ts : TraceeState}
    (h : InCall cfg cur ts) : ts.inSyscall = cur.isSome := by
  cases cur with
  | none => exact h
  | some c =>
      obtain ⟨s, regs, ts₀, rfl, -⟩ := h
      exact entryState_inSyscall cfg s regs ts₀

theorem messages_congr {cfg cfg' : Config τ}
    (hf : cfg.opts.followForks = cfg'.opts.followForks) : Event.messages cfg = Event.messages cfg' := by
  funext e
  cases e with
  | entered | returned | signalled | created => rfl
  | gone => simp only [Event.messages, goneMessages, hf]

variable [AddCommMonoid τ]

/-- What the tracer takes a process to be doing is what the observer does. -/
theorem Follows.phase {cfg : Config τ} {st : Tracer τ} {o : Observer} (h : Follows cfg st o)
    (pid : Nat) : (st.tracees.find pid).map (·.inSyscall) = (o.calls.lookup pid).map (·.isSome) := by
  rcases h.calls.cases pid with ⟨hf, hl⟩ | ⟨ts, cur, hf, hl, hts⟩ <;> rw [hf, hl]
  · rfl
  · rw [Option.map_some, Option.map_some, hts.inSyscall_eq]

/-- Two runs on the same results of `waitpid`, with the same `-f` and the same syscall
names, follow the same processes in the same phases, count the same, report the same and
end in the same round, whatever the other options are. -/
theorem display_options_passive (cfg cfg' : Config τ)
    (hf : cfg.opts.followForks = cfg'.opts.followForks) (hn : cfg.syscallName = cfg'.syscallName)
    (child : Nat) (ws : List Wait) :
    let st := runTracer cfg child ws
    let st' := runTracer cfg' child ws
    st.activeCount = st'.activeCount ∧ st.callCount = st'.callCount ∧ st.left = st'.left ∧
      st.status = st'.status ∧
      ∀ pid, (st.tracees.find pid).map (·.inSyscall) = (st'.tracees.find pid).map (·.inSyscall) := by
  have h := follows_runTracer cfg child ws
  have h' := follows_runTracer cfg' child ws
  rw [← hf, ← hn] at h'
  refine ⟨h.activeCount.trans h'.activeCount.symm, h.callCount.trans h'.callCount.symm,
    h.left.trans h'.left.symm, ?_, fun pid => ?_⟩
  · rw [h.status, h'.status, messages_congr hf]
  · rw [h.phase, h'.phase]

end Tracking

/-- `getpid` under `-f` and under `-f -c -e trace=file`. -/
theorem display_options_getpid :
    (runTracer (Config.plain followOptions) 1
        [.report (getpidStop 1), .report (Stop.plain 1 0)]).status =
      (runTracer { Config.plain summaryOptions with filter := [lit "file"] } 1
        [.report (getpidStop 1), .report (Stop.plain 1 0)]).status :=
  (display_options_passive (Config.plain followOptions)
    { Config.plain summaryOptions with filter := [lit "file"] } rfl rfl 1
    [.report (getpidStop 1), .report (Stop.plain 1 0)]).2.2.2.1

/-! ## Selection -/

section Selection

variable {τ : Type}

/-- `-e` does not drop the event. -/
def Event.passes (filter : Filter) : Event → Bool
  | .entered _ c | .returned _ c _ _ => syscallAllowed filter c.name
  | .signalled .. | .created _ | .gone .. => true

/-- The same options without `-e`. -/
def Config.unfiltered (cfg : Config τ) : Config τ := { cfg with filter := [] }

/-- An event is shown as without `-e`, or not at all. -/
theorem chunks_eq_ite (cfg : Config τ) (e : Event) :
    e.chunks cfg = if e.passes cfg.filter then e.chunks cfg.unfiltered else [] := by
  have hall : ∀ name, syscallAllowed cfg.unfiltered.filter name = true := fun _ => rfl
  cases e with
  | entered t c =>
      simp only [Event.chunks, Event.passes, hall, Bool.not_true, Bool.false_or]
      cases syscallAllowed cfg.filter c.name <;> rfl
  | returned t c ret now =>
      simp only [Event.chunks, Event.passes, hall, Bool.not_true, Bool.false_or]
      cases syscallAllowed cfg.filter c.name <;> rfl
  | signalled | created | gone => rfl

theorem flatMap_chunks_filter (cfg : Config τ) (events : List Event) :
    events.flatMap (Event.chunks cfg) =
      (events.filter (Event.passes cfg.filter)).flatMap (Event.chunks cfg.unfiltered) := by
  induction events with
  | nil => rfl
  | cons e events ih =>
      rw [List.flatMap_cons, ih, chunks_eq_ite, List.filter_cons]
      split_ifs
      · rw [List.flatMap_cons]
      · rw [List.nil_append]

variable [AddCommMonoid τ]

/-- With `-e`, a run prints the events that pass the filter as it prints them without `-e`,
and no others; so its trace is a part of the trace without `-e`. -/
theorem filter_selects (cfg : Config τ) (child : Nat) (ws : List Wait) :
    let events := (observe cfg.opts.followForks cfg.syscallName child ws).events
    (runTracer cfg.unfiltered child ws).trace = events.flatMap (Event.chunks cfg.unfiltered) ∧
      (runTracer cfg child ws).trace =
        (events.filter (Event.passes cfg.filter)).flatMap (Event.chunks cfg.unfiltered) ∧
      (runTracer cfg child ws).trace.Sublist (runTracer cfg.unfiltered child ws).trace := by
  intro events
  have hall : (runTracer cfg.unfiltered child ws).trace =
      events.flatMap (Event.chunks cfg.unfiltered) := (follows_runTracer _ child ws).trace
  have hsel : (runTracer cfg child ws).trace =
      (events.filter (Event.passes cfg.filter)).flatMap (Event.chunks cfg.unfiltered) :=
    (follows_runTracer cfg child ws).trace.trans (flatMap_chunks_filter cfg events)
  refine ⟨hall, hsel, ?_⟩
  rw [hall, hsel]
  exact List.filter_sublist.flatMap _

end Selection

/-! ## Names -/

/-- The bytes that make the shape of a line: newline, blank, parenthesis, dash and equals. -/
def shapeBytes : List Byte := [0x0a, 0x20, 0x28, 0x2d, 0x3d]

/-- Any other byte. -/
def NameByte (b : Byte) : Prop := b ∉ shapeBytes

theorem utf8EncodeChar_isWord {c : Char} (h : isWord c) :
    ∀ b ∈ String.utf8EncodeChar c, NameByte b := by
  have hrange : c.val.toNat ≤ 127 ∧ ∀ k ∈ shapeBytes, c.val.toNat ≠ k.toNat := by
    simp only [isWord, Char.isAlphanum, Char.isAlpha, Char.isUpper, Char.isLower, Char.isDigit,
      Bool.or_eq_true, Bool.and_eq_true, decide_eq_true_eq, UInt32.le_iff_toNat_le,
      ge_iff_le] at h
    have hz : 'Z'.val.toNat = 90 ∧ 'A'.val.toNat = 65 ∧ 'z'.val.toNat = 122 ∧
      'a'.val.toNat = 97 ∧ '9'.val.toNat = 57 ∧ '0'.val.toNat = 48 := by decide
    rcases h with h | rfl
    · refine ⟨by omega, fun k hk => ?_⟩
      have hshape : ∀ k ∈ shapeBytes, k.toNat < 48 ∨ k.toNat = 61 := by decide +kernel
      have := hshape k hk
      omega
    · decide +kernel
  obtain ⟨hle, hne⟩ := hrange
  intro b hb
  rw [String.utf8EncodeChar, if_pos hle, List.mem_singleton] at hb
  have hb' : b.toNat = c.val.toNat := by
    rw [hb, UInt8.toNat_ofNat', Nat.mod_eq_of_lt (by omega)]
  exact fun hmem => hne b hmem hb'.symm

/-- The generated names have none of these bytes. -/
theorem syscallName_nameByte (header : List (List Char)) (nr : Int) :
    ∀ b ∈ lit ((generate header).syscallName nr), NameByte b := by
  intro b hb
  rw [lit_eq_flatMap, List.mem_flatMap] at hb
  obtain ⟨c, hc, hb⟩ := hb
  exact utf8EncodeChar_isWord (syscallName_isWord header nr c hc) b hb

/-! ## Counting -/

/-- The group that ends a call. -/
def Chunk.isResult (c : Chunk) : Bool := (lit "= ").isPrefixOf c.text

/-- The group that ends a failed call. -/
def Chunk.isFailure (c : Chunk) : Bool := (lit "= -").isPrefixOf c.text

section Counting

variable {τ : Type}

/-- The calls of the names that have a row, together. -/
theorem sum_countP_callsOf [AddCommMonoid τ] (p : Done τ → Bool) (calls : List (Done τ))
    {names : List String} (hn : names.Nodup) (hall : ∀ d ∈ calls, d.name ∈ names) :
    (names.map fun n => (callsOf calls n).countP p).sum = calls.countP p := by
  induction calls with
  | nil => simp [callsOf]
  | cons d calls ih =>
      have hstep : ∀ n, (callsOf (d :: calls) n).countP p =
          (callsOf calls n).countP p + if n = d.name then (if p d then 1 else 0) else 0 := by
        intro n
        unfold callsOf
        by_cases hd : d.name = n
        · simp [hd, List.countP_cons]
        · simp [hd, Ne.symm hd]
      have hone : (names.map fun n => if n = d.name then (if p d then 1 else 0) else 0).sum =
          if p d then 1 else 0 := by
        rw [← List.sum_toFinset _ hn, Finset.sum_ite_eq']
        exact if_pos (List.mem_toFinset.mpr (hall d List.mem_cons_self))
      simp only [hstep]
      rw [List.sum_map_add, hone, ih fun e he => hall e (List.mem_cons_of_mem d he),
        List.countP_cons]

/-- The totals of a table that is not full count every call. -/
theorem sum_rowsOf [AddCommMonoid τ] {calls : List (Done τ)}
    (hroom : (rowsOf calls).length < maxSummaryEntries) :
    ((rowsOf calls).map (·.calls)).sum = calls.length ∧
      ((rowsOf calls).map (·.errors)).sum = calls.countP (·.ret < 0) := by
  obtain ⟨hnodup, hmem⟩ := distinctNames_spec calls
  have hall : (distinctNames calls).take maxSummaryEntries = distinctNames calls := by
    rw [rowsOf, List.length_map, List.length_take] at hroom
    exact List.take_of_length_le (by omega)
  have hnames : ∀ d ∈ calls, d.name ∈ distinctNames calls := fun d hd =>
    (hmem d.name).mpr ⟨d, hd, rfl⟩
  have hcalls := sum_countP_callsOf (fun _ => true) calls hnodup hnames
  have herrors := sum_countP_callsOf (·.ret < 0) calls hnodup hnames
  simp only [List.countP_true] at hcalls
  rw [rowsOf, hall, List.map_map, List.map_map]
  refine ⟨hcalls, herrors.symm ▸ ?_⟩
  simp only [List.countP_eq_length_filter]
  rfl

variable (cfg : Config τ)

/-- The same options with `-c`. -/
def Config.counting : Config τ := { cfg with opts.summaryMode := true }

/-- The same options without `-c`. -/
def Config.listing : Config τ := { cfg with opts.summaryMode := false }

theorem lit_result : lit "= " = [0x3d, 0x20] := by with_unfolding_all decide

theorem lit_failure : lit "= -" = [0x3d, 0x20, 0x2d] := by with_unfolding_all decide

/-- A text that does not start with `=` is not a result. -/
theorem not_isResult (pid : Nat) {t : Text} (h : t.head? ≠ some 0x3d) :
    Chunk.isResult ⟨pid, t⟩ = false ∧ Chunk.isFailure ⟨pid, t⟩ = false := by
  unfold Chunk.isResult Chunk.isFailure
  rw [lit_result, lit_failure]
  cases t with
  | nil => exact ⟨rfl, rfl⟩
  | cons c t =>
      have hc : ((0x3d : Byte) == c) = false := by
        rw [beq_eq_false_iff_ne]
        rintro rfl
        exact h rfl
      simp only [List.isPrefixOf, hc, Bool.false_and]
      exact ⟨trivial, trivial⟩

/-- A call group starts with a bracket, with the name of the call or with a parenthesis. -/
theorem head_printCall (follow : Bool) (pid : Nat) {name : String}
    (hname : (lit name).head? ≠ some 0x3d) (argbuf : Nat → Text) :
    (printCall (pidPrefix follow pid) name argbuf).head? ≠ some 0x3d := by
  have hpid : lit "[pid " = [0x5b, 0x70, 0x69, 0x64, 0x20] := by with_unfolding_all decide
  have hopen : lit "(" = [0x28] := by with_unfolding_all decide
  unfold printCall pidPrefix
  cases follow with
  | true => simp [hpid]
  | false =>
      cases hlit : lit name with
      | nil => simp [hopen]
      | cons c t =>
          rw [hlit] at hname
          simpa using hname

theorem head_signalLine (host : Host) (opts : Options) (pid sig : Nat) :
    (signalLine host opts pid sig).head? ≠ some 0x3d := by
  have hpid : lit "[pid " = [0x5b, 0x70, 0x69, 0x64, 0x20] := by with_unfolding_all decide
  have hdash : lit "--- SIG" = [0x2d, 0x2d, 0x2d, 0x20, 0x53, 0x49, 0x47] := by
    with_unfolding_all decide
  unfold signalLine pidPrefix
  cases opts.followForks <;> simp [hpid, hdash]

/-- A result group is one, and is a failure when the call returned a negative number. -/
theorem isResult_printRet (host : Host) (pid : Nat) (ret : Int) (timing : Text) :
    Chunk.isResult ⟨pid, printRet host ret timing⟩ = true ∧
      Chunk.isFailure ⟨pid, printRet host ret timing⟩ = decide (ret < 0) := by
  have hdigit : ∀ n t, ([0x2d] : Text).isPrefixOf (dec n ++ t) = false := by
    intro n t
    obtain ⟨c, cs, hc⟩ := List.exists_cons_of_ne_nil (numeral_ne_nil 10 n)
    have hne : c ≠ 0x2d := by
      rintro rfl
      exact absurd (mem_dec (n := n) (by rw [dec, hc]; exact List.mem_cons_self)).1 (by decide)
    rw [dec, hc, List.cons_append, List.isPrefixOf, beq_eq_false_iff_ne.mpr hne.symm, Bool.false_and]
  unfold printRet Chunk.isResult Chunk.isFailure
  rw [lit_result, lit_failure]
  by_cases hneg : ret < 0
  · simp [hneg, decInt, lit_minus]
  · simp [hneg, decInt, hdigit]

/-- No syscall has a name that starts with `=`. -/
def Config.PlainNames : Prop := ∀ n, (lit (cfg.syscallName n)).head? ≠ some 0x3d

/-- The generated names consist of word characters. -/
theorem plainNames_generated {cfg : Config τ} {header : List (List Char)}
    (h : cfg.syscallName = (generate header).syscallName) : cfg.PlainNames := by
  intro n
  rw [h]
  have hbytes := syscallName_nameByte header n
  cases hname : lit ((generate header).syscallName n) with
  | nil => simp
  | cons b bs =>
      have hb := hbytes b (by rw [hname]; exact List.mem_cons_self)
      rintro ⟨⟩
      exact hb (by decide)

/-- The name of a call is one the table has. -/
def Event.Named (names : Int → String) : Event → Prop
  | .entered _ c | .returned _ c _ _ => ∃ n, c.name = names n
  | .signalled .. | .created _ | .gone .. => True

/-- The names of the calls in progress, and of those seen. -/
structure Observer.Named (names : Int → String) (o : Observer) : Prop where
  calls : ∀ pid c, o.calls.lookup pid = some (some c) → ∃ n, c.name = names n
  events : ∀ e ∈ o.events, e.Named names

theorem Observer.Named.emit {names : Int → String} {o o' : Observer} (h : o.Named names)
    (hcalls : ∀ pid c, o'.calls.lookup pid = some (some c) → ∃ n, c.name = names n) {e : Event}
    (hevents : o'.events = o.events ++ [e]) (he : e.Named names) : o'.Named names where
  calls := hcalls
  events := by
    intro e' he'
    rw [hevents, List.mem_append, List.mem_singleton] at he'
    rcases he' with he' | rfl
    · exact h.events e' he'
    · exact he

theorem observer_named (names : Int → String) : Observer.Keeps names (Observer.Named names) where
  track := by
    intro o pid calls h hr
    refine ⟨fun q c hq => ?_, h.events⟩
    rw [BoundedMap.lookup_of_register hr] at hq
    split_ifs at hq with hqp
    · cases hl : o.calls.lookup pid with
      | none => simp [hl] at hq
      | some cur =>
          rw [hl, Option.getD_some] at hq
          exact h.calls pid c (hl.trans hq)
    · exact h.calls q c hq
  signal := fun h => h.emit h.calls rfl trivial
  create := fun h => h.emit h.calls rfl trivial
  enter := by
    rintro o s regs c h hl rfl
    refine h.emit (fun q c hq => ?_) rfl ⟨_, rfl⟩
    rw [BoundedMap.lookup_set] at hq
    split_ifs at hq
    · rw [hl, Option.map_some, Option.some.injEq, Option.some.injEq] at hq
      exact ⟨syscallNoOf regs, by rw [← hq]⟩
    · exact h.calls q c hq
  leave := by
    intro o s regs c h hl
    refine h.emit (fun q c hq => ?_) rfl (h.calls _ _ hl)
    rw [BoundedMap.lookup_set] at hq
    split_ifs at hq
    · simp [hl] at hq
    · exact h.calls q c hq
  gone := by
    intro o s h
    refine h.emit (fun q c hq => ?_) rfl trivial
    simp only [Observer.gone, BoundedMap.lookup_erase] at hq
    split_ifs at hq
    exact h.calls q c hq
  stop := fun h => ⟨h.calls, h.events⟩

theorem observe_named (follow : Bool) (names : Int → String) (child : Nat) (ws : List Wait) :
    ∀ e ∈ (observe follow names child ws).events, e.Named names := by
  have hinit : (Observer.init child).Named names := by
    refine ⟨fun pid c h => ?_, fun e he => absurd he List.not_mem_nil⟩
    have hidle := Observer.join_lookup_init child pid
    rw [h] at hidle
    cases hidle
  exact ((observer_named names).run hinit follow ws).events

variable {cfg}

/-- Each completed call that `-c` counts is one result group without `-c`. -/
theorem countP_results (hnames : cfg.PlainNames) {e : Event} (he : e.Named cfg.syscallName) :
    (e.chunks cfg.listing).countP Chunk.isResult = (e.done cfg.counting).length ∧
      (e.chunks cfg.listing).countP Chunk.isFailure = (e.done cfg.counting).countP (·.ret < 0) := by
  have hmode : cfg.listing.opts.summaryMode = false := rfl
  have hfilter : cfg.counting.filter = cfg.listing.filter := rfl
  cases e with
  | created | gone => exact ⟨rfl, rfl⟩
  | signalled pid sig =>
      have h := not_isResult pid (head_signalLine cfg.listing.host cfg.listing.opts pid sig)
      simp [Event.chunks, Event.done, h.1, h.2]
  | entered t c =>
      obtain ⟨n, hn⟩ := he
      have h := not_isResult t.pid
        (head_printCall cfg.listing.opts.followForks t.pid (hn ▸ hnames n : (lit c.name).head? ≠ _)
          (entryArg cfg.listing.host t cfg.listing.opts.showFdPaths c.name c.args))
      simp only [Event.chunks, Event.done, entryCall, hmode]
      split_ifs <;> simp [h.1, h.2]
  | returned t c ret now =>
      obtain ⟨n, hn⟩ := he
      have hcall := not_isResult t.pid
        (head_printCall cfg.listing.opts.followForks t.pid (hn ▸ hnames n : (lit c.name).head? ≠ _)
          (exitArg cfg.listing.host t cfg.listing.opts.showFdPaths c.name c.args
            (.ofName c.name) ret))
      have hret := isResult_printRet cfg.listing.host t.pid ret (timingText cfg.listing c now)
      simp only [Event.chunks, Event.done, hmode, hfilter, Bool.or_false, exitCall]
      cases syscallAllowed cfg.listing.filter c.name with
      | false => simp
      | true =>
          cases deferred c.name <;> by_cases hneg : ret < 0 <;>
            simp [hcall.1, hcall.2, hret.1, hret.2, hneg]

theorem countP_results_events (hnames : cfg.PlainNames) {events : List Event}
    (he : ∀ e ∈ events, e.Named cfg.syscallName) :
    (events.flatMap (Event.chunks cfg.listing)).countP Chunk.isResult =
        (events.flatMap (Event.done cfg.counting)).length ∧
      (events.flatMap (Event.chunks cfg.listing)).countP Chunk.isFailure =
        (events.flatMap (Event.done cfg.counting)).countP (·.ret < 0) := by
  induction events with
  | nil => exact ⟨rfl, rfl⟩
  | cons e events ih =>
      obtain ⟨hres, hfail⟩ := ih fun e' he' => he e' (List.mem_cons_of_mem e he')
      obtain ⟨hres', hfail'⟩ := countP_results hnames (he e List.mem_cons_self)
      simp only [List.flatMap_cons, List.countP_append, List.length_append]
      exact ⟨congrArg₂ _ hres' hres, congrArg₂ _ hfail' hfail⟩

/-- With `-c` only signals are shown. -/
theorem mem_chunks_counting {e : Event} {c : Chunk} (h : c ∈ e.chunks cfg.counting) :
    ∃ sig, c.text = signalLine cfg.host cfg.counting.opts c.pid sig := by
  have hmode : cfg.counting.opts.summaryMode = true := rfl
  cases e with
  | created | gone => exact absurd h List.not_mem_nil
  | entered | returned =>
      simp only [Event.chunks, hmode, Bool.or_true, if_true] at h
      exact absurd h List.not_mem_nil
  | signalled pid sig =>
      rw [Event.chunks, List.mem_singleton] at h
      exact ⟨sig, by rw [h]; rfl⟩

/-- The totals of `-c`, where no name is taken for a result. -/
theorem totals_of_plainNames [AddCommMonoid τ] [LinearOrder τ] (cfg : Config τ)
    (hnames : cfg.PlainNames) (child : Nat) (ws : List Wait)
    (hroom : (runTracer cfg.counting child ws).summary.length < maxSummaryEntries) :
    ∃ report, summaryAtEnd cfg.counting (runTracer cfg.counting child ws) = some report ∧
      report.total.calls = (runTracer cfg.listing child ws).trace.countP Chunk.isResult ∧
      report.total.errors = (runTracer cfg.listing child ws).trace.countP Chunk.isFailure ∧
      ∀ c ∈ (runTracer cfg.counting child ws).trace,
        ∃ sig, c.text = signalLine cfg.host cfg.counting.opts c.pid sig := by
  have hc := follows_runTracer cfg.counting child ws
  have hl := follows_runTracer cfg.listing child ws
  have hsame : observe cfg.listing.opts.followForks cfg.listing.syscallName child ws =
      observe cfg.counting.opts.followForks cfg.counting.syscallName child ws := rfl
  have htable : (runTracer cfg.counting child ws).summary =
      rowsOf ((observe cfg.counting.opts.followForks cfg.counting.syscallName child ws).events.flatMap
        (Event.done cfg.counting)) := hc.summary
  obtain ⟨hres, hfail⟩ := countP_results_events hnames
    (observe_named cfg.opts.followForks cfg.syscallName child ws)
  rw [htable] at hroom
  obtain ⟨hcalls, herrors⟩ := sum_rowsOf hroom
  refine ⟨_, if_pos rfl, ?_, ?_, fun c hmem => ?_⟩
  · rw [printSummary_total, htable, hl.trace, hsame]
    exact hcalls.trans hres.symm
  · rw [printSummary_total, htable, hl.trace, hsame]
    exact herrors.trans hfail.symm
  · rw [hc.trace, List.mem_flatMap] at hmem
    obtain ⟨e, -, he⟩ := hmem
    exact mem_chunks_counting he

/-- With the generated names, the totals of `-c` are the numbers of result groups, and of
those that start a negative number, in the trace that the same run prints without `-c`,
unless the table is full at the end; with `-c` only the lines of signals are printed. -/
theorem summary_totals_match_trace [AddCommMonoid τ] [LinearOrder τ] (cfg : Config τ)
    (header : List (List Char)) (hgen : cfg.syscallName = (generate header).syscallName)
    (child : Nat) (ws : List Wait)
    (hroom : (runTracer cfg.counting child ws).summary.length < maxSummaryEntries) :
    ∃ report, summaryAtEnd cfg.counting (runTracer cfg.counting child ws) = some report ∧
      report.total.calls = (runTracer cfg.listing child ws).trace.countP Chunk.isResult ∧
      report.total.errors = (runTracer cfg.listing child ws).trace.countP Chunk.isFailure ∧
      ∀ c ∈ (runTracer cfg.counting child ws).trace,
        ∃ sig, c.text = signalLine cfg.host cfg.counting.opts c.pid sig :=
  totals_of_plainNames cfg (plainNames_generated hgen) child ws hroom

end Counting

/-- A header with one syscall. -/
def getpidHeader : List (List Char) := ["#define __NR_getpid 39".toList]

/-- Its table, and no options. -/
def getpidConfig : Config Nat :=
  { Config.plain ⟨false, false, false, false⟩ with
    syscallName := (generate getpidHeader).syscallName }

/-- A syscall-stop of process 1 in `getpid`, with the given result. -/
def getpidReturns (result : Word) : Wait :=
  .report { getpidStop 1 with regs := some { getpidRegs with rax := result } }

/-- One `getpid` that returns 1 and one that fails. -/
theorem summary_totals_getpid :
    ∃ report, summaryAtEnd getpidConfig.counting
        (runTracer getpidConfig.counting 1 [getpidReturns 0, getpidReturns 1, getpidReturns 0,
          getpidReturns (-38)]) = some report ∧
      report.total.calls = 2 ∧ report.total.errors = 1 := by
  obtain ⟨report, hreport, hcalls, herrors, -⟩ := summary_totals_match_trace getpidConfig
    getpidHeader rfl 1 [getpidReturns 0, getpidReturns 1, getpidReturns 0, getpidReturns (-38)]
    (by decide +kernel)
  exact ⟨report, hreport, hcalls.trans (by decide +kernel), herrors.trans (by decide +kernel)⟩

end MiniStrace
