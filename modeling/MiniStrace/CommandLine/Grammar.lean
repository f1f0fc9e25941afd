/-
  CommandLine/Grammar.lean --- the command lines that `main` accepts, as a grammar.

  OPTIONS AND FAULTS.  An `Opt` is an option with a valid argument, and cannot be built with
  another; a `Fault` is an option the loop complains about.  Both are written as words.

  THE LOOP READS THE GRAMMAR.  `optionLoop` accepts exactly the words of a list of options
  followed by something that is not one, and takes from them what `Means` says, in which the
  order of different options plays no part.  It complains exactly about a list of options
  followed by a fault, with the message of that fault and of no later one.
-/
import MiniStrace.Lib.PrefixCode
import MiniStrace.CommandLine

set_option autoImplicit false

namespace MiniStrace

open CLib

/-! ## Options -/

/-- An option that is accepted. -/
inductive Opt where
  /-- `-f` -/
  | followForks
  /-- `-y` -/
  | showFdPaths
  /-- `-T` -/
  | showTiming
  /-- `-c` -/
  | summaryMode
  /-- `-o FILE` -/
  | output (file : Text)
  /-- `-s SIZE` -/
  | size (arg : Text) (valid : PositiveArg arg)
  /-- `-p PID` -/
  | attach (arg : Text) (valid : PositiveArg arg)
  /-- `-e trace=SET` -/
  | trace (set : Text)

namespace Opt

/-- The option on the command line. -/
def words : Opt → List Text
  | followForks => [lit "-f"]
  | showFdPaths => [lit "-y"]
  | showTiming => [lit "-T"]
  | summaryMode => [lit "-c"]
  | output file => [lit "-o", file]
  | size arg _ => [lit "-s", arg]
  | attach arg _ => [lit "-p", arg]
  | trace set => [lit "-e", lit "trace=" ++ set]

/-- What the option does to the variables of `main`. -/
def apply : Opt → MainState → MainState
  | followForks, st => { st with opts.followForks := true }
  | showFdPaths, st => { st with opts.showFdPaths := true }
  | showTiming, st => { st with opts.showTiming := true }
  | summaryMode, st => { st with opts.summaryMode := true }
  | output file, st => { st with outputFile := some file }
  | size arg _, st => { st with maxStrLen := maxStrLenOf arg }
  | attach arg _, st => { st with attachPid := pidOf arg }
  | trace set, st => { st with filter := parseTraceFilter st.filter set }

/-- The file of `-o`. -/
def file? : Opt → Option Text
  | output file => some file
  | _ => none

/-- The argument of `-s`. -/
def size? : Opt → Option Text
  | size arg _ => some arg
  | _ => none

/-- The argument of `-p`. -/
def pid? : Opt → Option Text
  | attach arg _ => some arg
  | _ => none

/-- The SET of `-e`. -/
def set? : Opt → Option Text
  | trace set => some set
  | _ => none

end Opt

/-- The words after the options: none, or first one that is no option. -/
def Stops (rest : List Text) : Prop := ∀ w ∈ rest.head?, w ∉ switches ∧ w ∉ valued

/-! ## Faults -/

/-- An option that is complained about. -/
inductive Fault where
  /-- an option without the argument it needs -/
  | noFile
  | noSize
  | noPid
  | noTrace
  /-- an argument that is no positive number -/
  | badSize (arg : Text) (invalid : ¬PositiveArg arg)
  | badPid (arg : Text) (invalid : ¬PositiveArg arg)
  /-- something else than `trace=SET` -/
  | badTrace (opt : Text) (invalid : ¬lit "trace=" <+: opt)

namespace Fault

/-- The fault on the command line. -/
def words : Fault → List Text
  | noFile => [lit "-o"]
  | noSize => [lit "-s"]
  | noPid => [lit "-p"]
  | noTrace => [lit "-e"]
  | badSize arg _ => [lit "-s", arg]
  | badPid arg _ => [lit "-p", arg]
  | badTrace opt _ => [lit "-e", opt]

/-- What may follow: an argument is missing only at the end. -/
def Ends : Fault → List Text → Prop
  | noFile, tail | noSize, tail | noPid, tail | noTrace, tail => tail = []
  | badSize _ _, _ | badPid _ _, _ | badTrace _ _, _ => True

/-- The complaint. -/
def message : Fault → Text
  | noFile => lit "error: -o needs a file path\n"
  | noSize => lit "error: -s needs a size argument\n"
  | noPid => lit "error: -p needs a PID argument\n"
  | noTrace => lit "error: -e needs an argument, e.g. -e trace=file\n"
  | badSize arg _ => lit "error: '" ++ arg ++ lit "' is not a valid size\n"
  | badPid arg _ => lit "error: '" ++ arg ++ lit "' is not a valid PID\n"
  | badTrace opt _ =>
      lit "error: unrecognized -e option '" ++ opt ++ lit "' (only trace=SET is supported)\n"

end Fault

/-! ## One round of the loop -/

section Rounds

theorem lit_inj {a b : String} : lit a = lit b ↔ a = b := lit_injective.eq_iff

theorem stops_cons {w : Text} {rest : List Text} :
    Stops (w :: rest) ↔ w ∉ switches ∧ w ∉ valued := by
  simp [Stops]

theorem optionLoop_stops {argv : List Text} (h : Stops argv) (st : MainState) :
    optionLoop argv st = .ok (st, argv) := by
  cases argv with
  | nil => rw [optionLoop]
  | cons w rest =>
      obtain ⟨hs, hv⟩ := stops_cons.mp h
      simp only [switches, valued, List.map_cons, List.map_nil, List.mem_cons, List.not_mem_nil,
        or_false, not_or] at hs hv
      rw [optionLoop.eq_def]
      simp only [hs, hv, if_false]

theorem not_positiveArg {arg : Text} :
    ¬PositiveArg arg ↔ (strtol arg).2 ≠ [] ∨ (strtol arg).1 < 1 := by
  rw [PositiveArg, not_and_or, Int.not_le]

theorem not_positiveArg_pid {arg : Text} :
    ¬PositiveArg arg ↔ (strtol arg).2 ≠ [] ∨ (strtol arg).1 ≤ 0 := by
  rw [not_positiveArg, ← Int.lt_add_one_iff, Int.zero_add]

theorem optionLoop_opt (o : Opt) (rest : List Text) (st : MainState) :
    optionLoop (o.words ++ rest) st = optionLoop rest (o.apply st) := by
  rw [optionLoop.eq_def]
  cases o with
  | followForks | showFdPaths | showTiming | summaryMode | output =>
      simp [Opt.words, Opt.apply, lit_inj]
  | size arg valid =>
      simp [Opt.words, Opt.apply, lit_inj, maxStrLenOf, ← not_positiveArg, valid]
  | attach arg valid =>
      simp [Opt.words, Opt.apply, lit_inj, pidOf, ← not_positiveArg_pid, valid]
  | trace set =>
      simp [Opt.words, Opt.apply, lit_inj, parseEOption_trace]

theorem optionLoop_fault (f : Fault) {tail : List Text} (h : f.Ends tail) (st : MainState) :
    optionLoop (f.words ++ tail) st = .error f.message := by
  rw [optionLoop.eq_def]
  cases f with
  | noFile | noSize | noPid | noTrace =>
      obtain rfl : tail = [] := h
      simp [Fault.words, Fault.message, lit_inj]
  | badSize arg invalid =>
      simp [Fault.words, Fault.message, lit_inj, ← not_positiveArg, invalid]
  | badPid arg invalid =>
      simp [Fault.words, Fault.message, lit_inj, ← not_positiveArg_pid, invalid]
  | badTrace opt invalid =>
      have hnone : parseEOption st.filter opt = none := by
        rw [parseEOption, if_neg (fun hp => invalid (List.isPrefixOf_iff_prefix.mp hp))]
      simp [Fault.words, Fault.message, lit_inj, hnone]

/-- What a command line can begin with. -/
theorem argv_cases (argv : List Text) :
    Stops argv ∨ (∃ (o : Opt) (rest : List Text), argv = o.words ++ rest) ∨
      ∃ (f : Fault) (tail : List Text), f.Ends tail ∧ argv = f.words ++ tail := by
  cases argv with
  | nil => exact Or.inl (by simp [Stops])
  | cons w rest =>
      by_cases hstop : Stops (w :: rest)
      · exact Or.inl hstop
      · refine Or.inr ?_
        have hw : w ∈ switches ∨ w ∈ valued := by
          rw [stops_cons, not_and_or, not_not, not_not] at hstop
          exact hstop
        simp only [switches, valued, List.map_cons, List.map_nil, List.mem_cons, List.not_mem_nil,
          or_false] at hw
        rcases hw with (rfl | rfl | rfl | rfl) | (rfl | rfl | rfl | rfl)
        · exact Or.inl ⟨.followForks, rest, rfl⟩
        · exact Or.inl ⟨.showFdPaths, rest, rfl⟩
        · exact Or.inl ⟨.showTiming, rest, rfl⟩
        · exact Or.inl ⟨.summaryMode, rest, rfl⟩
        · cases rest with
          | nil => exact Or.inr ⟨.noFile, [], rfl, rfl⟩
          | cons file rest => exact Or.inl ⟨.output file, rest, rfl⟩
        · cases rest with
          | nil => exact Or.inr ⟨.noSize, [], rfl, rfl⟩
          | cons arg rest =>
              by_cases hv : PositiveArg arg
              · exact Or.inl ⟨.size arg hv, rest, rfl⟩
              · exact Or.inr ⟨.badSize arg hv, rest, trivial, rfl⟩
        · cases rest with
          | nil => exact Or.inr ⟨.noPid, [], rfl, rfl⟩
          | cons arg rest =>
              by_cases hv : PositiveArg arg
              · exact Or.inl ⟨.attach arg hv, rest, rfl⟩
              · exact Or.inr ⟨.badPid arg hv, rest, trivial, rfl⟩
        · cases rest with
          | nil => exact Or.inr ⟨.noTrace, [], rfl, rfl⟩
          | cons opt rest =>
              by_cases hv : lit "trace=" <+: opt
              · obtain ⟨set, rfl⟩ := hv
                exact Or.inl ⟨.trace set, rest, rfl⟩
              · exact Or.inr ⟨.badTrace opt hv, rest, trivial, rfl⟩

end Rounds

/-! ## Whole command lines -/

theorem Opt.words_apart (o o' : Opt) (rest rest' : List Text)
    (h : o.words ++ rest = o'.words ++ rest') : o = o' := by
  cases o <;> cases o' <;> simp_all [Opt.words, lit_inj]

theorem Opt.words_going (o : Opt) (rest : List Text) : ¬Stops (o.words ++ rest) := by
  cases o <;> simp [Opt.words, stops_cons, switches, valued]

/-- Options in words. -/
def optCode : PrefixCode Opt Text where
  words := Opt.words
  Stops := Stops
  apart := Opt.words_apart
  going := Opt.words_going

/-- All the options from the left. -/
theorem optionLoop_encode (opts : List Opt) (rest : List Text) (st : MainState) :
    optionLoop (optCode.encode opts ++ rest) st =
      optionLoop rest (opts.foldl (fun st o => o.apply st) st) := by
  induction opts generalizing st with
  | nil => rfl
  | cons o opts ih =>
      rw [PrefixCode.encode_cons, List.append_assoc, List.foldl_cons, ← ih]
      exact optionLoop_opt o _ st

/-- Every command line is a list of options up to its end, or up to a fault. -/
theorem argv_decompose (argv : List Text) :
    ∃ opts rest, argv = optCode.encode opts ++ rest ∧
      (Stops rest ∨ ∃ (f : Fault) (tail : List Text), f.Ends tail ∧ rest = f.words ++ tail) := by
  induction hlen : argv.length using Nat.strongRecOn generalizing argv with
  | ind n ih =>
      rcases argv_cases argv with hstop | ⟨o, rest, rfl⟩ | hfault
      · exact ⟨[], argv, rfl, Or.inl hstop⟩
      · have hshort : rest.length < n := by
          rw [← hlen, List.length_append]
          cases o <;> simp [Opt.words]
        obtain ⟨opts, rest', rfl, hend⟩ := ih _ hshort rest rfl
        refine ⟨o :: opts, rest', ?_, hend⟩
        rw [PrefixCode.encode_cons, List.append_assoc]
        rfl
      · exact ⟨[], argv, rfl, Or.inr hfault⟩

/-! ## What the options mean -/

/-- The variables of `main` after the options: a switch is on if it is given at all, of the
others the last counts, and the SETs add up to the length of the table. -/
structure Means (opts : List Opt) (st : MainState) : Prop where
  followForks : st.opts.followForks = true ↔ .followForks ∈ opts
  showFdPaths : st.opts.showFdPaths = true ↔ .showFdPaths ∈ opts
  showTiming : st.opts.showTiming = true ↔ .showTiming ∈ opts
  summaryMode : st.opts.summaryMode = true ↔ .summaryMode ∈ opts
  outputFile : st.outputFile = (opts.filterMap Opt.file?).getLast?
  maxStrLen : st.maxStrLen = (opts.filterMap Opt.size?).getLast?.elim 200 maxStrLenOf
  attachPid : st.attachPid = (opts.filterMap Opt.pid?).getLast?.elim (-1) pidOf
  filter : st.filter =
    ((setTokens (opts.filterMap Opt.set?)).take maxFilterTokens).map storeToken

theorem getLast?_filterMap_concat {α β : Type} (f : α → Option β) (xs : List α) (x : α) :
    ((xs ++ [x]).filterMap f).getLast? = (f x).or (xs.filterMap f).getLast? := by
  rw [List.filterMap_append]
  cases hx : f x with
  | none => rw [List.filterMap_cons_none hx, List.filterMap_nil, List.append_nil, Option.none_or]
  | some y => rw [List.filterMap_cons_some hx, List.filterMap_nil, List.getLast?_concat,
      Option.some_or]

/-- The tokens of one more option. -/
theorem setTokens_concat (opts : List Opt) (o : Opt) :
    setTokens ((opts ++ [o]).filterMap Opt.set?) =
      setTokens (opts.filterMap Opt.set?) ++ o.set?.elim [] (fields 0x2c) := by
  cases o <;> simp [setTokens, Opt.set?]

/-- One more option at the end. -/
theorem Means.concat {opts : List Opt} {st : MainState} (h : Means opts st) (o : Opt) :
    Means (opts ++ [o]) (o.apply st) := by
  constructor
  case outputFile =>
    rw [getLast?_filterMap_concat, ← h.outputFile]
    cases o <;> rfl
  case maxStrLen =>
    rw [getLast?_filterMap_concat]
    cases o <;> first | rfl | exact h.maxStrLen
  case attachPid =>
    rw [getLast?_filterMap_concat]
    cases o <;> first | rfl | exact h.attachPid
  case filter =>
    rw [setTokens_concat]
    cases o with
    | trace set =>
        refine (congrArg (parseTraceFilter · set) h.filter).trans ?_
        exact parseTraceFilter_take _ set
    | _ => exact h.filter.trans (by simp [Opt.set?])
  -- the switches
  all_goals
    cases o <;> simp [Opt.apply, h.followForks, h.showFdPaths, h.showTiming, h.summaryMode]

theorem means_foldl (opts : List Opt) : Means opts (opts.foldl (fun st o => o.apply st) {}) := by
  induction opts using List.reverseRecOn with
  | nil => constructor <;> simp [setTokens]
  | append_singleton opts o ih =>
      rw [List.foldl_append, List.foldl_cons, List.foldl_nil]
      exact ih.concat o

/-- The options leave nothing open. -/
theorem Means.unique {opts : List Opt} {st st' : MainState} (h : Means opts st)
    (h' : Means opts st') : st = st' := by
  have hf : st.opts.followForks = st'.opts.followForks :=
    Bool.eq_iff_iff.mpr (h.followForks.trans h'.followForks.symm)
  have ht : st.opts.showTiming = st'.opts.showTiming :=
    Bool.eq_iff_iff.mpr (h.showTiming.trans h'.showTiming.symm)
  have hc : st.opts.summaryMode = st'.opts.summaryMode :=
    Bool.eq_iff_iff.mpr (h.summaryMode.trans h'.summaryMode.symm)
  have hy : st.opts.showFdPaths = st'.opts.showFdPaths :=
    Bool.eq_iff_iff.mpr (h.showFdPaths.trans h'.showFdPaths.symm)
  obtain ⟨pid, ⟨f, t, c, y⟩, file, size, filter⟩ := st
  obtain ⟨pid', ⟨f', t', c', y'⟩, file', size', filter'⟩ := st'
  dsimp only at hf ht hc hy
  obtain rfl : pid = pid' := h.attachPid.trans h'.attachPid.symm
  obtain rfl : file = file' := h.outputFile.trans h'.outputFile.symm
  obtain rfl : size = size' := h.maxStrLen.trans h'.maxStrLen.symm
  obtain rfl : filter = filter' := h.filter.trans h'.filter.symm
  rw [hf, ht, hc, hy]

/-- A command line is accepted exactly if it is a list of options and then something that is
not one.  There is one such list; the variables have the values it means, and what follows
it is left alone. -/
theorem optionLoop_ok_iff (argv : List Text) (st : MainState) (rest : List Text) :
    optionLoop argv {} = .ok (st, rest) ↔
      ∃! opts, argv = optCode.encode opts ++ rest ∧ Stops rest ∧ Means opts st := by
  constructor
  · intro h
    obtain ⟨opts, rest', rfl, hend⟩ := argv_decompose argv
    rw [optionLoop_encode] at h
    rcases hend with hstop | ⟨f, tail, hends, rfl⟩
    · rw [optionLoop_stops hstop] at h
      obtain ⟨rfl, rfl⟩ := Prod.mk.inj (Except.ok.inj h)
      refine ⟨opts, ⟨rfl, hstop, means_foldl opts⟩, fun opts' h' => ?_⟩
      exact (optCode.encode_append_inj h'.1 hstop hstop).1.symm
    · rw [optionLoop_fault f hends] at h
      cases h
  · rintro ⟨opts, ⟨rfl, hstop, hmeans⟩, -⟩
    rw [optionLoop_encode, optionLoop_stops hstop, (means_foldl opts).unique hmeans]

/-- A command line is refused exactly if some options are followed by a fault, and then with
the message of that fault; which options they are plays no part. -/
theorem optionLoop_error_iff (argv : List Text) (st : MainState) (msg : Text) :
    optionLoop argv st = .error msg ↔
      ∃ (opts : List Opt) (f : Fault) (tail : List Text),
        argv = optCode.encode opts ++ (f.words ++ tail) ∧ f.Ends tail ∧ msg = f.message := by
  constructor
  · intro h
    obtain ⟨opts, rest, rfl, hend⟩ := argv_decompose argv
    rw [optionLoop_encode] at h
    rcases hend with hstop | ⟨f, tail, hends, rfl⟩
    · rw [optionLoop_stops hstop] at h
      cases h
    · rw [optionLoop_fault f hends] at h
      cases h
      exact ⟨opts, f, tail, rfl, hends, rfl⟩
  · rintro ⟨opts, f, tail, rfl, hends, rfl⟩
    rw [optionLoop_encode, optionLoop_fault f hends]

end MiniStrace
