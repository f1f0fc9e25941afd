/-
  Tracer/ReadBack.lean --- the calls of a run, read back from the text it printed.

  THE READER.  `readTrace` knows the text and nothing else.  It takes the text apart into
  lines; a line that ends in `-` is a signal's, and any other ends in a result.  The name of
  the call stands at the start of the line, or of the line that a signal broke off.

  ONE PROCESS.  Without `-f` all reports are of the child, and its stops alternate.  With
  `-f` the groups of several processes share lines and a result does not say whose it is, so
  nothing of the kind holds there.

  WHAT IS ASSUMED.  The names of the calls are those of the generated table, the names of the
  C library have no control byte and no `=` in them, and no argument is printed with a raw
  newline in it.
-/
import MiniStrace.Decoders.Plain
import MiniStrace.Tracer.Display

set_option autoImplicit false

namespace MiniStrace

open CLib

/-! ## The reader -/

/-- The completed calls read so far, and the name of a call without a result. -/
structure Reading where
  calls : List (Text × Int)
  pending : Option Text

/-- One line. -/
def readLine (r : Reading) (line : Text) : Reading :=
  let name := if line.head? = some 0x3d ∨ line.head? = some 0x2d then r.pending
    else some (line.takeWhile (· ≠ 0x28))
  if line.getLast? = some 0x2d then ⟨r.calls, name⟩
  else ⟨r.calls ++ [(name.getD [], (strtol (afterLast 0x3d line)).1)], none⟩

/-- The names and the results of the calls in a trace. -/
def readTrace (out : Text) : List (Text × Int) :=
  ((linesOf out).foldl readLine ⟨[], none⟩).calls

/-- The text of a trace. -/
def traceText (trace : List Chunk) : Text := trace.flatMap (·.text)

/-- What is to be read: the completed calls that pass the filter. -/
def Event.results (filter : Filter) : Event → List (Text × Int)
  | .returned _ c ret _ => if syscallAllowed filter c.name then [(lit c.name, ret)] else []
  | .entered .. | .signalled .. | .created _ | .gone .. => []

/-! ## Groups -/

section Groups

/-- What may follow a result on its line. -/
structure Trailer (t : Text) : Prop where
  noEquals : 0x3d ∉ t
  noNewline : 0x0a ∉ t
  noDigit : ∀ c ∈ t.head?, isdigit c = false
  noDash : t.getLast? ≠ some 0x2d

/-- A group that begins with the name of a call. -/
def Begins (name g : Text) : Prop := ∃ tail, g = name ++ 0x28 :: tail

variable {name g : Text}

theorem Begins.head (hname : ∀ b ∈ name, NameByte b) (hg : Begins name g) (x : Text) :
    ¬((g ++ x).head? = some 0x3d ∨ (g ++ x).head? = some 0x2d) := by
  obtain ⟨tail, rfl⟩ := hg
  cases name with
  | nil => simp
  | cons b name =>
      have hb := hname b List.mem_cons_self
      rintro (⟨⟨⟩⟩ | ⟨⟨⟩⟩)
      · exact hb (by decide)
      · exact hb (by decide)

theorem Begins.takeWhile (hname : ∀ b ∈ name, NameByte b) (hg : Begins name g) (x : Text) :
    (g ++ x).takeWhile (· ≠ 0x28) = name := by
  obtain ⟨tail, rfl⟩ := hg
  have hall : ∀ b ∈ name, decide (b ≠ 0x28) = true := by
    intro b hb
    rw [decide_eq_true_eq]
    rintro rfl
    exact hname _ hb (by decide)
  rw [List.append_assoc, List.takeWhile_append_of_pos hall]
  simp

/-- The line of a result, without the newline. -/
def resultLine (v : Int) (trailer : Text) : Text := 0x3d :: 0x20 :: (decInt v ++ trailer)

theorem Trailer.value {trailer : Text} (h : Trailer trailer) {v : Int} (hmin : longMin ≤ v)
    (hmax : v ≤ longMax) (front : Text) :
    (strtol (afterLast 0x3d (front ++ resultLine v trailer))).1 = v := by
  have hno : (0x3d : Byte) ∉ 0x20 :: (decInt v ++ trailer) := by
    have hdec : (0x3d : Byte) ∉ decInt v := not_mem_decInt (by decide)
    simp [hdec, h.noEquals]
  rw [resultLine, afterLast_append front hno, strtol_decInt hmin hmax h.noDigit]

theorem decInt_getLast (v : Int) : ∃ d, (decInt v).getLast? = some d ∧ isdigit d = true := by
  have hne : dec v.natAbs ≠ [] := numeral_ne_nil 10 _
  refine ⟨(dec v.natAbs).getLast hne, ?_, isdigit_of_mem_dec (List.getLast_mem hne)⟩
  have hlast := List.getLast?_eq_some_getLast hne
  unfold decInt
  split_ifs
  · rw [List.getLast?_append, hlast, Option.some_or]
  · exact hlast

theorem Trailer.getLast {trailer : Text} (h : Trailer trailer) (v : Int) (front : Text) :
    (front ++ resultLine v trailer).getLast? ≠ some 0x2d := by
  obtain ⟨d, hd, hdigit⟩ := decInt_getLast v
  have hline : (front ++ resultLine v trailer).getLast? = trailer.getLast?.or (some d) := by
    have hshape : front ++ resultLine v trailer =
        (front ++ [0x3d, 0x20]) ++ decInt v ++ trailer := by simp [resultLine]
    rw [hshape, List.getLast?_append, List.getLast?_append, hd, Option.some_or]
  rw [hline]
  cases hlast : trailer.getLast? with
  | none =>
      rw [Option.none_or]
      rintro ⟨⟩
      cases hdigit
  | some c =>
      rw [Option.some_or, ← hlast]
      exact h.noDash

theorem Trailer.noNewline_resultLine {trailer : Text} (h : Trailer trailer) (v : Int) :
    0x0a ∉ resultLine v trailer := by
  have hdec : (0x0a : Byte) ∉ decInt v := not_mem_decInt (by decide)
  simp [resultLine, hdec, h.noNewline]

/-- A call and its result on one line. -/
theorem readLine_call_result (hname : ∀ b ∈ name, NameByte b) (hg : Begins name g)
    {trailer : Text} (ht : Trailer trailer) {v : Int} (hmin : longMin ≤ v) (hmax : v ≤ longMax)
    (calls : List (Text × Int)) (pending : Option Text) :
    readLine ⟨calls, pending⟩ (g ++ resultLine v trailer) = ⟨calls ++ [(name, v)], none⟩ := by
  rw [readLine, if_neg (hg.head hname _), if_neg (ht.getLast v g), hg.takeWhile hname,
    ht.value hmin hmax]
  rfl

/-- A result on a line of its own. -/
theorem readLine_result {trailer : Text} (ht : Trailer trailer) {v : Int} (hmin : longMin ≤ v)
    (hmax : v ≤ longMax) (calls : List (Text × Int)) (name : Text) :
    readLine ⟨calls, some name⟩ (resultLine v trailer) = ⟨calls ++ [(name, v)], none⟩ := by
  have hvalue := ht.value hmin hmax []
  have hlast := ht.getLast v []
  rw [List.nil_append] at hvalue hlast
  have hhead : (resultLine v trailer).head? = some 0x3d := rfl
  rw [readLine, if_pos (Or.inl hhead), if_neg hlast, hvalue]
  rfl

/-- A call and a signal on one line. -/
theorem readLine_call_signal (hname : ∀ b ∈ name, NameByte b) (hg : Begins name g) {sig : Text}
    (hsig : sig.getLast? = some 0x2d) (calls : List (Text × Int)) (pending : Option Text) :
    readLine ⟨calls, pending⟩ (g ++ sig) = ⟨calls, some name⟩ := by
  have hlast : (g ++ sig).getLast? = some 0x2d := by rw [List.getLast?_append, hsig, Option.some_or]
  rw [readLine, if_neg (hg.head hname _), if_pos hlast, hg.takeWhile hname]

/-- A signal on a line of its own. -/
theorem readLine_signal {sig : Text} (hhead : sig.head? = some 0x2d)
    (hlast : sig.getLast? = some 0x2d) (r : Reading) : readLine r sig = r := by
  rw [readLine, if_pos (Or.inr hhead), if_pos hlast]

end Groups

/-! ## What the tracer prints -/

section Printing

variable {τ : Type} {cfg : Config τ} {header : List (List Char)}

/-- A trace of one process, by a table generated from the header.  The names of the C library
are printable, and no error has one with `=` in it; nor has the time of a call. -/
structure Config.Readable (cfg : Config τ) (header : List (List Char)) : Prop where
  single : cfg.opts.followForks = false
  listing : cfg.opts.summaryMode = false
  names : cfg.syscallName = (generate header).syscallName
  clean : cfg.host.CleanNames
  errno : ∀ n name, cfg.host.strerrorname n = some name → 0x3d ∉ name
  timing : ∀ x, Trailer (cfg.timing x)

/-- Nothing is printed with a newline before its end. -/
def Event.OneLine (cfg : Config τ) (e : Event) : Prop :=
  ∀ c ∈ e.chunks cfg, 0x0a ∉ c.text.dropLast

theorem begins_printCall (name : String) (argbuf : Nat → Text) :
    Begins (lit name) (printCall [] name argbuf) := by
  have hopen : lit "(" = [0x28] := by with_unfolding_all decide
  exact ⟨_, by rw [printCall, hopen, List.nil_append]; simp only [List.append_assoc]; rfl⟩

theorem printCall_noNewline {name : String} {argbuf : Nat → Text}
    (h : 0x0a ∉ (printCall [] name argbuf).dropLast) : 0x0a ∉ printCall [] name argbuf := by
  have hclose : lit ") " = [0x29] ++ [0x20] := by with_unfolding_all decide
  rw [printCall, hclose, ← List.append_assoc] at h ⊢
  rw [List.dropLast_concat] at h
  simpa using h

theorem trailer_append {s t : Text} (hs : Trailer s) (hne : s ≠ []) (ht : Trailer t) :
    Trailer (s ++ t) where
  noEquals := by simp [hs.noEquals, ht.noEquals]
  noNewline := by simp [hs.noNewline, ht.noNewline]
  noDigit := by
    rw [List.head?_append_of_ne_nil _ hne]
    exact hs.noDigit
  noDash := by
    rw [List.getLast?_append]
    cases hlast : t.getLast? with
    | none => exact hs.noDash
    | some c =>
        rw [Option.some_or, ← hlast]
        exact ht.noDash

/-- The trailer of an error is its name in parentheses. -/
theorem trailer_errno (h : cfg.Readable header) (n : Int) :
    Trailer (lit " (" ++ (cfg.host.strerrorname n).getD (lit "unknown errno") ++ lit ")") := by
  have hlit : lit " (" = [0x20, 0x28] ∧ lit ")" = [0x29] := by with_unfolding_all decide
  have hname : 0x3d ∉ (cfg.host.strerrorname n).getD (lit "unknown errno") ∧
      0x0a ∉ (cfg.host.strerrorname n).getD (lit "unknown errno") := by
    cases hn : cfg.host.strerrorname n with
    | none => with_unfolding_all decide
    | some name =>
        exact ⟨h.errno n name hn, fun hnl => h.clean.strerrorname n name hn _ hnl (by decide)⟩
  rw [hlit.1, hlit.2]
  constructor
  · simp [hname.1]
  · simp [hname.2]
  · intro c hc
    cases hc
    decide
  · rw [List.getLast?_concat]
    decide

theorem printRet_eq (h : cfg.Readable header) (ret : Int) {timing : Text}
    (ht : Trailer timing) :
    ∃ trailer, Trailer trailer ∧
      printRet cfg.host ret timing = resultLine ret trailer ++ [0x0a] := by
  have hnl : lit "\n" = [0x0a] := by with_unfolding_all decide
  unfold printRet
  rw [lit_result, hnl]
  split_ifs
  · have hne : lit ")" ≠ [] := by with_unfolding_all decide
    have herr := trailer_errno h (signed 32 ((-ret) % 2 ^ 32).toNat)
    exact ⟨_, trailer_append herr (by simp [hne]) ht, by simp [resultLine]⟩
  · exact ⟨timing, ht, by simp [resultLine]⟩

theorem trailer_timing (h : cfg.Readable header) (c : Call) (now : Timespec) :
    Trailer (timingText cfg c now) := by
  unfold timingText
  split_ifs
  · exact h.timing _
  · exact ⟨List.not_mem_nil, List.not_mem_nil, by simp, by simp⟩

theorem signalLine_shape (h : cfg.Readable header) (pid sig : Nat) :
    ∃ line, signalLine cfg.host cfg.opts pid sig = line ++ [0x0a] ∧ 0x0a ∉ line ∧
      line.head? = some 0x2d ∧ line.getLast? = some 0x2d := by
  have hlit : lit "--- SIG" = [0x2d, 0x2d, 0x2d, 0x20, 0x53, 0x49, 0x47] ∧
      lit ") ---\n" = [0x29, 0x20, 0x2d, 0x2d] ++ [0x2d] ++ [0x0a] ∧ lit " (" = [0x20, 0x28] := by
    with_unfolding_all decide
  have hname : 0x0a ∉ orNull (cfg.host.sigabbrev sig) := fun hnl =>
    clean_orNull (h.clean.sigabbrev sig) _ hnl (by decide)
  have hdescr : 0x0a ∉ orNull (cfg.host.sigdescr sig) := fun hnl =>
    clean_orNull (h.clean.sigdescr sig) _ hnl (by decide)
  refine ⟨lit "--- SIG" ++ orNull (cfg.host.sigabbrev sig) ++ lit " (" ++
    orNull (cfg.host.sigdescr sig) ++ [0x29, 0x20, 0x2d, 0x2d] ++ [0x2d], ?_, ?_, ?_, ?_⟩
  · simp [signalLine, pidPrefix, h.single, hlit]
  · simp [hlit, hname, hdescr]
  · simp [hlit]
  · exact List.getLast?_concat

end Printing

/-! ## The text of a run -/

section ToldSoFar

variable {τ : Type} {cfg : Config τ} {header : List (List Char)}

/-- The call is printed when it begins. -/
def Call.early (filter : Filter) (c : Call) : Bool :=
  syscallAllowed filter c.name && !deferred c.name

/-- What is printed of the call in progress on the line that is begun, and what the reader
has kept of it. -/
inductive Begun (filter : Filter) : Option Call → Text → Option Text → Prop
  | idle {pending : Option Text} : Begun filter none [] pending
  | silent {c : Call} {pending : Option Text} :
      (∀ b ∈ lit c.name, NameByte b) → c.early filter = false → Begun filter (some c) [] pending
  | shown {c : Call} {part : Text} {pending : Option Text} :
      (∀ b ∈ lit c.name, NameByte b) → c.early filter = true → Begins (lit c.name) part →
        Begun filter (some c) part pending
  | broken {c : Call} :
      (∀ b ∈ lit c.name, NameByte b) → c.early filter = true →
        Begun filter (some c) [] (some (lit c.name))

variable (cfg) in
/-- The text of the events so far: whole lines, which read back as the calls that have
returned, and the line that is begun. -/
structure ToldSoFar (events : List Event) (cur : Option Call) (ls : List Text) (part : Text)
    (pending : Option Text) : Prop where
  whole : ∀ l ∈ ls, 0x0a ∉ l
  open_ : 0x0a ∉ part
  text : traceText (events.flatMap (Event.chunks cfg)) = unlines ls ++ part
  read : ls.foldl readLine ⟨[], none⟩ = ⟨events.flatMap (Event.results cfg.filter), pending⟩
  begun : Begun cfg.filter cur part pending

variable {events : List Event} {cur : Option Call} {ls : List Text} {part : Text}
  {pending : Option Text}

theorem traceText_concat (events : List Event) (e : Event) :
    traceText ((events ++ [e]).flatMap (Event.chunks cfg)) =
      traceText (events.flatMap (Event.chunks cfg)) ++ traceText (e.chunks cfg) := by
  rw [traceText, List.flatMap_append, List.flatMap_singleton, List.flatMap_append]
  rfl

theorem ToldSoFar.readTrace_eq (h : ToldSoFar cfg events cur ls part pending) :
    readTrace (traceText (events.flatMap (Event.chunks cfg))) =
      events.flatMap (Event.results cfg.filter) := by
  rw [readTrace, h.text, linesOf_unlines h.whole h.open_, h.read]

/-- An event that prints nothing. -/
theorem ToldSoFar.quiet (h : ToldSoFar cfg events cur ls part pending) {e : Event}
    (hc : e.chunks cfg = []) (hr : e.results cfg.filter = []) {cur' : Option Call}
    (hb : Begun cfg.filter cur' part pending) :
    ToldSoFar cfg (events ++ [e]) cur' ls part pending where
  whole := h.whole
  open_ := h.open_
  text := by rw [List.flatMap_append, List.flatMap_singleton, hc, List.append_nil, h.text]
  read := by rw [List.flatMap_append, List.flatMap_singleton, hr, List.append_nil, h.read]
  begun := hb

/-- An event that ends the line. -/
theorem ToldSoFar.line (h : ToldSoFar cfg events cur ls part pending) {e : Event} {l : Text}
    (hl : 0x0a ∉ l) (hc : traceText (e.chunks cfg) = l ++ [0x0a]) {pending' : Option Text}
    (hr : readLine ⟨events.flatMap (Event.results cfg.filter), pending⟩ (part ++ l) =
      ⟨events.flatMap (Event.results cfg.filter) ++ e.results cfg.filter, pending'⟩)
    {cur' : Option Call} (hb : Begun cfg.filter cur' [] pending') :
    ToldSoFar cfg (events ++ [e]) cur' (ls ++ [part ++ l]) [] pending' where
  whole := by
    intro l' hl'
    rcases List.mem_append.mp hl' with hl' | hl'
    · exact h.whole l' hl'
    · rw [List.mem_singleton.mp hl', List.mem_append, not_or]
      exact ⟨h.open_, hl⟩
  open_ := List.not_mem_nil
  text := by
    rw [traceText_concat, h.text, hc, unlines_concat]
    simp only [List.append_assoc, List.append_nil]
  read := by
    rw [List.foldl_append, List.foldl_cons, List.foldl_nil, h.read, hr, List.flatMap_append,
      List.flatMap_singleton]
  begun := hb

theorem ToldSoFar.signalled (h : ToldSoFar cfg events cur ls part pending)
    (hcfg : cfg.Readable header) (pid sig : Nat) :
    ∃ ls part pending, ToldSoFar cfg (events ++ [.signalled pid sig]) cur ls part pending := by
  obtain ⟨line, hline, hnl, hhead, hlast⟩ := signalLine_shape hcfg pid sig
  have hc : traceText (Event.chunks cfg (.signalled pid sig)) = line ++ [0x0a] := by
    rw [← hline, Event.chunks, traceText, List.flatMap_singleton]
  have hr : events.flatMap (Event.results cfg.filter) ++
      Event.results cfg.filter (.signalled pid sig) =
      events.flatMap (Event.results cfg.filter) := List.append_nil _
  have halone : readLine ⟨events.flatMap (Event.results cfg.filter), pending⟩ ([] ++ line) =
      ⟨events.flatMap (Event.results cfg.filter) ++
        Event.results cfg.filter (.signalled pid sig), pending⟩ := by
    rw [hr, List.nil_append]
    exact readLine_signal hhead hlast _
  -- the signal ends the line; a call that was begun on it is left to the next result
  cases h.begun with
  | idle => exact ⟨_, _, pending, h.line hnl hc halone .idle⟩
  | silent hname hearly => exact ⟨_, _, pending, h.line hnl hc halone (.silent hname hearly)⟩
  | broken hname hearly => exact ⟨_, _, _, h.line hnl hc halone (.broken hname hearly)⟩
  | shown hname hearly hbegins =>
      refine ⟨_, _, _, h.line hnl hc ?_ (.broken hname hearly)⟩
      rw [hr, readLine_call_signal hname hbegins hlast]

theorem ToldSoFar.entered (h : ToldSoFar cfg events none ls part pending)
    (hcfg : cfg.Readable header) (t : Tracee) {c : Call}
    (hname : ∀ b ∈ lit c.name, NameByte b) (hone : (Event.entered t c).OneLine cfg) :
    ∃ ls part pending, ToldSoFar cfg (events ++ [.entered t c]) (some c) ls part pending := by
  obtain rfl : part = [] := by
    cases h.begun
    rfl
  have hchunks : (Event.entered t c).chunks cfg =
      if c.early cfg.filter then [⟨t.pid, entryCall cfg.host cfg.opts t c.name c.args⟩] else [] := by
    by_cases ha : syscallAllowed cfg.filter c.name = true <;> by_cases hd : deferred c.name = true <;>
      simp [Event.chunks, Call.early, hcfg.listing, ha, hd]
  cases hearly : c.early cfg.filter with
  | false =>
      rw [hearly, if_neg Bool.false_ne_true] at hchunks
      exact ⟨_, _, _, h.quiet hchunks rfl (.silent hname hearly)⟩
  | true =>
      rw [hearly, if_pos rfl] at hchunks
      have hcall : entryCall cfg.host cfg.opts t c.name c.args = printCall [] c.name
          (entryArg cfg.host t cfg.opts.showFdPaths c.name c.args) := by
        rw [entryCall, pidPrefix, hcfg.single, if_neg Bool.false_ne_true]
      have hnl : 0x0a ∉ entryCall cfg.host cfg.opts t c.name c.args := by
        have hdrop := hone _ (by rw [hchunks]; exact List.mem_singleton_self _)
        rw [hcall] at hdrop ⊢
        exact printCall_noNewline hdrop
      refine ⟨ls, entryCall cfg.host cfg.opts t c.name c.args, pending, h.whole, hnl, ?_, ?_, ?_⟩
      · rw [traceText_concat, h.text, hchunks, List.append_nil, traceText, List.flatMap_singleton]
      · rw [List.flatMap_append, List.flatMap_singleton, h.read]
        exact congrArg (Reading.mk · pending) (List.append_nil _).symm
      · rw [hcall]
        exact .shown hname hearly (begins_printCall c.name _)

theorem ToldSoFar.returned {c : Call} (h : ToldSoFar cfg events (some c) ls part pending)
    (hcfg : cfg.Readable header) (t : Tracee) {ret : Int} (hmin : longMin ≤ ret)
    (hmax : ret ≤ longMax) (now : Timespec) (hone : (Event.returned t c ret now).OneLine cfg) :
    ∃ ls part pending, ToldSoFar cfg (events ++ [.returned t c ret now]) none ls part pending := by
  obtain ⟨trailer, htrailer, hret⟩ := printRet_eq hcfg ret (trailer_timing hcfg c now)
  cases hallowed : syscallAllowed cfg.filter c.name with
  | false =>
      have hquiet : (Event.returned t c ret now).chunks cfg = [] ∧
          (Event.returned t c ret now).results cfg.filter = [] := by
        simp [Event.chunks, Event.results, hallowed]
      have hpart : part = [] := by
        cases h.begun with
        | silent | broken => rfl
        | shown _ hearly => simp [Call.early, hallowed] at hearly
      rw [hpart] at h
      exact ⟨_, _, _, h.quiet hquiet.1 hquiet.2 .idle⟩
  | true =>
      have hresults : (Event.returned t c ret now).results cfg.filter = [(lit c.name, ret)] := by
        rw [Event.results, if_pos hallowed]
      cases hdef : deferred c.name with
      | true =>
          have hearly : c.early cfg.filter = false := by simp [Call.early, hdef]
          obtain ⟨rfl, hname⟩ : part = [] ∧ ∀ b ∈ lit c.name, NameByte b := by
            cases h.begun with
            | silent hname _ => exact ⟨rfl, hname⟩
            | shown _ he | broken _ he => exact absurd he (by simp [hearly])
          set call := exitCall cfg.host cfg.opts t c.name c.args (.ofName c.name) ret with hcall
          have hchunks : (Event.returned t c ret now).chunks cfg =
              [⟨t.pid, call⟩, ⟨t.pid, printRet cfg.host ret (timingText cfg c now)⟩] := by
            simp [Event.chunks, hallowed, hcfg.listing, hdef, hcall]
          have hshape : call = printCall [] c.name
              (exitArg cfg.host t cfg.opts.showFdPaths c.name c.args (.ofName c.name) ret) := by
            rw [hcall, exitCall, pidPrefix, hcfg.single, if_neg Bool.false_ne_true]
          have hnl : 0x0a ∉ call := by
            have hdrop := hone ⟨t.pid, call⟩ (by rw [hchunks]; exact List.mem_cons_self)
            rw [hshape] at hdrop ⊢
            exact printCall_noNewline hdrop
          have hbegins : Begins (lit c.name) call := by
            rw [hshape]
            exact begins_printCall c.name _
          refine ⟨_, _, none, h.line (l := call ++ resultLine ret trailer) ?_ ?_ ?_ .idle⟩
          · rw [List.mem_append, not_or]
            exact ⟨hnl, htrailer.noNewline_resultLine ret⟩
          · rw [hchunks, traceText]
            simp [hret]
          · rw [List.nil_append, readLine_call_result hname hbegins htrailer hmin hmax, hresults]
      | false =>
          have hearly : c.early cfg.filter = true := by simp [Call.early, hdef, hallowed]
          have hchunks : (Event.returned t c ret now).chunks cfg =
              [⟨t.pid, printRet cfg.host ret (timingText cfg c now)⟩] := by
            simp [Event.chunks, hallowed, hcfg.listing, hdef]
          refine ⟨_, _, none, h.line (htrailer.noNewline_resultLine ret) ?_ ?_ .idle⟩
          · rw [hchunks, traceText, List.flatMap_singleton, hret]
          · rw [hresults]
            cases h.begun with
            | silent _ he => exact absurd he (by simp [hearly])
            | shown hname _ hbegins =>
                exact readLine_call_result hname hbegins htrailer hmin hmax _ _
            | broken => exact readLine_result htrailer hmin hmax _ _

end ToldSoFar

/-! ## Whole runs -/

section Runs

variable {τ : Type} {cfg : Config τ} {header : List (List Char)} {child : Nat}

/-- Later rounds only add events. -/
theorem Observer.events_grow (o : Observer) (follow : Bool) (names : Int → String)
    (ws : List Wait) : o.events <+: (o.run follow names ws).events := by
  have hkeeps : Observer.Keeps names fun o' => o.events <+: o'.events := by
    constructor
    case track => exact fun h _ => h
    case stop => exact fun h => h
    all_goals intros; exact List.IsPrefix.trans ‹_› (List.prefix_append _ _)
  exact hkeeps.run List.prefix_rfl follow ws

variable (cfg child) in
/-- One process, and its calls told. -/
structure Alone (o : Observer) : Prop where
  active : o.left = none → o.activeCount = 1
  told : ∃ cur ls part pending, ToldSoFar cfg o.events cur ls part pending ∧
    (o.left = none → (o.calls.lookup child).join = cur)

/-- Registering a process starts no call. -/
theorem join_lookup_register {calls calls' : BoundedMap Nat (Option Call) maxTracees} {pid : Nat}
    (h : calls.register pid none = some calls') (q : Nat) :
    (calls'.lookup q).join = (calls.lookup q).join := by
  rw [BoundedMap.lookup_of_register h]
  split_ifs with hq
  · rw [hq]
    cases calls.lookup pid <;> rfl
  · rfl

theorem alone_init : Alone cfg child (.init child) where
  active := fun _ => rfl
  told := by
    refine ⟨none, [], [], none, ⟨by simp, by simp, rfl, rfl, .idle⟩, fun _ => ?_⟩
    exact Observer.join_lookup_init child child

theorem toInt_long (v : Word) : longMin ≤ v.toInt ∧ v.toInt ≤ longMax := by
  have hlt := BitVec.toInt_lt (x := v)
  have hle := BitVec.le_toInt v
  unfold longMin longMax
  omega

/-- A stop of the process, with the call it begins or ends. -/
theorem Alone.syscallStop {o : Observer} (h : Alone cfg child o) (hcfg : cfg.Readable header)
    (hleft : o.left = none) {s : Stop} (hpid : s.pid = child)
    (hone : ∀ e ∈ (o.syscallStop cfg.syscallName s).events, e.OneLine cfg) :
    Alone cfg child (o.syscallStop cfg.syscallName s) := by
  obtain ⟨cur, ls, part, pending, htold, hcur⟩ := h.told
  unfold Observer.syscallStop at hone ⊢
  cases hr : o.calls.register s.pid none with
  | none => exact h
  | some calls =>
      rw [hr] at hone
      have hjoin : (calls.lookup s.pid).join = cur := by
        rw [join_lookup_register hr, hpid]
        exact hcur hleft
      dsimp only at hone ⊢
      cases hregs : s.regs with
      | none =>
          refine ⟨h.active, cur, ls, part, pending, htold, fun _ => ?_⟩
          rw [← hpid]
          exact hjoin
      | some regs =>
          rw [hregs] at hone
          cases hl : calls.lookup s.pid with
          | none =>
              refine ⟨h.active, cur, ls, part, pending, htold, fun _ => ?_⟩
              rw [← hpid]
              exact hjoin
          | some phase =>
              rw [hl] at hone hjoin
              cases phase with
              | none =>
                  subst hjoin
                  obtain ⟨ls', part', pending', htold'⟩ := htold.entered hcfg s.tracee
                    (c := ⟨cfg.syscallName (syscallNoOf regs), argsOf regs, s.now⟩)
                    (by rw [hcfg.names]; exact syscallName_nameByte header _)
                    (hone _ (by simp))
                  refine ⟨h.active, _, ls', part', pending', htold', fun _ => ?_⟩
                  dsimp only
                  rw [BoundedMap.lookup_set, hpid, if_pos rfl, ← hpid, hl]
                  rfl
              | some c =>
                  subst hjoin
                  obtain ⟨hmin, hmax⟩ := toInt_long regs.rax
                  obtain ⟨ls', part', pending', htold'⟩ := htold.returned hcfg s.tracee
                    hmin hmax s.now (hone _ (by simp [returnValOf]))
                  refine ⟨h.active, _, ls', part', pending', htold', fun _ => ?_⟩
                  dsimp only
                  rw [BoundedMap.lookup_set, hpid, if_pos rfl, ← hpid, hl]
                  rfl

theorem Alone.signalStop {o : Observer} (h : Alone cfg child o) (hcfg : cfg.Readable header)
    (hleft : o.left = none) (s : Stop) : Alone cfg child (o.signalStop s) := by
  obtain ⟨cur, ls, part, pending, htold, hcur⟩ := h.told
  have hjoin : (((o.calls.register s.pid none).getD o.calls).lookup child).join = cur := by
    cases hr : o.calls.register s.pid none with
    | none => exact hcur hleft
    | some calls =>
        rw [Option.getD_some, join_lookup_register hr]
        exact hcur hleft
  unfold Observer.signalStop
  dsimp only
  generalize (if s.stopsig ≠ Stop.sigtrap then s.stopsig else 0) = deliver
  split_ifs
  · obtain ⟨ls', part', pending', htold'⟩ := htold.signalled hcfg s.pid deliver
    exact ⟨h.active, cur, ls', part', pending', htold', fun _ => hjoin⟩
  · refine ⟨h.active, cur, ls, part, pending, ?_, fun _ => hjoin⟩
    rw [List.append_nil]
    exact htold

/-- The end of the process ends the loop. -/
theorem Alone.gone {o : Observer} (h : Alone cfg child o) (hleft : o.left = none) (s : Stop) :
    Alone cfg child (o.gone s) := by
  obtain ⟨cur, ls, part, pending, htold, -⟩ := h.told
  have hover : (o.gone s).left = some .counted := by
    rw [Observer.gone, h.active hleft]
    rfl
  refine ⟨fun hnone => ?_, cur, ls, part, pending, htold.quiet rfl rfl htold.begun, fun hnone => ?_⟩
  · rw [hover] at hnone
    cases hnone
  · rw [hover] at hnone
    cases hnone

theorem Alone.step {o : Observer} (h : Alone cfg child o) (hcfg : cfg.Readable header)
    (hleft : o.left = none) {w : Wait} (hown : ∀ s, w = .report s → s.pid = child)
    (hone : ∀ e ∈ (o.step false cfg.syscallName w).events, e.OneLine cfg) :
    Alone cfg child (o.step false cfg.syscallName w) := by
  cases w with
  | noChild =>
      obtain ⟨cur, ls, part, pending, htold, -⟩ := h.told
      exact ⟨fun hnone => absurd hnone (by simp [Observer.step]), cur, ls, part, pending, htold,
        fun hnone => absurd hnone (by simp [Observer.step])⟩
  | interrupted => exact h
  | report s =>
      rw [Observer.step, Observer.report, Bool.false_and, if_neg Bool.false_ne_true] at hone ⊢
      split_ifs at hone ⊢
      · exact h.gone hleft s
      · exact h
      · exact h.signalStop hcfg hleft s
      · exact h.syscallStop hcfg hleft (hown s rfl) hone

theorem Alone.run {o : Observer} (h : Alone cfg child o) (hcfg : cfg.Readable header)
    {ws : List Wait} (hown : ∀ s, .report s ∈ ws → s.pid = child)
    (hone : ∀ e ∈ (o.run false cfg.syscallName ws).events, e.OneLine cfg) :
    Alone cfg child (o.run false cfg.syscallName ws) := by
  induction ws generalizing o with
  | nil => exact h
  | cons w ws ih =>
      rw [Observer.run] at hone ⊢
      split_ifs at hone ⊢ with hleft
      · exact h
      · have hgrow := (o.step false cfg.syscallName w).events_grow false cfg.syscallName ws
        refine ih (h.step hcfg (Option.not_isSome_iff_eq_none.mp hleft) ?_ ?_) ?_ hone
        · rintro s rfl
          exact hown s List.mem_cons_self
        · exact fun e he => hone e (hgrow.subset he)
        · exact fun s hs => hown s (List.mem_cons_of_mem w hs)

variable [AddCommMonoid τ]

/-- From the text alone that a run without `-f` prints, the names and the results of the calls
that were completed are read back, all of them, in order: signals in the middle of a call,
deferred calls, filtered calls and a last call without a result included. -/
theorem trace_reads_back (cfg : Config τ) (header : List (List Char)) (hcfg : cfg.Readable header)
    (child : Nat) (ws : List Wait) (hown : ∀ s, .report s ∈ ws → s.pid = child)
    (hraw : ∀ c ∈ (runTracer cfg child ws).trace, 0x0a ∉ c.text.dropLast) :
    readTrace (traceText (runTracer cfg child ws).trace) =
      (observe false cfg.syscallName child ws).events.flatMap (Event.results cfg.filter) := by
  have hfollows := follows_runTracer cfg child ws
  rw [hcfg.single] at hfollows
  rw [hfollows.trace] at hraw ⊢
  have hone : ∀ e ∈ (observe false cfg.syscallName child ws).events, e.OneLine cfg :=
    fun e he c hc => hraw c (List.mem_flatMap.mpr ⟨e, he, hc⟩)
  obtain ⟨cur, ls, part, pending, htold, -⟩ := (alone_init.run hcfg hown hone).told
  exact htold.readTrace_eq

end Runs

theorem getpidConfig_readable : getpidConfig.Readable getpidHeader where
  single := rfl
  listing := rfl
  names := rfl
  clean := default_cleanNames
  errno := fun _ _ h => by cases h
  timing := fun _ => ⟨List.not_mem_nil, List.not_mem_nil, by simp [getpidConfig, Config.plain],
    by simp [getpidConfig, Config.plain]⟩

/-- `getpid` and the beginning of another. -/
theorem trace_reads_back_getpid :
    readTrace (traceText (runTracer getpidConfig 1
      [.report (getpidStop 1), .report (getpidStop 1), .report (getpidStop 1)]).trace) =
        [(lit "getpid", 0)] :=
  (trace_reads_back getpidConfig getpidHeader getpidConfig_readable 1
    [.report (getpidStop 1), .report (getpidStop 1), .report (getpidStop 1)]
    (by simp [getpidStop, Stop.plain]) (by decide +kernel)).trans (by decide +kernel)

end MiniStrace
