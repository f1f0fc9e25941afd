/-
  TraceFilter.lean --- `trace_filter.c`: which syscalls `-e trace=SET` lets through.

  The filter is the list of tokens parsed so far; an empty list lets everything
  through.

  WHAT PARSING KEEPS.  All `-e` options share one table of sixteen entries of 64 bytes: the
  filter holds the first sixteen tokens, each cut to 63 characters, and the tokens behind
  them are dropped without a message.
-/
import MiniStrace.Lib.Parts
import MiniStrace.Routing.Tables

set_option autoImplicit false

namespace MiniStrace

open CLib

def fileSyscalls : List String :=
  ["open", "openat", "close", "read", "write", "pread64", "pwrite64",
   "stat", "lstat", "fstat", "newfstatat", "statx", "access",
   "faccessat", "faccessat2", "unlink", "unlinkat", "rename",
   "renameat", "renameat2", "mkdir", "mkdirat", "rmdir", "chdir",
   "chmod", "fchmodat", "chown", "lchown", "fchownat", "truncate",
   "readlink", "readlinkat", "statfs", "lseek", "getcwd", "creat",
   "symlink", "symlinkat", "link", "linkat", "mount", "umount2",
   "chroot", "pivot_root", "utime", "utimes", "futimesat",
   "getdents64"]

def networkSyscalls : List String :=
  ["socket", "connect", "accept", "accept4", "bind", "listen",
   "send", "recv", "sendto", "recvfrom", "sendmsg", "recvmsg",
   "setsockopt", "getsockopt", "shutdown", "socketpair",
   "getsockname", "getpeername"]

def processSyscalls : List String :=
  ["fork", "vfork", "clone", "clone3", "execve", "execveat", "exit",
   "exit_group", "wait4", "waitid", "kill", "tgkill", "tkill",
   "ptrace", "prctl"]

/-- `name_in_list`. -/
def nameInList (list : List String) (name : String) : Bool := list.any (strcmpEq · name)

/-- The tokens of `-e trace=SET`. -/
abbrev Filter : Type := List Text

/-- One token lets `name` through. -/
def tokenAllows (name : String) (tok : Text) : Bool :=
  (tok == lit "file" && nameInList fileSyscalls name) ||
    (tok == lit "network" && nameInList networkSyscalls name) ||
    (tok == lit "process" && nameInList processSyscalls name) || tok == lit name

/-- `syscall_allowed`. -/
def syscallAllowed (filter : Filter) (name : String) : Bool :=
  if filter.length = 0 then true else filter.any (tokenAllows name)

/-! ## Parsing -/

/-- `MAX_FILTER_TOKENS`. -/
def maxFilterTokens : Nat := 16

/-- `sizeof(filter_tokens[0])`. -/
def filterTokenSize : Nat := 64

/-- What `snprintf` stores of a token. -/
def storeToken (tok : Text) : Text := tok.take (filterTokenSize - 1)

/-- The loop of `parse_trace_filter` with `left` free entries in the table. -/
def parseTokens : Nat → Text → Filter
  | 0, _ => []
  | left + 1, s =>
      match strtok 0x2c s with
      | none => []
      | some (tok, rest) => storeToken tok :: parseTokens left rest

/-- `parse_trace_filter`. -/
def parseTraceFilter (filter : Filter) (set : Text) : Filter :=
  filter ++ parseTokens (maxFilterTokens - filter.length) set

/-- The `-e` branch of `main`; `none` when the option is not `trace=SET`. -/
def parseEOption (filter : Filter) (opt : Text) : Option Filter :=
  if (lit "trace=").isPrefixOf opt then some (parseTraceFilter filter (opt.drop 6)) else none

/-- The non-empty comma-separated tokens of all SETs. -/
def setTokens (sets : List Text) : List Text := sets.flatMap (fields 0x2c)

theorem parseTokens_eq (left : Nat) (s : Text) :
    parseTokens left s = ((fields 0x2c s).take left).map storeToken := by
  induction left generalizing s with
  | zero => rfl
  | succ left ih =>
      rw [parseTokens, fields_eq_strtok]
      cases strtok 0x2c s with
      | none => rfl
      | some p =>
          dsimp only
          rw [ih, List.take_succ_cons, List.map_cons]

/-- One option: the table holds the first tokens of all options so far. -/
theorem parseTraceFilter_take (tokens : List Text) (s : Text) :
    parseTraceFilter ((tokens.take maxFilterTokens).map storeToken) s =
      ((tokens ++ fields 0x2c s).take maxFilterTokens).map storeToken := by
  rw [parseTraceFilter, parseTokens_eq, List.length_map, List.length_take, List.take_append,
    List.map_append]
  congr 3
  omega

/-- All options, from any table. -/
theorem foldl_parseTraceFilter (sets tokens : List Text) :
    sets.foldl parseTraceFilter ((tokens.take maxFilterTokens).map storeToken) =
      ((tokens ++ setTokens sets).take maxFilterTokens).map storeToken := by
  induction sets generalizing tokens with
  | nil => rw [List.foldl_nil, setTokens, List.flatMap_nil, List.append_nil]
  | cons s sets ih =>
      rw [List.foldl_cons, parseTraceFilter_take, ih, setTokens, setTokens, List.flatMap_cons,
        List.append_assoc]

theorem parseEOption_trace (filter : Filter) (set : Text) :
    parseEOption filter (lit "trace=" ++ set) = some (parseTraceFilter filter set) := by
  have hlen : (lit "trace=").length = 6 := by with_unfolding_all decide
  rw [parseEOption, if_pos (List.isPrefixOf_iff_prefix.mpr (List.prefix_append _ _)), ← hlen,
    List.drop_left]

theorem foldlM_parseEOption (sets : List Text) (filter : Filter) :
    (sets.map (lit "trace=" ++ ·)).foldlM parseEOption filter =
      some (sets.foldl parseTraceFilter filter) := by
  induction sets generalizing filter with
  | nil => rfl
  | cons s sets ih =>
      rw [List.map_cons, List.foldlM_cons, parseEOption_trace]
      exact ih _

/-! ## What a filter means -/

/-- The token is the name, or a category that lists it. -/
def TokenMatches (name : String) (tok : Text) : Prop :=
  tok = lit name ∨ (tok = lit "file" ∧ name ∈ fileSyscalls) ∨
    (tok = lit "network" ∧ name ∈ networkSyscalls) ∨ (tok = lit "process" ∧ name ∈ processSyscalls)

/-- What the SETs mean. -/
def SetAllows (tokens : List Text) (name : String) : Prop :=
  tokens = [] ∨ ∃ tok ∈ tokens, TokenMatches name tok

theorem nameInList_iff (list : List String) (name : String) :
    nameInList list name = true ↔ name ∈ list := by
  simp [nameInList]

theorem tokenAllows_iff (name : String) (tok : Text) :
    tokenAllows name tok = true ↔ TokenMatches name tok := by
  unfold tokenAllows TokenMatches
  simp only [Bool.or_eq_true, Bool.and_eq_true, beq_iff_eq, nameInList_iff]
  tauto

theorem syscallAllowed_iff (filter : Filter) (name : String) :
    syscallAllowed filter name = true ↔ SetAllows filter name := by
  unfold syscallAllowed SetAllows
  cases filter with
  | nil => simp
  | cons tok toks =>
      rw [if_neg (by simp), List.any_eq_true]
      simp [tokenAllows_iff]

/-- A token of more than 63 characters matches, cut, only a name of 63. -/
theorem tokenMatches_store {tok : Text} (h : 63 < tok.length) (name : String) :
    TokenMatches name (storeToken tok) ↔ tok.take 63 = lit name := by
  have hlen : (storeToken tok).length = 63 := by
    rw [storeToken, List.length_take]
    exact min_eq_left h.le
  have hshort : ∀ s : Text, s.length < 63 → storeToken tok ≠ s := by
    rintro s hs rfl
    omega
  have hcats : (lit "file").length < 63 ∧ (lit "network").length < 63 ∧
      (lit "process").length < 63 := by with_unfolding_all decide
  unfold TokenMatches
  constructor
  · rintro (h | h | h | h)
    · exact h
    · exact absurd h.1 (hshort _ hcats.1)
    · exact absurd h.1 (hshort _ hcats.2.1)
    · exact absurd h.1 (hshort _ hcats.2.2)
  · exact Or.inl

theorem storeToken_of_short {tok : Text} (h : tok.length ≤ 63) : storeToken tok = tok :=
  List.take_of_length_le h

/-- What the table keeps decides for `name` as the tokens do: a match survives among the
first sixteen, and no long token of these is cut to the name by accident. -/
structure TokensKept (tokens : List Text) (name : String) : Prop where
  matched : ∀ tok ∈ tokens, TokenMatches name tok →
    ∃ tok' ∈ tokens.take 16, (tok'.length ≤ 63 ∧ TokenMatches name tok') ∨
      (63 < tok'.length ∧ tok'.take 63 = lit name)
  exact : ∀ tok ∈ tokens.take 16, 63 < tok.length → tok.take 63 = lit name →
    ∃ tok' ∈ tokens, TokenMatches name tok'

/-- A kept token matches as it is, or by its first 63 characters. -/
theorem exists_stored_iff (tokens : List Text) (name : String) :
    (∃ tok ∈ (tokens.take maxFilterTokens).map storeToken, TokenMatches name tok) ↔
      ∃ tok ∈ tokens.take 16, (tok.length ≤ 63 ∧ TokenMatches name tok) ∨
        (63 < tok.length ∧ tok.take 63 = lit name) := by
  have hmap : (∃ tok ∈ (tokens.take maxFilterTokens).map storeToken, TokenMatches name tok) ↔
      ∃ tok ∈ tokens.take maxFilterTokens, TokenMatches name (storeToken tok) := by
    simp only [List.mem_map, exists_exists_and_eq_and]
  rw [hmap]
  refine exists_congr fun tok => and_congr_right fun _ => ?_
  by_cases hlen : tok.length ≤ 63
  · rw [storeToken_of_short hlen]
    constructor
    · exact fun h => Or.inl ⟨hlen, h⟩
    · rintro (h | h)
      · exact h.2
      · omega
  · rw [tokenMatches_store (by omega)]
    constructor
    · exact fun h => Or.inr ⟨by omega, h⟩
    · rintro (h | h)
      · omega
      · exact h.2

/-- `-e trace=SET`: the options leave a filter that lets a name through just as the tokens
of the SETs say, exactly when the table keeps the tokens that matter for it. -/
theorem filter_means_tokens_iff (sets : List Text) (name : String) :
    ∃ filter, (sets.map (lit "trace=" ++ ·)).foldlM parseEOption [] = some filter ∧
      ((syscallAllowed filter name = true ↔ SetAllows (setTokens sets) name) ↔
        TokensKept (setTokens sets) name) := by
  refine ⟨_, foldlM_parseEOption sets [], ?_⟩
  have hfilter := foldl_parseTraceFilter sets []
  rw [List.take_nil, List.map_nil, List.nil_append] at hfilter
  rw [hfilter, syscallAllowed_iff]
  generalize setTokens sets = tokens
  unfold SetAllows
  rw [exists_stored_iff]
  cases tokens with
  | nil =>
      refine iff_of_true (by simp) ⟨?_, ?_⟩
      · simp
      · simp
  | cons tok toks =>
      have hne : ((tok :: toks).take maxFilterTokens).map storeToken ≠ [] := by
        simp [maxFilterTokens]
      rw [or_iff_right hne, or_iff_right (List.cons_ne_nil tok toks)]
      constructor
      · intro h
        exact ⟨fun t ht hm => h.mpr ⟨t, ht, hm⟩,
          fun t ht hlen hcut => h.mp ⟨t, ht, Or.inr ⟨hlen, hcut⟩⟩⟩
      · intro h
        constructor
        · rintro ⟨t, ht, hm | hm⟩
          · exact ⟨t, List.mem_of_mem_take ht, hm.2⟩
          · exact h.exact t ht hm.1 hm.2
        · rintro ⟨t, ht, hm⟩
          exact h.matched t ht hm

/-- Seventeen tokens. -/
def seventeenTokens : Text := lit "a,b,c,d,e,f,g,h,i,j,k,l,m,n,o,p,read"

/-- The last of seventeen tokens is dropped, and the call it names is not shown. -/
theorem seventeenth_token_dropped :
    lit "read" ∈ setTokens [seventeenTokens] ∧
    SetAllows (setTokens [seventeenTokens]) "read" ∧
    syscallAllowed (parseTraceFilter [] seventeenTokens) "read" = false := by
  have hmem : lit "read" ∈ setTokens [seventeenTokens] := by with_unfolding_all decide
  exact ⟨hmem, Or.inr ⟨_, hmem, Or.inl rfl⟩, by with_unfolding_all decide⟩

end MiniStrace
