/-
  Routing/Tables.lean --- `arg_routing.c`: which argument slots of which syscall
  hold a value of which kind.

  Every table of the source is a list here, in the source's order; every lookup
  is the same scan for the first entry of the given name.  A mask is a number
  whose bit `i` says that slot `i` matches; a two-slot entry names the slot of a
  value and the slot of its length.
-/
import MiniStrace.Lib.Text

set_option autoImplicit false

namespace MiniStrace

open CLib

/-- A `buffer_arg_entry`: one slot holds a value, another its length. -/
structure BufferArgEntry where
  name : String
  bufIdx : Nat
  lenIdx : Nat
  deriving DecidableEq, Repr

/-! ## Mask tables -/

def stringArgTable : List (String × Nat) :=
  [("open", 0x01), ("openat", 0x02), ("creat", 0x01), ("access", 0x01), ("faccessat", 0x02),
   ("faccessat2", 0x02), ("stat", 0x01), ("lstat", 0x01), ("newfstatat", 0x02),
   ("statx", 0x02), ("execve", 0x01), ("execveat", 0x02), ("unlink", 0x01), ("unlinkat", 0x02),
   ("mkdir", 0x01), ("mkdirat", 0x02), ("rmdir", 0x01), ("chdir", 0x01), ("rename", 0x03),
   ("renameat", 0x0a), ("renameat2", 0x0a), ("memfd_create", 0x01), ("readlink", 0x01),
   ("readlinkat", 0x02), ("chmod", 0x01), ("fchmodat", 0x02), ("chown", 0x01),
   ("lchown", 0x01), ("fchownat", 0x02), ("truncate", 0x01), ("statfs", 0x01),
   ("symlink", 0x03), ("symlinkat", 0x05), ("link", 0x03), ("linkat", 0x0a), ("mount", 0x07),
   ("umount2", 0x01), ("chroot", 0x01), ("pivot_root", 0x03), ("utime", 0x01),
   ("utimes", 0x01), ("futimesat", 0x02)]

def fdArgTable : List (String × Nat) :=
  [("read", 0x01), ("write", 0x01), ("pread64", 0x01), ("pwrite64", 0x01), ("close", 0x01),
   ("fstat", 0x01), ("lseek", 0x01), ("ioctl", 0x01), ("fcntl", 0x01), ("dup", 0x01),
   ("dup2", 0x03), ("dup3", 0x03), ("fchmod", 0x01), ("fchown", 0x01), ("ftruncate", 0x01),
   ("fstatfs", 0x01), ("fsync", 0x01), ("fdatasync", 0x01), ("flock", 0x01), ("mmap", 0x10),
   ("openat", 0x01), ("faccessat", 0x01), ("faccessat2", 0x01), ("unlinkat", 0x01),
   ("mkdirat", 0x01), ("renameat", 0x05), ("renameat2", 0x05), ("newfstatat", 0x01),
   ("readlinkat", 0x01), ("fchmodat", 0x01), ("fchownat", 0x01), ("symlinkat", 0x02),
   ("linkat", 0x05), ("futimesat", 0x01), ("accept", 0x01), ("accept4", 0x01), ("bind", 0x01),
   ("listen", 0x01), ("connect", 0x01), ("getsockname", 0x01), ("getpeername", 0x01),
   ("setsockopt", 0x01), ("getsockopt", 0x01), ("shutdown", 0x01), ("sendto", 0x01),
   ("recvfrom", 0x01), ("sendmsg", 0x01), ("recvmsg", 0x01)]

def dirfdArgTable : List (String × Nat) :=
  [("openat", 0x01), ("openat2", 0x01), ("faccessat", 0x01), ("faccessat2", 0x01),
   ("unlinkat", 0x01), ("mkdirat", 0x01), ("mknodat", 0x01), ("renameat", 0x05),
   ("renameat2", 0x05), ("newfstatat", 0x01), ("statx", 0x01), ("readlinkat", 0x01),
   ("fchmodat", 0x01), ("fchmodat2", 0x01), ("fchownat", 0x01), ("symlinkat", 0x02),
   ("linkat", 0x05), ("futimesat", 0x01), ("utimensat", 0x01), ("execveat", 0x01),
   ("name_to_handle_at", 0x01)]

def atFlagsArgTable : List (String × Nat) :=
  [("newfstatat", 0x08), ("statx", 0x04), ("linkat", 0x10), ("utimensat", 0x08),
   ("fchmodat2", 0x08), ("fchownat", 0x10), ("execveat", 0x10)]

def unlinkatFlagsArgTable : List (String × Nat) := [("unlinkat", 0x04)]

def faccessatFlagsArgTable : List (String × Nat) := [("faccessat2", 0x08)]

def argvArgTable : List (String × Nat) :=
  [("execve", 0x06), ("execveat", 0x0c)]

def openFlagsArgTable : List (String × Nat) :=
  [("open", 0x02), ("openat", 0x04)]

def protFlagsArgTable : List (String × Nat) :=
  [("mmap", 0x04), ("mprotect", 0x04)]

def mapFlagsArgTable : List (String × Nat) := [("mmap", 0x08)]

def mountFlagsArgTable : List (String × Nat) := [("mount", 0x08)]

def socketDomainArgTable : List (String × Nat) :=
  [("socket", 0x01), ("socketpair", 0x01)]

def socketTypeArgTable : List (String × Nat) :=
  [("socket", 0x02), ("socketpair", 0x02)]

def sockoptLevelArgTable : List (String × Nat) :=
  [("setsockopt", 0x02), ("getsockopt", 0x02)]

def sockoptOptnameArgTable : List (String × Nat) :=
  [("setsockopt", 0x04), ("getsockopt", 0x04)]

def fdsetArgTable : List (String × Nat) :=
  [("select", 0x0e), ("pselect6", 0x0e)]

def msgFlagsArgTable : List (String × Nat) :=
  [("sendto", 0x08), ("recvfrom", 0x08), ("sendmsg", 0x04), ("recvmsg", 0x04)]

def fileModeArgTable : List (String × Nat) :=
  [("chmod", 0x02), ("fchmod", 0x02), ("fchmodat", 0x04), ("fchmodat2", 0x04), ("mkdir", 0x02),
   ("mkdirat", 0x04), ("mknod", 0x02), ("mknodat", 0x04), ("creat", 0x02), ("umask", 0x01)]

def openModeArgTable : List (String × Nat) :=
  [("open", 0x04), ("openat", 0x08)]

def renameat2FlagsArgTable : List (String × Nat) := [("renameat2", 0x10)]

def mremapFlagsArgTable : List (String × Nat) := [("mremap", 0x08)]

def memfdFlagsArgTable : List (String × Nat) := [("memfd_create", 0x02)]

def eventfdFlagsArgTable : List (String × Nat) := [("eventfd2", 0x02)]

def wait4OptionsArgTable : List (String × Nat) := [("wait4", 0x04)]

def waitidIdtypeArgTable : List (String × Nat) := [("waitid", 0x01)]

def waitidOptionsArgTable : List (String × Nat) := [("waitid", 0x08)]

def schedPolicyArgTable : List (String × Nat) := [("sched_setscheduler", 0x02)]

def rusageWhoArgTable : List (String × Nat) := [("getrusage", 0x01)]

def rlimitInArgTable : List (String × Nat) :=
  [("setrlimit", 0x02), ("prlimit64", 0x04)]

def rlimitOutArgTable : List (String × Nat) :=
  [("getrlimit", 0x02), ("prlimit64", 0x08)]

def rlimitResourceArgTable : List (String × Nat) :=
  [("getrlimit", 0x01), ("setrlimit", 0x01), ("prlimit64", 0x02)]

def pipe2FlagsArgTable : List (String × Nat) := [("pipe2", 0x02)]

def getrandomFlagsArgTable : List (String × Nat) := [("getrandom", 0x04)]

def flockOpArgTable : List (String × Nat) := [("flock", 0x02)]

def madviseAdviceArgTable : List (String × Nat) := [("madvise", 0x04)]

def futexOpArgTable : List (String × Nat) := [("futex", 0x02)]

def prctlOptionArgTable : List (String × Nat) := [("prctl", 0x01)]

def prctlNameArgTable : List (String × Nat) := [("prctl", 0x02)]

def signalArgTable : List (String × Nat) :=
  [("kill", 0x02), ("tkill", 0x02), ("tgkill", 0x04), ("rt_sigaction", 0x01)]

def lseekWhenceArgTable : List (String × Nat) := [("lseek", 0x04)]

def fcntlCmdArgTable : List (String × Nat) := [("fcntl", 0x02)]

def sigprocmaskHowArgTable : List (String × Nat) := [("rt_sigprocmask", 0x01)]

def accessModeArgTable : List (String × Nat) :=
  [("access", 0x02), ("faccessat", 0x04), ("faccessat2", 0x04)]

def clockidArgTable : List (String × Nat) :=
  [("clock_gettime", 0x01), ("clock_settime", 0x01), ("clock_getres", 0x01),
   ("clock_nanosleep", 0x01)]

def waitStatusArgTable : List (String × Nat) := [("wait4", 0x02)]

def rusageArgTable : List (String × Nat) :=
  [("wait4", 0x08), ("getrusage", 0x02)]

def epollOpArgTable : List (String × Nat) := [("epoll_ctl", 0x02)]

def epollEventArgTable : List (String × Nat) := [("epoll_ctl", 0x08)]

def epollEventsArgTable : List (String × Nat) :=
  [("epoll_wait", 0x02), ("epoll_pwait", 0x02)]

def statBufArgTable : List (String × Nat) :=
  [("stat", 0x02), ("lstat", 0x02), ("fstat", 0x02), ("newfstatat", 0x04)]

def statxMaskArgTable : List (String × Nat) := [("statx", 0x08)]

def statxBufArgTable : List (String × Nat) := [("statx", 0x10)]

def getdentsBufArgTable : List (String × Nat) := [("getdents64", 0x02)]

def cloneFlagsArgTable : List (String × Nat) := [("clone", 0x01)]

def clone3ArgsArgTable : List (String × Nat) := [("clone3", 0x01)]

def ioctlRequestArgTable : List (String × Nat) := [("ioctl", 0x02)]

def msghdrSendArgTable : List (String × Nat) := [("sendmsg", 0x02)]

def msghdrRecvArgTable : List (String × Nat) := [("recvmsg", 0x02)]

def sigactionNewArgTable : List (String × Nat) := [("rt_sigaction", 0x02)]

def sigactionOldArgTable : List (String × Nat) := [("rt_sigaction", 0x04)]

def timespecInArgTable : List (String × Nat) :=
  [("clock_settime", 0x02), ("nanosleep", 0x01), ("clock_nanosleep", 0x04)]

def timespecOutArgTable : List (String × Nat) :=
  [("clock_gettime", 0x02), ("nanosleep", 0x02), ("clock_nanosleep", 0x08)]

/-! ## Tables of a value and its length -/

def bufferArgTable : List BufferArgEntry :=
  [⟨"write", 1, 2⟩, ⟨"pwrite64", 1, 2⟩]

def iovecWriteArgTable : List BufferArgEntry :=
  [⟨"writev", 1, 2⟩]

def sockaddrArgTable : List BufferArgEntry :=
  [⟨"connect", 1, 2⟩, ⟨"bind", 1, 2⟩, ⟨"sendto", 4, 5⟩]

def acceptArgTable : List BufferArgEntry :=
  [⟨"accept", 1, 2⟩, ⟨"accept4", 1, 2⟩, ⟨"getsockname", 1, 2⟩, ⟨"getpeername", 1, 2⟩,
   ⟨"recvfrom", 4, 5⟩]

def pollfdsArgTable : List BufferArgEntry :=
  [⟨"poll", 0, 1⟩, ⟨"ppoll", 0, 1⟩]

def readArgTable : List BufferArgEntry :=
  [⟨"read", 1, 2⟩, ⟨"pread64", 1, 2⟩, ⟨"recvfrom", 1, 2⟩]

def iovecReadArgTable : List BufferArgEntry :=
  [⟨"readv", 1, 2⟩]

/-! ## Argument counts -/

def syscallArgcTable : List (String × Nat) :=
  [("access", 2), ("faccessat", 3), ("faccessat2", 4), ("chdir", 1), ("chmod", 2),
   ("fchmod", 2), ("fchmodat", 3), ("chown", 3), ("fchown", 3), ("fchownat", 5), ("lchown", 3),
   ("chroot", 1), ("creat", 2), ("open", 3), ("openat", 4), ("close", 1), ("read", 3),
   ("write", 3), ("pread64", 4), ("pwrite64", 4), ("umask", 1), ("mremap", 5),
   ("memfd_create", 2), ("eventfd2", 2), ("getrlimit", 2), ("setrlimit", 2), ("readv", 3),
   ("writev", 3), ("lseek", 3), ("fcntl", 3), ("flock", 2), ("fsync", 1), ("fdatasync", 1),
   ("ftruncate", 2), ("truncate", 2), ("stat", 2), ("lstat", 2), ("fstat", 2),
   ("newfstatat", 4), ("statx", 5), ("statfs", 2), ("fstatfs", 2), ("readlink", 3),
   ("readlinkat", 4), ("symlink", 2), ("symlinkat", 3), ("link", 2), ("linkat", 5),
   ("rename", 2), ("renameat", 4), ("renameat2", 5), ("unlink", 1), ("unlinkat", 3),
   ("mkdir", 2), ("mkdirat", 3), ("rmdir", 1), ("utime", 2), ("utimes", 2), ("futimesat", 3),
   ("mount", 5), ("umount2", 2), ("pivot_root", 2), ("execve", 3), ("execveat", 5), ("dup", 1),
   ("dup2", 2), ("dup3", 3), ("mmap", 6), ("mprotect", 3), ("kill", 2), ("tkill", 2),
   ("tgkill", 3), ("wait4", 4), ("clock_gettime", 2), ("clock_settime", 2),
   ("clock_getres", 2), ("clock_nanosleep", 4), ("rt_sigprocmask", 4), ("clone", 5),
   ("clone3", 2), ("ioctl", 3), ("socket", 3), ("socketpair", 4), ("bind", 3), ("listen", 2),
   ("accept", 3), ("accept4", 4), ("connect", 3), ("getsockname", 3), ("getpeername", 3),
   ("setsockopt", 5), ("getsockopt", 5), ("shutdown", 2), ("sendto", 6), ("recvfrom", 6),
   ("sendmsg", 3), ("recvmsg", 3), ("brk", 1), ("munmap", 2), ("arch_prctl", 2),
   ("set_tid_address", 1), ("set_robust_list", 2), ("rseq", 4), ("prlimit64", 4),
   ("getrandom", 3), ("rt_sigaction", 4), ("rt_sigreturn", 0), ("sched_yield", 0),
   ("madvise", 3), ("poll", 3), ("ppoll", 5), ("select", 5), ("pselect6", 6), ("epoll_ctl", 4),
   ("epoll_wait", 4), ("epoll_pwait", 6), ("pipe", 1), ("pipe2", 2), ("getcwd", 2),
   ("getdents64", 3), ("prctl", 5), ("alarm", 1), ("pause", 0), ("nanosleep", 2), ("sync", 0),
   ("exit", 1), ("exit_group", 1), ("fork", 0), ("vfork", 0), ("getuid", 0), ("getgid", 0),
   ("geteuid", 0), ("getegid", 0), ("getpid", 0), ("getppid", 0), ("gettid", 0),
   ("io_setup", 2), ("io_destroy", 1), ("io_submit", 3), ("io_cancel", 3), ("io_getevents", 5),
   ("io_pgetevents", 6), ("setxattr", 5), ("lsetxattr", 5), ("fsetxattr", 5), ("getxattr", 4),
   ("lgetxattr", 4), ("fgetxattr", 4), ("listxattr", 3), ("llistxattr", 3), ("flistxattr", 3),
   ("removexattr", 2), ("lremovexattr", 2), ("fremovexattr", 2), ("lookup_dcookie", 3),
   ("epoll_create", 1), ("epoll_create1", 1), ("inotify_init", 0), ("inotify_init1", 1),
   ("inotify_add_watch", 3), ("inotify_rm_watch", 2), ("ioprio_set", 3), ("ioprio_get", 2),
   ("mknod", 3), ("mknodat", 4), ("fallocate", 4), ("fchdir", 1), ("vhangup", 0),
   ("quotactl", 4), ("preadv", 5), ("pwritev", 5), ("preadv2", 6), ("pwritev2", 6),
   ("sendfile", 4), ("signalfd", 3), ("signalfd4", 4), ("eventfd", 2), ("vmsplice", 4),
   ("splice", 6), ("tee", 4), ("sync_file_range", 4), ("timerfd_create", 2),
   ("timerfd_settime", 4), ("timerfd_gettime", 2), ("utimensat", 4), ("acct", 1),
   ("capget", 2), ("capset", 2), ("personality", 1), ("waitid", 5), ("unshare", 1),
   ("futex", 6), ("get_robust_list", 3), ("getitimer", 2), ("setitimer", 3), ("kexec_load", 4),
   ("init_module", 3), ("finit_module", 3), ("delete_module", 2), ("timer_create", 3),
   ("timer_gettime", 2), ("timer_getoverrun", 1), ("timer_settime", 4), ("timer_delete", 1),
   ("syslog", 3), ("ptrace", 4), ("sched_setparam", 2), ("sched_setscheduler", 3),
   ("sched_getscheduler", 1), ("sched_getparam", 2), ("sched_setaffinity", 3),
   ("sched_getaffinity", 3), ("sched_get_priority_max", 1), ("sched_get_priority_min", 1),
   ("sched_rr_get_interval", 2), ("restart_syscall", 0), ("sigaltstack", 2),
   ("rt_sigsuspend", 2), ("rt_sigpending", 2), ("rt_sigtimedwait", 4), ("rt_sigqueueinfo", 3),
   ("rt_tgsigqueueinfo", 4), ("setpriority", 3), ("getpriority", 2), ("reboot", 4),
   ("setregid", 2), ("setgid", 1), ("setreuid", 2), ("setuid", 1), ("setresuid", 3),
   ("getresuid", 3), ("setresgid", 3), ("getresgid", 3), ("setfsuid", 1), ("setfsgid", 1),
   ("times", 1), ("setpgid", 2), ("getpgid", 1), ("getpgrp", 0), ("getsid", 1), ("setsid", 0),
   ("getgroups", 2), ("setgroups", 2), ("uname", 1), ("sethostname", 2), ("setdomainname", 2),
   ("getrusage", 2), ("getcpu", 3), ("gettimeofday", 2), ("settimeofday", 2), ("time", 1),
   ("adjtimex", 1), ("clock_adjtime", 2), ("sysinfo", 1), ("mq_open", 4), ("mq_unlink", 1),
   ("mq_timedsend", 5), ("mq_timedreceive", 5), ("mq_notify", 2), ("mq_getsetattr", 3),
   ("msgget", 2), ("msgctl", 3), ("msgrcv", 5), ("msgsnd", 4), ("semget", 3), ("semctl", 4),
   ("semtimedop", 4), ("semop", 3), ("shmget", 3), ("shmctl", 3), ("shmat", 3), ("shmdt", 1),
   ("readahead", 3), ("add_key", 5), ("request_key", 4), ("keyctl", 5), ("fadvise64", 4),
   ("swapon", 2), ("swapoff", 1), ("msync", 3), ("mlock", 2), ("munlock", 2), ("mlockall", 1),
   ("munlockall", 0), ("mlock2", 3), ("mincore", 3), ("remap_file_pages", 5), ("mbind", 6),
   ("get_mempolicy", 5), ("set_mempolicy", 3), ("set_mempolicy_home_node", 4),
   ("migrate_pages", 4), ("move_pages", 6), ("perf_event_open", 5), ("recvmmsg", 5),
   ("sendmmsg", 4), ("fanotify_init", 2), ("fanotify_mark", 5), ("name_to_handle_at", 5),
   ("open_by_handle_at", 3), ("syncfs", 1), ("setns", 2), ("process_vm_readv", 6),
   ("process_vm_writev", 6), ("kcmp", 5), ("sched_setattr", 3), ("sched_getattr", 4),
   ("seccomp", 3), ("bpf", 3), ("userfaultfd", 1), ("membarrier", 3), ("copy_file_range", 6),
   ("pkey_mprotect", 4), ("pkey_alloc", 2), ("pkey_free", 1), ("kexec_file_load", 5),
   ("pidfd_send_signal", 4), ("io_uring_setup", 2), ("io_uring_enter", 6),
   ("io_uring_register", 4), ("open_tree", 3), ("move_mount", 5), ("fsopen", 2),
   ("fsconfig", 5), ("fsmount", 3), ("fspick", 3), ("pidfd_open", 2), ("close_range", 3),
   ("openat2", 4), ("pidfd_getfd", 3), ("process_madvise", 5), ("epoll_pwait2", 6),
   ("mount_setattr", 5), ("quotactl_fd", 4), ("landlock_create_ruleset", 3),
   ("landlock_add_rule", 4), ("landlock_restrict_self", 2), ("memfd_secret", 1),
   ("process_mrelease", 2), ("futex_waitv", 5), ("cachestat", 4), ("fchmodat2", 4),
   ("getdents", 3), ("ustat", 2), ("uselib", 1), ("sysfs", 3), ("modify_ldt", 3), ("iopl", 1),
   ("ioperm", 3)]

/-! ## Lookups -/

/-- `strcmp(a, b) == 0`. -/
def strcmpEq (a b : String) : Bool := lit a == lit b

@[simp] theorem strcmpEq_eq (a b : String) : strcmpEq a b = decide (a = b) := by
  by_cases h : a = b
  · simp [strcmpEq, h]
  · simp [strcmpEq, h, lit_injective.eq_iff]

/-- The scan of every mask lookup (`mask_lookup`). -/
def maskLookup (table : List (String × Nat)) (syscall : String) : Nat :=
  match table.find? (fun e => strcmpEq e.1 syscall) with
  | some e => e.2
  | none => 0

/-- The scan of every two-slot lookup. -/
def bufferLookup (table : List BufferArgEntry) (syscall : String) : Option BufferArgEntry :=
  table.find? (fun e => strcmpEq e.name syscall)

def stringArgMask (syscall : String) : Nat := maskLookup stringArgTable syscall
def fdArgMask (syscall : String) : Nat := maskLookup fdArgTable syscall
def dirfdArgMask (syscall : String) : Nat := maskLookup dirfdArgTable syscall
def atFlagsArgMask (syscall : String) : Nat := maskLookup atFlagsArgTable syscall
def unlinkatFlagsArgMask (syscall : String) : Nat := maskLookup unlinkatFlagsArgTable syscall
def faccessatFlagsArgMask (syscall : String) : Nat := maskLookup faccessatFlagsArgTable syscall
def argvArgMask (syscall : String) : Nat := maskLookup argvArgTable syscall
def openFlagsArgMask (syscall : String) : Nat := maskLookup openFlagsArgTable syscall
def protFlagsArgMask (syscall : String) : Nat := maskLookup protFlagsArgTable syscall
def mapFlagsArgMask (syscall : String) : Nat := maskLookup mapFlagsArgTable syscall
def mountFlagsArgMask (syscall : String) : Nat := maskLookup mountFlagsArgTable syscall
def socketDomainArgMask (syscall : String) : Nat := maskLookup socketDomainArgTable syscall
def socketTypeArgMask (syscall : String) : Nat := maskLookup socketTypeArgTable syscall
def sockoptLevelArgMask (syscall : String) : Nat := maskLookup sockoptLevelArgTable syscall
def sockoptOptnameArgMask (syscall : String) : Nat := maskLookup sockoptOptnameArgTable syscall
def fdsetArgMask (syscall : String) : Nat := maskLookup fdsetArgTable syscall
def msgFlagsArgMask (syscall : String) : Nat := maskLookup msgFlagsArgTable syscall
def fileModeArgMask (syscall : String) : Nat := maskLookup fileModeArgTable syscall
def openModeArgMask (syscall : String) : Nat := maskLookup openModeArgTable syscall
def renameat2FlagsArgMask (syscall : String) : Nat := maskLookup renameat2FlagsArgTable syscall
def mremapFlagsArgMask (syscall : String) : Nat := maskLookup mremapFlagsArgTable syscall
def memfdFlagsArgMask (syscall : String) : Nat := maskLookup memfdFlagsArgTable syscall
def eventfdFlagsArgMask (syscall : String) : Nat := maskLookup eventfdFlagsArgTable syscall
def wait4OptionsArgMask (syscall : String) : Nat := maskLookup wait4OptionsArgTable syscall
def waitidIdtypeArgMask (syscall : String) : Nat := maskLookup waitidIdtypeArgTable syscall
def waitidOptionsArgMask (syscall : String) : Nat := maskLookup waitidOptionsArgTable syscall
def schedPolicyArgMask (syscall : String) : Nat := maskLookup schedPolicyArgTable syscall
def rusageWhoArgMask (syscall : String) : Nat := maskLookup rusageWhoArgTable syscall
def rlimitInArgMask (syscall : String) : Nat := maskLookup rlimitInArgTable syscall
def rlimitOutArgMask (syscall : String) : Nat := maskLookup rlimitOutArgTable syscall
def rlimitResourceArgMask (syscall : String) : Nat := maskLookup rlimitResourceArgTable syscall
def pipe2FlagsArgMask (syscall : String) : Nat := maskLookup pipe2FlagsArgTable syscall
def getrandomFlagsArgMask (syscall : String) : Nat := maskLookup getrandomFlagsArgTable syscall
def flockOpArgMask (syscall : String) : Nat := maskLookup flockOpArgTable syscall
def madviseAdviceArgMask (syscall : String) : Nat := maskLookup madviseAdviceArgTable syscall
def futexOpArgMask (syscall : String) : Nat := maskLookup futexOpArgTable syscall
def prctlOptionArgMask (syscall : String) : Nat := maskLookup prctlOptionArgTable syscall
def prctlNameArgMask (syscall : String) : Nat := maskLookup prctlNameArgTable syscall
def signalArgMask (syscall : String) : Nat := maskLookup signalArgTable syscall
def lseekWhenceArgMask (syscall : String) : Nat := maskLookup lseekWhenceArgTable syscall
def fcntlCmdArgMask (syscall : String) : Nat := maskLookup fcntlCmdArgTable syscall
def sigprocmaskHowArgMask (syscall : String) : Nat := maskLookup sigprocmaskHowArgTable syscall
def accessModeArgMask (syscall : String) : Nat := maskLookup accessModeArgTable syscall
def clockidArgMask (syscall : String) : Nat := maskLookup clockidArgTable syscall
def waitStatusArgMask (syscall : String) : Nat := maskLookup waitStatusArgTable syscall
def rusageArgMask (syscall : String) : Nat := maskLookup rusageArgTable syscall
def epollOpArgMask (syscall : String) : Nat := maskLookup epollOpArgTable syscall
def epollEventArgMask (syscall : String) : Nat := maskLookup epollEventArgTable syscall
def epollEventsArgMask (syscall : String) : Nat := maskLookup epollEventsArgTable syscall
def statBufArgMask (syscall : String) : Nat := maskLookup statBufArgTable syscall
def statxMaskArgMask (syscall : String) : Nat := maskLookup statxMaskArgTable syscall
def statxBufArgMask (syscall : String) : Nat := maskLookup statxBufArgTable syscall
def getdentsBufArgMask (syscall : String) : Nat := maskLookup getdentsBufArgTable syscall
def cloneFlagsArgMask (syscall : String) : Nat := maskLookup cloneFlagsArgTable syscall
def clone3ArgsArgMask (syscall : String) : Nat := maskLookup clone3ArgsArgTable syscall
def ioctlRequestArgMask (syscall : String) : Nat := maskLookup ioctlRequestArgTable syscall
def msghdrSendArgMask (syscall : String) : Nat := maskLookup msghdrSendArgTable syscall
def msghdrRecvArgMask (syscall : String) : Nat := maskLookup msghdrRecvArgTable syscall
def sigactionNewArgMask (syscall : String) : Nat := maskLookup sigactionNewArgTable syscall
def sigactionOldArgMask (syscall : String) : Nat := maskLookup sigactionOldArgTable syscall
def timespecInArgMask (syscall : String) : Nat := maskLookup timespecInArgTable syscall
def timespecOutArgMask (syscall : String) : Nat := maskLookup timespecOutArgTable syscall

def bufferArgLookup (syscall : String) : Option BufferArgEntry :=
  bufferLookup bufferArgTable syscall

def iovecWriteArgLookup (syscall : String) : Option BufferArgEntry :=
  bufferLookup iovecWriteArgTable syscall

def sockaddrArgLookup (syscall : String) : Option BufferArgEntry :=
  bufferLookup sockaddrArgTable syscall

def acceptArgLookup (syscall : String) : Option BufferArgEntry :=
  bufferLookup acceptArgTable syscall

def pollfdsArgLookup (syscall : String) : Option BufferArgEntry :=
  bufferLookup pollfdsArgTable syscall

def readArgLookup (syscall : String) : Option BufferArgEntry :=
  bufferLookup readArgTable syscall

def iovecReadArgLookup (syscall : String) : Option BufferArgEntry :=
  bufferLookup iovecReadArgTable syscall

/-- `syscall_argc`; `-1` for a name the table does not have. -/
def syscallArgc (syscall : String) : Int :=
  match syscallArgcTable.find? (fun e => strcmpEq e.1 syscall) with
  | some e => e.2
  | none => -1

/-- How many arguments `print_call` prints. -/
def printedArgs (name : String) : Nat :=
  let argc := syscallArgc name
  if argc < 0 ∨ argc > 6 then 6 else argc.toNat

theorem maskLookup_of_not_mem {table : List (String × Nat)} {syscall : String}
    (h : syscall ∉ table.map (·.1)) : maskLookup table syscall = 0 := by
  have hnone : table.find? (fun e => strcmpEq e.1 syscall) = none := by
    rw [List.find?_eq_none]
    intro e he hc
    exact h (List.mem_map.mpr ⟨e, he, by simpa using hc⟩)
  rw [maskLookup, hnone]

theorem bufferLookup_of_not_mem {table : List BufferArgEntry} {syscall : String}
    (h : syscall ∉ table.map (·.name)) : bufferLookup table syscall = none := by
  rw [bufferLookup, List.find?_eq_none]
  intro e he hc
  exact h (List.mem_map.mpr ⟨e, he, by simpa using hc⟩)

end MiniStrace
