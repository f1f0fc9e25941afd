/-
  Decoders/FlagTables.lean --- the `flag_entry` tables of `decoders.c`.

  The source names the values by the macros of the C library; the numbers here are
  those of x86-64 Linux with glibc, in the order of the source.  Entries behind an
  `#ifdef` are listed when that library defines the macro.
-/
import MiniStrace.ChildMem

set_option autoImplicit false

namespace MiniStrace

/-- A `flag_entry`. -/
structure FlagEntry where
  value : Word
  name : String

def openFlagTable : List FlagEntry :=
  [⟨0x410000, "O_TMPFILE"⟩, ⟨0x101000, "O_SYNC"⟩, ⟨0x40, "O_CREAT"⟩, ⟨0x80, "O_EXCL"⟩,
   ⟨0x100, "O_NOCTTY"⟩, ⟨0x200, "O_TRUNC"⟩, ⟨0x400, "O_APPEND"⟩, ⟨0x800, "O_NONBLOCK"⟩,
   ⟨0x1000, "O_DSYNC"⟩, ⟨0x4000, "O_DIRECT"⟩, ⟨0, "O_LARGEFILE"⟩, ⟨0x10000, "O_DIRECTORY"⟩,
   ⟨0x20000, "O_NOFOLLOW"⟩, ⟨0x40000, "O_NOATIME"⟩, ⟨0x80000, "O_CLOEXEC"⟩,
   ⟨0x200000, "O_PATH"⟩]

def protFlagTable : List FlagEntry :=
  [⟨1, "PROT_READ"⟩, ⟨2, "PROT_WRITE"⟩, ⟨4, "PROT_EXEC"⟩]

def mapFlagTable : List FlagEntry :=
  [⟨1, "MAP_SHARED"⟩, ⟨2, "MAP_PRIVATE"⟩, ⟨0x10, "MAP_FIXED"⟩, ⟨0x20, "MAP_ANONYMOUS"⟩,
   ⟨0x100, "MAP_GROWSDOWN"⟩, ⟨0x800, "MAP_DENYWRITE"⟩, ⟨0x1000, "MAP_EXECUTABLE"⟩,
   ⟨0x2000, "MAP_LOCKED"⟩, ⟨0x4000, "MAP_NORESERVE"⟩, ⟨0x8000, "MAP_POPULATE"⟩,
   ⟨0x10000, "MAP_NONBLOCK"⟩, ⟨0x20000, "MAP_STACK"⟩, ⟨0x40000, "MAP_HUGETLB"⟩]

def mountFlagTable : List FlagEntry :=
  [⟨1, "MS_RDONLY"⟩, ⟨2, "MS_NOSUID"⟩, ⟨4, "MS_NODEV"⟩, ⟨8, "MS_NOEXEC"⟩,
   ⟨0x10, "MS_SYNCHRONOUS"⟩, ⟨0x20, "MS_REMOUNT"⟩, ⟨0x40, "MS_MANDLOCK"⟩, ⟨0x80, "MS_DIRSYNC"⟩,
   ⟨0x400, "MS_NOATIME"⟩, ⟨0x800, "MS_NODIRATIME"⟩, ⟨0x1000, "MS_BIND"⟩, ⟨0x2000, "MS_MOVE"⟩,
   ⟨0x4000, "MS_REC"⟩, ⟨0x8000, "MS_SILENT"⟩, ⟨0x10000, "MS_POSIXACL"⟩,
   ⟨0x20000, "MS_UNBINDABLE"⟩, ⟨0x40000, "MS_PRIVATE"⟩, ⟨0x80000, "MS_SLAVE"⟩,
   ⟨0x100000, "MS_SHARED"⟩, ⟨0x200000, "MS_RELATIME"⟩, ⟨0x400000, "MS_KERNMOUNT"⟩,
   ⟨0x800000, "MS_I_VERSION"⟩, ⟨0x1000000, "MS_STRICTATIME"⟩, ⟨0x2000000, "MS_LAZYTIME"⟩]

def socketDomainTable : List FlagEntry :=
  [⟨1, "AF_UNIX"⟩, ⟨2, "AF_INET"⟩, ⟨0xa, "AF_INET6"⟩, ⟨0x10, "AF_NETLINK"⟩,
   ⟨0x11, "AF_PACKET"⟩, ⟨0, "AF_UNSPEC"⟩]

def socketTypeTable : List FlagEntry :=
  [⟨1, "SOCK_STREAM"⟩, ⟨2, "SOCK_DGRAM"⟩, ⟨3, "SOCK_RAW"⟩, ⟨4, "SOCK_RDM"⟩,
   ⟨5, "SOCK_SEQPACKET"⟩, ⟨0xa, "SOCK_PACKET"⟩]

def lseekWhenceTable : List FlagEntry :=
  [⟨0, "SEEK_SET"⟩, ⟨1, "SEEK_CUR"⟩, ⟨2, "SEEK_END"⟩, ⟨3, "SEEK_DATA"⟩, ⟨4, "SEEK_HOLE"⟩]

def fcntlCmdTable : List FlagEntry :=
  [⟨0, "F_DUPFD"⟩, ⟨0x406, "F_DUPFD_CLOEXEC"⟩, ⟨1, "F_GETFD"⟩, ⟨2, "F_SETFD"⟩, ⟨3, "F_GETFL"⟩,
   ⟨4, "F_SETFL"⟩, ⟨5, "F_GETLK"⟩, ⟨6, "F_SETLK"⟩, ⟨7, "F_SETLKW"⟩, ⟨9, "F_GETOWN"⟩,
   ⟨8, "F_SETOWN"⟩, ⟨0xb, "F_GETSIG"⟩, ⟨0xa, "F_SETSIG"⟩, ⟨0x400, "F_SETLEASE"⟩,
   ⟨0x401, "F_GETLEASE"⟩, ⟨0x407, "F_SETPIPE_SZ"⟩, ⟨0x408, "F_GETPIPE_SZ"⟩]

def sigprocmaskHowTable : List FlagEntry :=
  [⟨0, "SIG_BLOCK"⟩, ⟨1, "SIG_UNBLOCK"⟩, ⟨2, "SIG_SETMASK"⟩]

def accessModeTable : List FlagEntry :=
  [⟨4, "R_OK"⟩, ⟨2, "W_OK"⟩, ⟨1, "X_OK"⟩]

def clockidTable : List FlagEntry :=
  [⟨0, "CLOCK_REALTIME"⟩, ⟨1, "CLOCK_MONOTONIC"⟩, ⟨2, "CLOCK_PROCESS_CPUTIME_ID"⟩,
   ⟨3, "CLOCK_THREAD_CPUTIME_ID"⟩, ⟨4, "CLOCK_MONOTONIC_RAW"⟩, ⟨5, "CLOCK_REALTIME_COARSE"⟩,
   ⟨6, "CLOCK_MONOTONIC_COARSE"⟩, ⟨7, "CLOCK_BOOTTIME"⟩]

def cloneFlagTable : List FlagEntry :=
  [⟨0x100, "CLONE_VM"⟩, ⟨0x200, "CLONE_FS"⟩, ⟨0x400, "CLONE_FILES"⟩, ⟨0x800, "CLONE_SIGHAND"⟩,
   ⟨0x1000, "CLONE_PIDFD"⟩, ⟨0x2000, "CLONE_PTRACE"⟩, ⟨0x4000, "CLONE_VFORK"⟩,
   ⟨0x8000, "CLONE_PARENT"⟩, ⟨0x10000, "CLONE_THREAD"⟩, ⟨0x20000, "CLONE_NEWNS"⟩,
   ⟨0x40000, "CLONE_SYSVSEM"⟩, ⟨0x80000, "CLONE_SETTLS"⟩, ⟨0x100000, "CLONE_PARENT_SETTID"⟩,
   ⟨0x200000, "CLONE_CHILD_CLEARTID"⟩, ⟨0x800000, "CLONE_UNTRACED"⟩,
   ⟨0x1000000, "CLONE_CHILD_SETTID"⟩, ⟨0x2000000, "CLONE_NEWCGROUP"⟩,
   ⟨0x4000000, "CLONE_NEWUTS"⟩, ⟨0x8000000, "CLONE_NEWIPC"⟩, ⟨0x10000000, "CLONE_NEWUSER"⟩,
   ⟨0x20000000, "CLONE_NEWPID"⟩, ⟨0x40000000, "CLONE_NEWNET"⟩, ⟨0x80000000, "CLONE_IO"⟩]

def ioctlRequestTable : List FlagEntry :=
  [⟨0x5401, "TCGETS"⟩, ⟨0x5402, "TCSETS"⟩, ⟨0x5403, "TCSETSW"⟩, ⟨0x5404, "TCSETSF"⟩,
   ⟨0x5405, "TCGETA"⟩, ⟨0x5406, "TCSETA"⟩, ⟨0x5407, "TCSETAW"⟩, ⟨0x5408, "TCSETAF"⟩,
   ⟨0x5409, "TCSBRK"⟩, ⟨0x540a, "TCXONC"⟩, ⟨0x540b, "TCFLSH"⟩, ⟨0x540c, "TIOCEXCL"⟩,
   ⟨0x540d, "TIOCNXCL"⟩, ⟨0x540e, "TIOCSCTTY"⟩, ⟨0x540f, "TIOCGPGRP"⟩, ⟨0x5410, "TIOCSPGRP"⟩,
   ⟨0x5411, "TIOCOUTQ"⟩, ⟨0x5412, "TIOCSTI"⟩, ⟨0x5413, "TIOCGWINSZ"⟩, ⟨0x5414, "TIOCSWINSZ"⟩,
   ⟨0x5415, "TIOCMGET"⟩, ⟨0x5416, "TIOCMBIS"⟩, ⟨0x5417, "TIOCMBIC"⟩, ⟨0x5418, "TIOCMSET"⟩,
   ⟨0x5419, "TIOCGSOFTCAR"⟩, ⟨0x541a, "TIOCSSOFTCAR"⟩, ⟨0x541b, "FIONREAD"⟩,
   ⟨0x541c, "TIOCLINUX"⟩, ⟨0x541d, "TIOCCONS"⟩, ⟨0x541e, "TIOCGSERIAL"⟩,
   ⟨0x541f, "TIOCSSERIAL"⟩, ⟨0x5420, "TIOCPKT"⟩, ⟨0x5421, "FIONBIO"⟩, ⟨0x5422, "TIOCNOTTY"⟩,
   ⟨0x5423, "TIOCSETD"⟩, ⟨0x5424, "TIOCGETD"⟩, ⟨0x5429, "TIOCGSID"⟩, ⟨0x80045430, "TIOCGPTN"⟩,
   ⟨0x40045431, "TIOCSPTLCK"⟩, ⟨0x5441, "TIOCGPTPEER"⟩, ⟨0x5450, "FIONCLEX"⟩,
   ⟨0x5451, "FIOCLEX"⟩, ⟨0x5452, "FIOASYNC"⟩]

def msgFlagTable : List FlagEntry :=
  [⟨1, "MSG_OOB"⟩, ⟨2, "MSG_PEEK"⟩, ⟨4, "MSG_DONTROUTE"⟩, ⟨8, "MSG_CTRUNC"⟩,
   ⟨0x20, "MSG_TRUNC"⟩, ⟨0x40, "MSG_DONTWAIT"⟩, ⟨0x80, "MSG_EOR"⟩, ⟨0x100, "MSG_WAITALL"⟩,
   ⟨0x800, "MSG_CONFIRM"⟩, ⟨0x2000, "MSG_ERRQUEUE"⟩, ⟨0x4000, "MSG_NOSIGNAL"⟩,
   ⟨0x8000, "MSG_MORE"⟩, ⟨0x40000000, "MSG_CMSG_CLOEXEC"⟩]

def sigactionFlagTable : List FlagEntry :=
  [⟨1, "SA_NOCLDSTOP"⟩, ⟨2, "SA_NOCLDWAIT"⟩, ⟨4, "SA_SIGINFO"⟩, ⟨0x8000000, "SA_ONSTACK"⟩,
   ⟨0x10000000, "SA_RESTART"⟩, ⟨0x40000000, "SA_NODEFER"⟩, ⟨0x80000000, "SA_RESETHAND"⟩]

def epollOpTable : List FlagEntry :=
  [⟨1, "EPOLL_CTL_ADD"⟩, ⟨2, "EPOLL_CTL_DEL"⟩, ⟨3, "EPOLL_CTL_MOD"⟩]

def epollEventsFlagTable : List FlagEntry :=
  [⟨1, "EPOLLIN"⟩, ⟨4, "EPOLLOUT"⟩, ⟨2, "EPOLLPRI"⟩, ⟨8, "EPOLLERR"⟩, ⟨0x10, "EPOLLHUP"⟩,
   ⟨0x40, "EPOLLRDNORM"⟩, ⟨0x80, "EPOLLRDBAND"⟩, ⟨0x100, "EPOLLWRNORM"⟩,
   ⟨0x200, "EPOLLWRBAND"⟩, ⟨0x400, "EPOLLMSG"⟩, ⟨0x2000, "EPOLLRDHUP"⟩,
   ⟨0x10000000, "EPOLLEXCLUSIVE"⟩, ⟨0x20000000, "EPOLLWAKEUP"⟩, ⟨0x40000000, "EPOLLONESHOT"⟩,
   ⟨0x80000000, "EPOLLET"⟩]

def pollEventsFlagTable : List FlagEntry :=
  [⟨1, "POLLIN"⟩, ⟨2, "POLLPRI"⟩, ⟨4, "POLLOUT"⟩, ⟨8, "POLLERR"⟩, ⟨0x10, "POLLHUP"⟩,
   ⟨0x20, "POLLNVAL"⟩, ⟨0x40, "POLLRDNORM"⟩, ⟨0x80, "POLLRDBAND"⟩, ⟨0x100, "POLLWRNORM"⟩,
   ⟨0x200, "POLLWRBAND"⟩, ⟨0x2000, "POLLRDHUP"⟩]

def statxMaskTable : List FlagEntry :=
  [⟨0x7ff, "STATX_BASIC_STATS"⟩, ⟨1, "STATX_TYPE"⟩, ⟨2, "STATX_MODE"⟩, ⟨4, "STATX_NLINK"⟩,
   ⟨8, "STATX_UID"⟩, ⟨0x10, "STATX_GID"⟩, ⟨0x20, "STATX_ATIME"⟩, ⟨0x40, "STATX_MTIME"⟩,
   ⟨0x80, "STATX_CTIME"⟩, ⟨0x100, "STATX_INO"⟩, ⟨0x200, "STATX_SIZE"⟩, ⟨0x400, "STATX_BLOCKS"⟩,
   ⟨0x800, "STATX_BTIME"⟩, ⟨0x1000, "STATX_MNT_ID"⟩]

def sockoptLevelTable : List FlagEntry :=
  [⟨1, "SOL_SOCKET"⟩, ⟨0, "IPPROTO_IP"⟩, ⟨6, "IPPROTO_TCP"⟩, ⟨0x11, "IPPROTO_UDP"⟩,
   ⟨0x29, "IPPROTO_IPV6"⟩, ⟨1, "IPPROTO_ICMP"⟩, ⟨0xff, "SOL_RAW"⟩, ⟨0x107, "SOL_PACKET"⟩]

def sockoptOptnameSocketTable : List FlagEntry :=
  [⟨1, "SO_DEBUG"⟩, ⟨2, "SO_REUSEADDR"⟩, ⟨3, "SO_TYPE"⟩, ⟨4, "SO_ERROR"⟩, ⟨5, "SO_DONTROUTE"⟩,
   ⟨6, "SO_BROADCAST"⟩, ⟨7, "SO_SNDBUF"⟩, ⟨8, "SO_RCVBUF"⟩, ⟨9, "SO_KEEPALIVE"⟩,
   ⟨0xa, "SO_OOBINLINE"⟩, ⟨0xd, "SO_LINGER"⟩, ⟨0xf, "SO_REUSEPORT"⟩, ⟨0x14, "SO_RCVTIMEO"⟩,
   ⟨0x15, "SO_SNDTIMEO"⟩, ⟨0x1e, "SO_ACCEPTCONN"⟩, ⟨0x19, "SO_BINDTODEVICE"⟩,
   ⟨0x1d, "SO_TIMESTAMP"⟩, ⟨0x10, "SO_PASSCRED"⟩, ⟨0x11, "SO_PEERCRED"⟩, ⟨0x12, "SO_RCVLOWAT"⟩,
   ⟨0x13, "SO_SNDLOWAT"⟩]

def sockoptOptnameTcpTable : List FlagEntry :=
  [⟨1, "TCP_NODELAY"⟩, ⟨2, "TCP_MAXSEG"⟩, ⟨3, "TCP_CORK"⟩, ⟨4, "TCP_KEEPIDLE"⟩,
   ⟨5, "TCP_KEEPINTVL"⟩, ⟨6, "TCP_KEEPCNT"⟩, ⟨7, "TCP_SYNCNT"⟩, ⟨0xc, "TCP_QUICKACK"⟩,
   ⟨0x12, "TCP_USER_TIMEOUT"⟩, ⟨0xb, "TCP_INFO"⟩, ⟨9, "TCP_DEFER_ACCEPT"⟩]

def prctlOptionTable : List FlagEntry :=
  [⟨1, "PR_SET_PDEATHSIG"⟩, ⟨2, "PR_GET_PDEATHSIG"⟩, ⟨3, "PR_GET_DUMPABLE"⟩,
   ⟨4, "PR_SET_DUMPABLE"⟩, ⟨5, "PR_GET_UNALIGN"⟩, ⟨6, "PR_SET_UNALIGN"⟩,
   ⟨7, "PR_GET_KEEPCAPS"⟩, ⟨8, "PR_SET_KEEPCAPS"⟩, ⟨0xf, "PR_SET_NAME"⟩, ⟨0x10, "PR_GET_NAME"⟩,
   ⟨0x13, "PR_GET_ENDIAN"⟩, ⟨0x14, "PR_SET_ENDIAN"⟩, ⟨0x15, "PR_GET_SECCOMP"⟩,
   ⟨0x16, "PR_SET_SECCOMP"⟩, ⟨0x17, "PR_CAPBSET_READ"⟩, ⟨0x18, "PR_CAPBSET_DROP"⟩,
   ⟨0x19, "PR_GET_TSC"⟩, ⟨0x1a, "PR_SET_TSC"⟩, ⟨0x1b, "PR_GET_SECUREBITS"⟩,
   ⟨0x1c, "PR_SET_SECUREBITS"⟩, ⟨0x1d, "PR_SET_TIMERSLACK"⟩, ⟨0x1e, "PR_GET_TIMERSLACK"⟩,
   ⟨0x1f, "PR_TASK_PERF_EVENTS_DISABLE"⟩, ⟨0x20, "PR_TASK_PERF_EVENTS_ENABLE"⟩,
   ⟨0x21, "PR_MCE_KILL"⟩, ⟨0x22, "PR_MCE_KILL_GET"⟩, ⟨0x23, "PR_SET_MM"⟩,
   ⟨0x59616d61, "PR_SET_PTRACER"⟩, ⟨0x24, "PR_SET_CHILD_SUBREAPER"⟩,
   ⟨0x25, "PR_GET_CHILD_SUBREAPER"⟩, ⟨0x26, "PR_SET_NO_NEW_PRIVS"⟩,
   ⟨0x27, "PR_GET_NO_NEW_PRIVS"⟩, ⟨0x28, "PR_GET_TID_ADDRESS"⟩, ⟨0x29, "PR_SET_THP_DISABLE"⟩,
   ⟨0x2a, "PR_GET_THP_DISABLE"⟩, ⟨0x2f, "PR_CAP_AMBIENT"⟩, ⟨0x35, "PR_SET_SPECULATION_CTRL"⟩,
   ⟨0x34, "PR_GET_SPECULATION_CTRL"⟩, ⟨0x39, "PR_SET_IO_FLUSHER"⟩, ⟨0x3a, "PR_GET_IO_FLUSHER"⟩,
   ⟨0x37, "PR_SET_TAGGED_ADDR_CTRL"⟩, ⟨0x38, "PR_GET_TAGGED_ADDR_CTRL"⟩,
   ⟨0x3b, "PR_SET_SYSCALL_USER_DISPATCH"⟩]

def atFlagTable : List FlagEntry :=
  [⟨0x100, "AT_SYMLINK_NOFOLLOW"⟩, ⟨0x400, "AT_SYMLINK_FOLLOW"⟩, ⟨0x800, "AT_NO_AUTOMOUNT"⟩,
   ⟨0x1000, "AT_EMPTY_PATH"⟩, ⟨0x2000, "AT_STATX_FORCE_SYNC"⟩, ⟨0x4000, "AT_STATX_DONT_SYNC"⟩,
   ⟨0x8000, "AT_RECURSIVE"⟩]

def pipe2FlagTable : List FlagEntry :=
  [⟨0x80000, "O_CLOEXEC"⟩, ⟨0x800, "O_NONBLOCK"⟩, ⟨0x4000, "O_DIRECT"⟩]

def getrandomFlagTable : List FlagEntry :=
  [⟨1, "GRND_NONBLOCK"⟩, ⟨2, "GRND_RANDOM"⟩, ⟨4, "GRND_INSECURE"⟩]

def flockOpTable : List FlagEntry :=
  [⟨1, "LOCK_SH"⟩, ⟨2, "LOCK_EX"⟩, ⟨8, "LOCK_UN"⟩, ⟨4, "LOCK_NB"⟩]

def madviseAdviceTable : List FlagEntry :=
  [⟨0, "MADV_NORMAL"⟩, ⟨1, "MADV_RANDOM"⟩, ⟨2, "MADV_SEQUENTIAL"⟩, ⟨3, "MADV_WILLNEED"⟩,
   ⟨4, "MADV_DONTNEED"⟩, ⟨8, "MADV_FREE"⟩, ⟨9, "MADV_REMOVE"⟩, ⟨0xa, "MADV_DONTFORK"⟩,
   ⟨0xb, "MADV_DOFORK"⟩, ⟨0xc, "MADV_MERGEABLE"⟩, ⟨0xd, "MADV_UNMERGEABLE"⟩,
   ⟨0xe, "MADV_HUGEPAGE"⟩, ⟨0xf, "MADV_NOHUGEPAGE"⟩, ⟨0x10, "MADV_DONTDUMP"⟩,
   ⟨0x11, "MADV_DODUMP"⟩, ⟨0x12, "MADV_WIPEONFORK"⟩, ⟨0x13, "MADV_KEEPONFORK"⟩,
   ⟨0x14, "MADV_COLD"⟩, ⟨0x15, "MADV_PAGEOUT"⟩, ⟨0x64, "MADV_HWPOISON"⟩]

def futexCmdTable : List FlagEntry :=
  [⟨0, "FUTEX_WAIT"⟩, ⟨1, "FUTEX_WAKE"⟩, ⟨2, "FUTEX_FD"⟩, ⟨3, "FUTEX_REQUEUE"⟩,
   ⟨4, "FUTEX_CMP_REQUEUE"⟩, ⟨5, "FUTEX_WAKE_OP"⟩, ⟨6, "FUTEX_LOCK_PI"⟩,
   ⟨7, "FUTEX_UNLOCK_PI"⟩, ⟨8, "FUTEX_TRYLOCK_PI"⟩, ⟨9, "FUTEX_WAIT_BITSET"⟩,
   ⟨0xa, "FUTEX_WAKE_BITSET"⟩, ⟨0xb, "FUTEX_WAIT_REQUEUE_PI"⟩, ⟨0xc, "FUTEX_CMP_REQUEUE_PI"⟩,
   ⟨0xd, "FUTEX_LOCK_PI2"⟩]

def renameat2FlagTable : List FlagEntry :=
  [⟨1, "RENAME_NOREPLACE"⟩, ⟨2, "RENAME_EXCHANGE"⟩, ⟨4, "RENAME_WHITEOUT"⟩]

def mremapFlagTable : List FlagEntry :=
  [⟨1, "MREMAP_MAYMOVE"⟩, ⟨2, "MREMAP_FIXED"⟩, ⟨4, "MREMAP_DONTUNMAP"⟩]

def memfdFlagTable : List FlagEntry :=
  [⟨1, "MFD_CLOEXEC"⟩, ⟨2, "MFD_ALLOW_SEALING"⟩, ⟨4, "MFD_HUGETLB"⟩]

def eventfdFlagTable : List FlagEntry :=
  [⟨1, "EFD_SEMAPHORE"⟩, ⟨0x80000, "EFD_CLOEXEC"⟩, ⟨0x800, "EFD_NONBLOCK"⟩]

def wait4OptionsTable : List FlagEntry :=
  [⟨1, "WNOHANG"⟩, ⟨2, "WUNTRACED"⟩, ⟨8, "WCONTINUED"⟩, ⟨0x1000000, "WNOWAIT"⟩,
   ⟨0x20000000, "__WNOTHREAD"⟩, ⟨0x40000000, "__WALL"⟩, ⟨0x80000000, "__WCLONE"⟩]

def waitidOptionsTable : List FlagEntry :=
  [⟨1, "WNOHANG"⟩, ⟨2, "WSTOPPED"⟩, ⟨4, "WEXITED"⟩, ⟨8, "WCONTINUED"⟩, ⟨0x1000000, "WNOWAIT"⟩,
   ⟨0x20000000, "__WNOTHREAD"⟩, ⟨0x40000000, "__WALL"⟩, ⟨0x80000000, "__WCLONE"⟩]

def waitidIdtypeTable : List FlagEntry :=
  [⟨0, "P_ALL"⟩, ⟨1, "P_PID"⟩, ⟨2, "P_PGID"⟩, ⟨3, "P_PIDFD"⟩]

def schedPolicyTable : List FlagEntry :=
  [⟨0, "SCHED_OTHER"⟩, ⟨1, "SCHED_FIFO"⟩, ⟨2, "SCHED_RR"⟩, ⟨3, "SCHED_BATCH"⟩,
   ⟨5, "SCHED_IDLE"⟩, ⟨6, "SCHED_DEADLINE"⟩]

def rlimitResourceTable : List FlagEntry :=
  [⟨0, "RLIMIT_CPU"⟩, ⟨1, "RLIMIT_FSIZE"⟩, ⟨2, "RLIMIT_DATA"⟩, ⟨3, "RLIMIT_STACK"⟩,
   ⟨4, "RLIMIT_CORE"⟩, ⟨5, "RLIMIT_RSS"⟩, ⟨6, "RLIMIT_NPROC"⟩, ⟨7, "RLIMIT_NOFILE"⟩,
   ⟨8, "RLIMIT_MEMLOCK"⟩, ⟨9, "RLIMIT_AS"⟩, ⟨0xa, "RLIMIT_LOCKS"⟩, ⟨0xb, "RLIMIT_SIGPENDING"⟩,
   ⟨0xc, "RLIMIT_MSGQUEUE"⟩, ⟨0xd, "RLIMIT_NICE"⟩, ⟨0xe, "RLIMIT_RTPRIO"⟩,
   ⟨0xf, "RLIMIT_RTTIME"⟩]

end MiniStrace
