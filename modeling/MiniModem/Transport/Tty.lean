import Mathlib.Data.Int.Notation
import MiniModem.Lib.LittleEndian

/-!
# Descriptors and system calls

`include/transport/tty.hpp` and the constants of `<sys/epoll.h>`. A system call takes its outcome from a
script that stands for the kernel and the peer; a call beyond the end of its script reports `EAGAIN`.
-/

namespace MiniModem.Transport
open Lib

/-- A file descriptor. -/
abbrev Fd := ℤ

/-- The owner of a descriptor; `-1` is no descriptor. -/
structure Tty where
  fd : Fd := -1
  deriving DecidableEq, Repr

/-- What `read` reports: the bytes read (none at the end of the file), or the error. -/
inductive ReadResult
  | bytes (data : Bytes)
  | eintr
  | eagain
  | error
  deriving DecidableEq, Repr

/-- What `write` finds: room for so many bytes, of which it takes what it was given, or an error. -/
inductive WriteResult
  | room (bytes : ℕ)
  | eintr
  | eagain
  | error
  deriving DecidableEq, Repr

/-- A set of epoll events. -/
abbrev Events := UInt32

/-- There is something to read. -/
def EPOLLIN : Events := 0x001
/-- There is room to write. -/
def EPOLLOUT : Events := 0x004
/-- There is an error. -/
def EPOLLERR : Events := 0x008
/-- The peer has hung up. -/
def EPOLLHUP : Events := 0x010

/-- `events & flags`, as a condition. -/
def has (events flags : Events) : Bool := events &&& flags != 0

/-- The events a session always waits for. -/
def sessionEvents : Events := EPOLLIN ||| EPOLLHUP ||| EPOLLERR

/-- Sessions do not ask for room at first. -/
@[simp] lemma has_sessionEvents : has sessionEvents EPOLLOUT = false := by decide

/-- They do when they have output. -/
@[simp] lemma has_sessionEvents_or : has (sessionEvents ||| EPOLLOUT) EPOLLOUT = true := by decide

end MiniModem.Transport
