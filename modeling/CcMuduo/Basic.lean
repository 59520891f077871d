import CcMuduo.Foundation.Checked
import CcMuduo.Foundation.Word
import Mathlib.Data.Int.Notation
import Mathlib.Data.List.Basic
import Mathlib.Order.Nat

/-!
# What every component shares

The ways a call can leave the program's normal flow, `size_t` arithmetic, and the answers of the
system calls that move bytes.
-/

namespace CcMuduo

open Foundation

/-- How a call fails to return: an exception, an access outside a container, or `LOG_FATAL`. -/
inductive Fault where
  | lengthError
  | badAlloc
  | outOfBounds
  | fatal
  deriving DecidableEq, Repr

/-- `size_t` addition. -/
abbrev sizeAdd (a b : ℕ) : ℕ := wordAdd 64 a b

/-- `size_t` subtraction. -/
abbrev sizeSub (a b : ℕ) : ℕ := wordSub 64 a b

/-- `max_size()` of a vector of `char` and of a string. -/
def maxSize : ℕ := 2 ^ 63 - 1

/-- A value of `errno`. -/
abbrev Errno := ℕ

/-- The `errno` values the code names. -/
def EWOULDBLOCK : Errno := 11
@[inherit_doc EWOULDBLOCK] def EPIPE : Errno := 32
@[inherit_doc EWOULDBLOCK] def ECONNRESET : Errno := 104
@[inherit_doc EWOULDBLOCK] def EINTR : Errno := 4
@[inherit_doc EWOULDBLOCK] def EAGAIN : Errno := 11
@[inherit_doc EWOULDBLOCK] def EACCES : Errno := 13
@[inherit_doc EWOULDBLOCK] def EADDRINUSE : Errno := 98
@[inherit_doc EWOULDBLOCK] def EADDRNOTAVAIL : Errno := 99
@[inherit_doc EWOULDBLOCK] def ENETUNREACH : Errno := 101
@[inherit_doc EWOULDBLOCK] def EISCONN : Errno := 106
@[inherit_doc EWOULDBLOCK] def ECONNREFUSED : Errno := 111
@[inherit_doc EWOULDBLOCK] def EINPROGRESS : Errno := 115

/-- The answer of `::write`: how many bytes the kernel took, or the error. -/
inductive WriteResult where
  | accepted (n : ℕ)
  | failed (errno : Errno)
  deriving DecidableEq, Repr

/-- The answer of `::readv`: the bytes it stored, or the error. -/
inductive ReadResult where
  | received (bytes : List UInt8)
  | failed (errno : Errno)
  deriving DecidableEq, Repr

end CcMuduo
