import Mathlib.Logic.Function.Basic
import Mathlib.Order.Nat

/-!
# The cached thread id

`CurrentThread::tid()` answers from a thread-local cache that `cacheTid` is meant to fill at the
first call. The cache starts at `0`, and the test in `cacheTid` is an assignment of `0`, so the cache
is never filled and every thread has the id `0`.
-/

namespace CcMuduo

/-- The kernel's side of thread identity: `gettid` tells the live threads apart, `getgid` is the group
id of the process. -/
structure Kernel (T : Type*) where
  gettid : T → ℕ
  getgid : ℕ
  gettid_ne_zero : ∀ t, gettid t ≠ 0
  gettid_injective : Function.Injective gettid

namespace CurrentThread

variable {T : Type*} (k : Kernel T)

/-- `cacheTid` on the cached value: the condition `t_cachedTid=0` stores `0` and tests it. -/
def cacheTid (_cachedTid : ℕ) : ℕ :=
  let cachedTid := 0
  if cachedTid ≠ 0 then k.getgid else cachedTid

/-- `tid()` on the cached value: the new cached value, which is also the answer. -/
def tid (cachedTid : ℕ) : ℕ := if cachedTid = 0 then cacheTid k cachedTid else cachedTid

/-- An empty cache stays empty, and the answer is `0` on every thread. -/
@[simp] theorem tid_zero : tid k 0 = 0 := rfl

end CurrentThread

end CcMuduo
