import CcMuduo.Foundation.Decimal
import Mathlib.Data.Int.Notation

/-!
# The pool of I/O loops

`start` creates one thread with its loop for each configured worker, and `getNextLoop` hands the loops
out in turn. `setTheadNum` assigns the member to its parameter instead of the parameter to the member,
so the configured number stays what the constructor made it.
-/

namespace CcMuduo

open Foundation

/-- A thread of the pool: its name, its loop, and whether it was given an initialisation callback. -/
structure WorkerThread (L : Type*) where
  name : List Char
  loop : L
  callback : Bool
  deriving DecidableEq, Repr

/-- `EventLoopThreadPoll`, with the loops as values of a type. -/
structure EventLoopThreadPoll (L : Type*) where
  baseloop : L
  name : List Char
  started : Bool
  numThreads : ℤ
  next : ℕ
  threads : List (WorkerThread L)
  loops : List L
  deriving DecidableEq

namespace EventLoopThreadPoll

variable {L : Type*}

/-- The pool its constructor builds. -/
def constructed (baseloop : L) (nameArg : List Char) : EventLoopThreadPoll L where
  baseloop := baseloop
  name := nameArg
  started := false
  numThreads := 0
  next := 0
  threads := []
  loops := []

variable (p : EventLoopThreadPoll L)

/-- `setTheadNum`: the assignment changes the parameter. -/
def setTheadNum (_numThreads : ℤ) : EventLoopThreadPoll L :=
  let _numThreads := p.numThreads
  p

/-- One round of the loop in `start`; `spawn k` is the loop that the `k`-th thread puts up. -/
def startThread (cb : Bool) (spawn : ℕ → L) (i : ℕ) : EventLoopThreadPoll L :=
  let buf := (p.name ++ decimal i).take (p.name.length + 31)
  let loop := spawn p.threads.length
  { p with
    threads := p.threads ++ [⟨buf, loop, cb⟩]
    loops := p.loops ++ [loop] }

/-- `start`, with the loop it runs the callback on itself: the base loop, when there are no workers. -/
def start (cb : Bool) (spawn : ℕ → L) : EventLoopThreadPoll L × Option L :=
  let p₁ := (List.range p.numThreads.toNat).foldl (fun q i => q.startThread cb spawn i)
    { p with started := true }
  (p₁, if p.numThreads = 0 ∧ cb then some p.baseloop else none)

/-- `getNextLoop`; an index outside `loops` is undefined. -/
def getNextLoop : Option (L × EventLoopThreadPoll L) :=
  if p.loops.isEmpty then some (p.baseloop, p)
  else p.loops[p.next]?.map fun loop =>
    (loop, { p with next := if p.loops.length ≤ p.next + 1 then 0 else p.next + 1 })

/-- The loops that the next `m` calls of `getNextLoop` return. -/
def nextLoops : ℕ → EventLoopThreadPoll L → Option (List L)
  | 0, _ => some []
  | m + 1, p => p.getNextLoop.bind fun r => (nextLoops m r.2).map (r.1 :: ·)

variable {p}

/-- The setter leaves the pool as it is. -/
@[simp] theorem setTheadNum_eq (n : ℤ) : p.setTheadNum n = p := rfl

/-- The threads and loops that `start` has added after `n` rounds. -/
theorem foldl_startThread (cb : Bool) (spawn : ℕ → L) (n : ℕ) :
    let q := (List.range n).foldl (fun q i => q.startThread cb spawn i) p
    q.threads.length = p.threads.length + n ∧
      q.loops = p.loops ++ (List.range n).map (fun i => spawn (p.threads.length + i)) ∧
      q.next = p.next ∧ q.baseloop = p.baseloop ∧ q.numThreads = p.numThreads := by
  induction n with
  | zero => simp
  | succ n ih =>
    obtain ⟨hthreads, hloops, hnext, hbase, hnum⟩ := ih
    have hrange : List.range (n + 1) = List.range n ++ [n] := List.range_succ
    rw [hrange, List.foldl_append, List.foldl_cons, List.foldl_nil]
    refine ⟨?_, ?_, hnext, hbase, hnum⟩
    · rw [startThread, List.length_append, hthreads, List.length_singleton, Nat.add_assoc]
    · rw [startThread, hloops, hthreads, List.append_assoc, List.map_append]
      rfl

/-- A first `start` gives the pool as many workers as `numThreads_` says. -/
theorem start_loops (cb : Bool) (spawn : ℕ → L) (hthreads : p.threads = []) (hloops : p.loops = []) :
    (p.start cb spawn).1.loops = (List.range p.numThreads.toNat).map spawn := by
  obtain ⟨-, h, -⟩ := foldl_startThread (p := { p with started := true }) cb spawn p.numThreads.toNat
  simpa [start, hthreads, hloops] using h

/-- The loops of a call and of the ones behind it. -/
theorem nextLoops_succ {loop : L} {p' : EventLoopThreadPoll L}
    (h : p.getNextLoop = some (loop, p')) (m : ℕ) :
    p.nextLoops (m + 1) = (p'.nextLoops m).map (loop :: ·) := by
  rw [nextLoops, h, Option.bind_some]

/-- Without workers every call returns the base loop. -/
theorem nextLoops_of_empty (hloops : p.loops = []) (m : ℕ) :
    p.nextLoops m = some (List.replicate m p.baseloop) := by
  induction m with
  | zero => rfl
  | succ m ih =>
    have hnext : p.getNextLoop = some (p.baseloop, p) := by rw [getNextLoop, hloops]; rfl
    rw [nextLoops_succ hnext, ih]
    rfl

/-- With workers a call returns the loop at the index and moves the index round. -/
theorem getNextLoop_eq (hnext : p.next < p.loops.length) :
    p.getNextLoop = some (p.loops[p.next], { p with next := (p.next + 1) % p.loops.length }) := by
  have hempty : p.loops.isEmpty = false := by
    rw [List.isEmpty_eq_false_iff_exists_mem]
    exact ⟨_, List.getElem_mem hnext⟩
  have hwrap : (if p.loops.length ≤ p.next + 1 then 0 else p.next + 1) =
      (p.next + 1) % p.loops.length := by
    split
    · have heq : p.next + 1 = p.loops.length := by omega
      rw [heq, Nat.mod_self]
    · rw [Nat.mod_eq_of_lt (by omega)]
  rw [getNextLoop, hempty, hwrap]
  simp [List.getElem?_eq_getElem hnext]

/-- With workers the calls go round: the `i`-th one returns the loop `i` places behind the index. -/
theorem nextLoops_roundRobin (hnext : p.next < p.loops.length) (m : ℕ) :
    ∃ given, p.nextLoops m = some given ∧ given.length = m ∧
      ∀ i < m, given[i]? = p.loops[(p.next + i) % p.loops.length]? := by
  induction m generalizing p with
  | zero => exact ⟨[], rfl, rfl, fun i hi => absurd hi (Nat.not_lt_zero i)⟩
  | succ m ih =>
    have hpos : 0 < p.loops.length := Nat.zero_lt_of_lt hnext
    obtain ⟨given, hgiven, hlen, hall⟩ := ih
      (p := { p with next := (p.next + 1) % p.loops.length }) (Nat.mod_lt _ hpos)
    refine ⟨p.loops[p.next] :: given, ?_, by rw [List.length_cons, hlen], fun i hi => ?_⟩
    · rw [nextLoops_succ (getNextLoop_eq hnext), hgiven]
      rfl
    · cases i with
      | zero => simp [Nat.mod_eq_of_lt hnext, List.getElem?_eq_getElem hnext]
      | succ i =>
        have hi' := hall i (Nat.lt_of_succ_lt_succ hi)
        simp only [Nat.mod_add_mod] at hi'
        rw [List.getElem?_cons_succ, hi', Nat.add_assoc, Nat.add_comm 1 i]

end EventLoopThreadPoll

end CcMuduo
