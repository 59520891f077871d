import CcMuduo.TcpServer
import Mathlib.Logic.Function.Iterate

/-!
# Spreading connections over the loops

`setThreadNum` should give the pool its workers, and `newConnection` should hand them the connections in
turn. A pool that was told a number of workers does go round them, but the number never reaches the pool:
it stays without workers, and every connection is given to the base loop.
-/

namespace CcMuduo

namespace TcpServer

variable {L : Type*}

/-- The loops that the next `m` accepted connections are given to. -/
def accepted : ℕ → TcpServer L → Option (List L)
  | 0, _ => some []
  | m + 1, s => s.newConnection.bind fun r => (accepted m r.2.2.2).map (r.1 :: ·)

/-- A server behind `setThreadNum` and some calls of `start`. -/
def configured (s : TcpServer L) (numThreads : ℤ) (starts : ℕ) (cb : Bool) (spawn : ℕ → L) :
    TcpServer L :=
  (fun s : TcpServer L => s.start cb spawn)^[starts] (s.setThreadNum numThreads)

/-- The pool owns `n` workers, and of the next `m` connections the `i`-th is given to worker `i` modulo
`n`. -/
structure SpreadsEvenly (s : TcpServer L) (n m : ℕ) : Prop where
  workers : s.threadPool.loops.length = n
  turns : ∃ given, s.accepted m = some given ∧ given.length = m ∧
    ∀ i < m, given[i]? = s.threadPool.loops[i % n]?

/-- The loops of accepted connections are the ones the pool returns. -/
theorem accepted_eq (s : TcpServer L) (m : ℕ) : s.accepted m = s.threadPool.nextLoops m := by
  induction m generalizing s with
  | zero => rfl
  | succ m ih =>
    rw [accepted, EventLoopThreadPoll.nextLoops, newConnection]
    cases hnext : s.threadPool.getNextLoop with
    | none => rfl
    | some r =>
      rw [Option.map_some, Option.bind_some, Option.bind_some, ih]

/-- A server whose pool was told a number of workers before its first start spreads connections
evenly. -/
theorem start_spreadsEvenly {s : TcpServer L} {n : ℕ} (hn : 0 < n) (hstarted : s.started = 0)
    (hnum : s.threadPool.numThreads = n) (hnext : s.threadPool.next = 0)
    (hthreads : s.threadPool.threads = []) (hloops : s.threadPool.loops = []) (cb : Bool)
    (spawn : ℕ → L) (m : ℕ) : (s.start cb spawn).SpreadsEvenly n m := by
  have hstart : (s.start cb spawn).threadPool = (s.threadPool.start cb spawn).1 := by
    rw [start, if_pos hstarted]
  have hpool : (s.start cb spawn).threadPool.loops = (List.range n).map spawn := by
    rw [hstart, EventLoopThreadPoll.start_loops cb spawn hthreads hloops, hnum, Int.toNat_natCast]
  have hlen : (s.start cb spawn).threadPool.loops.length = n := by
    rw [hpool, List.length_map, List.length_range]
  have hfirst : (s.start cb spawn).threadPool.next = 0 := by
    obtain ⟨-, -, h, -⟩ := EventLoopThreadPoll.foldl_startThread
      (p := { s.threadPool with started := true }) cb spawn s.threadPool.numThreads.toNat
    rw [hstart]
    exact h.trans hnext
  refine ⟨hlen, ?_⟩
  obtain ⟨given, hgiven, hlength, hall⟩ := EventLoopThreadPoll.nextLoops_roundRobin
    (p := (s.start cb spawn).threadPool) (by omega) m
  refine ⟨given, (accepted_eq _ m).trans hgiven, hlength, fun i hi => ?_⟩
  rw [hall i hi, hfirst, hlen, Nat.zero_add]

/-- A start without a number of workers changes nothing but the record that there was one. -/
theorem start_without_workers {s : TcpServer L} (hnum : s.threadPool.numThreads = 0) (cb : Bool)
    (spawn : ℕ → L) : (s.start cb spawn).threadPool.loops = s.threadPool.loops ∧
      (s.start cb spawn).threadPool.baseloop = s.threadPool.baseloop ∧
      (s.start cb spawn).threadPool.numThreads = 0 := by
  unfold start
  split
  · simp [EventLoopThreadPoll.start, hnum]
  · exact ⟨rfl, rfl, hnum⟩

/-- No number of starts gives workers to a pool that was told none. -/
theorem configured_pool (loop : L) (listenAddr : InetAddress) (nameArg : List Char) (numThreads : ℤ)
    (starts : ℕ) (cb : Bool) (spawn : ℕ → L) :
    let s := (constructed loop listenAddr nameArg).configured numThreads starts cb spawn
    s.threadPool.loops = [] ∧ s.threadPool.baseloop = loop ∧ s.threadPool.numThreads = 0 := by
  induction starts with
  | zero => exact ⟨rfl, rfl, rfl⟩
  | succ starts ih =>
    obtain ⟨hloops, hbase, hnum⟩ := ih
    rw [configured, Function.iterate_succ_apply']
    obtain ⟨hloops', hbase', hnum'⟩ := start_without_workers hnum cb spawn
    exact ⟨hloops'.trans hloops, hbase'.trans hbase, hnum'⟩

end TcpServer

/-- However many threads a server is told to use, and however often it is started, its pool owns no
worker, and every connection it accepts is given to the base loop. -/
theorem setThreadNum_without_effect {L : Type*} (loop : L) (listenAddr : InetAddress)
    (nameArg : List Char) (n starts : ℕ) (cb : Bool) (spawn : ℕ → L) (m : ℕ) (hn : 1 ≤ n) :
    let s := (TcpServer.constructed loop listenAddr nameArg).configured n starts cb spawn
    ¬ s.SpreadsEvenly n m ∧ s.accepted m = some (List.replicate m loop) := by
  obtain ⟨hloops, hbase, -⟩ :=
    TcpServer.configured_pool loop listenAddr nameArg n starts cb spawn
  refine ⟨fun h => ?_, ?_⟩
  · have hzero := h.workers
    rw [hloops, List.length_nil] at hzero
    omega
  · rw [TcpServer.accepted_eq, EventLoopThreadPoll.nextLoops_of_empty hloops, hbase]

/-- A server that is told to use three threads. -/
theorem three_threads_without_effect :
    let s := (TcpServer.constructed 0 ⟨fun _ => 0, 8000⟩ []).configured 3 1 false (fun k => k + 1)
    ¬ s.SpreadsEvenly 3 4 ∧ s.accepted 4 = some (List.replicate 4 0) :=
  setThreadNum_without_effect 0 ⟨fun _ => 0, 8000⟩ [] 3 1 false (fun k => k + 1) 4 (by decide)

/-- One thread asked for, one start: the pool owns no loop. -/
theorem one_thread_not_started :
    ¬ ((TcpServer.constructed 0 ⟨fun _ => 0, 8000⟩ []).configured 1 1 false
      (fun k => k + 1)).SpreadsEvenly 1 1 := by
  intro h
  have hworkers := h.workers
  revert hworkers
  decide

end CcMuduo
