import CcMuduo.EventLoopThreadPoll
import CcMuduo.InetAddress
import Mathlib.Algebra.Group.Nat.Defs
import Mathlib.Logic.Function.Basic

/-!
# The server's own records

What `TcpServer` keeps itself: the pool, the count of its starts, the number of the next connection and
the map of connections by name. A connection is known here by its number. `newConnection` and
`removeConnectionInLoop` are the parts of these functions that touch the records; the rest of them is in
the system of the server and its loops.
-/

namespace CcMuduo

open Foundation

/-- `TcpServer`. `listening` is the acceptor's. -/
structure TcpServer (L : Type*) where
  loop : L
  ipPort : List Char
  name : List Char
  threadPool : EventLoopThreadPoll L
  started : BitVec 32
  listening : Bool
  nextConnId : ℕ
  connections : List Char → Option ℕ

namespace TcpServer

variable {L : Type*}

/-- The server its constructor builds. -/
def constructed (loop : L) (listenAddr : InetAddress) (nameArg : List Char) : TcpServer L where
  loop := loop
  ipPort := listenAddr.toIpPort
  name := nameArg
  threadPool := .constructed loop nameArg
  started := 0
  listening := false
  nextConnId := 1
  connections _ := none

variable (s : TcpServer L)

/-- `setThreadNum`. -/
def setThreadNum (numThreads : ℤ) : TcpServer L :=
  { s with threadPool := s.threadPool.setTheadNum numThreads }

/-- `start`, with `started_++`; `cb` says whether a callback for new loops is set. -/
def start (cb : Bool) (spawn : ℕ → L) : TcpServer L :=
  if s.started = 0 then
    { s with
      started := s.started + 1
      threadPool := (s.threadPool.start cb spawn).1
      listening := true }
  else { s with started := s.started + 1 }

/-- The part of a connection's name that `snprintf` writes into `buf`. -/
def buf (connId : ℕ) : List Char := ('-' :: s.ipPort ++ '#' :: decimal connId).take 63

/-- The name of the connection with a number. -/
def connName (connId : ℕ) : List Char := s.name ++ s.buf connId

/-- `newConnection` up to the entry in the map: the loop, the name and the number of the connection. -/
def newConnection : Option (L × List Char × ℕ × TcpServer L) :=
  s.threadPool.getNextLoop.map fun (ioLoop, pool) =>
    (ioLoop, s.connName s.nextConnId, s.nextConnId, { s with
      threadPool := pool
      nextConnId := s.nextConnId + 1
      connections := Function.update s.connections (s.connName s.nextConnId) (some s.nextConnId) })

/-- The erasure in `removeConnectionInLoop`. -/
def erase (connName : List Char) : TcpServer L :=
  { s with connections := Function.update s.connections connName none }

variable {s}

/-- With a dotted quad in front of it, a number of an `int` is never cut off. -/
theorem buf_eq (hip : s.ipPort.length ≤ 15) {connId : ℕ} (hid : connId < 2 ^ 31) :
    s.buf connId = '-' :: s.ipPort ++ '#' :: decimal connId := by
  have hdigits : (decimal connId).length ≤ 10 := decimal_length_le (by decide) (by omega)
  apply List.take_of_length_le
  simp only [List.length_append, List.length_cons]
  omega

/-- Connections with different numbers have different names. -/
theorem connName_injective (hip : s.ipPort.length ≤ 15) {c d : ℕ} (hc : c < 2 ^ 31) (hd : d < 2 ^ 31)
    (h : s.connName c = s.connName d) : c = d := by
  have hbuf : s.buf c = s.buf d := List.append_cancel_left h
  rw [buf_eq hip hc, buf_eq hip hd] at hbuf
  have htail : '#' :: decimal c = '#' :: decimal d := List.append_cancel_left hbuf
  exact decimal_injective (List.cons.inj htail).2

end TcpServer

end CcMuduo
