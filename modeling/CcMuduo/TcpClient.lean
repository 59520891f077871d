import CcMuduo.Connector

/-!
# The client

`TcpClient` over its connector, called on the loop thread. `isInLoopThread()` is then true, so `connect`
runs `startInLoop` at once. A connection is closed at any time at which user code runs: by an event, by
a failed `send`, also inside the callback for the new connection.

Of the connection only `connection_` matters to the connector, so the functors of the connection and
`shutdown` are left out.
-/

namespace CcMuduo

open Foundation

/-- A client on its loop. `connection_` says whether the pointer is set. -/
structure TcpClient where
  connector : ConnectorLoop
  retry_ : Bool
  connect_ : Bool
  connection_ : Bool

/-- A call on the client, the closing of its connection, or a step of the loop thread. -/
inductive ClientLabel where
  | connect (a : SystemAnswers)
  | disconnect
  | stop
  | enableRetry
  | removeConnection (a : SystemAnswers)
  | loop (label : ConnectorLabel)

/-- Is it a step of the loop thread or of the loop itself? -/
def ConnectorLabel.ofLoop : ConnectorLabel → Bool
  | .move _ _ | .poll _ | .handleEvent _ | .fire _ _ | .quit => true
  | .startStore | .startRun _ _ | .stopStore | .stopQueue | .restart _ => false

/-- How many sockets were handed over. -/
def handOvers (log : List SocketAction) : ℕ :=
  log.countP fun action => match action with
    | .handOver _ => true
    | .attempt | .socket _ | .epollCtl _ _ | .close _ => false

namespace TcpClient

/-- The client behind its constructor. -/
def constructed : TcpClient := ⟨.constructed, false, true, false⟩

variable (c : TcpClient)

/-- `connector_->start()` on the loop thread. -/
def start (a : SystemAnswers) : Option ConnectorLoop :=
  (c.connector.step .startStore).bind fun s => s.step (.startRun true a)

/-- `connector_->stop()`. -/
def stopConnector : Option ConnectorLoop :=
  (c.connector.step .stopStore).bind fun s => s.step .stopQueue

/-- One step of a process that has not ended. `newConnection` sets `connection_` when the connector hands
a socket over. -/
def step (c : TcpClient) (label : ClientLabel) : Option TcpClient :=
  if c.connector.fault ≠ none then none
  else match label with
    | .connect a =>
      if c.connector.loop.inUserCode then
        (c.start a).map fun s => { c with connector := s, connect_ := true }
      else none
    | .disconnect => if c.connector.loop.inUserCode then some { c with connect_ := false } else none
    | .stop =>
      if c.connector.loop.inUserCode then
        c.stopConnector.map fun s => { c with connector := s, connect_ := false }
      else none
    | .enableRetry => some { c with retry_ := true }
    | .removeConnection a =>
      if c.connection_ && c.connector.loop.inUserCode then
        let c₁ := { c with connection_ := false }
        if c.retry_ && c.connect_ then
          (c.connector.step (.restart a)).map fun s => { c₁ with connector := s }
        else some c₁
      else none
    | .loop label =>
      if label.ofLoop then
        (c.connector.step label).map fun s =>
          { c with
            connector := s
            connection_ := c.connection_ || handOvers s.log != handOvers c.connector.log }
      else none

end TcpClient

end CcMuduo
