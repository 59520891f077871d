import CcMuduo.EventLoop
import CcMuduo.Foundation.Memory
import CcMuduo.Foundation.Run
import CcMuduo.TcpConnection.Calls

/-!
# The bytes of a send on another thread

`send` takes its string by value. On the loop thread it gives the bytes to `sendInLoop` at once; on any
other thread it binds `buf.c_str()` and `buf.size()` into a functor, queues that, and returns, with which
the storage of `buf` is free. The functor then reads what lies there when it runs. So it sends the string
as far as nobody has stored other bytes in the storage of a send whose functor still waits.
-/

namespace CcMuduo

open Foundation

/-- A `std::string` with its bytes. -/
abbrev StdString := { bytes : List UInt8 // bytes.length ≤ maxSize }

/-- What `std::bind` keeps of a `send`: `data` is `buf.c_str()`. The string, for which the functor keeps
only `buf.size()`, is there for the statements. -/
structure BoundSend where
  data : ℕ
  buf : StdString

/-- `buf.size()`. -/
def BoundSend.size (f : BoundSend) : ℕ := f.buf.1.length

/-- The string with its terminating zero. -/
def StdString.storage (buf : StdString) : List UInt8 := buf.1 ++ [0]

/-- A connection and its loop, with the memory of the process. `sending` holds the calls of `send` on
other threads behind the test of the state, whose parameter lives, and whether they have queued their
functor. -/
structure BorrowedSends where
  io : Io
  loop : EventLoop Unit BoundSend
  memory : Memory
  sending : List (BoundSend × Bool)

/-- `otherSend` is the beginning of a `send` on another thread, with its parameter at `data`; then it
queues its functor and returns. `store` is a store of other code anywhere in the process. On the loop
thread, `functor` runs a functor, `move` is any other step of the loop, and `call` a call of user code. -/
inductive BorrowLabel where
  | otherSend (data : ℕ) (buf : StdString)
  | otherQueue (i : ℕ)
  | otherReturn (i : ℕ)
  | store (address : ℕ) (byte : UInt8)
  | move (m : EventLoop.Move)
  | functor (w : WriteResult) (log : ErrnoTrail)
  | call (c : ConnCall)

/-- The bytes that the step stores, with their address. -/
def BorrowLabel.stores : BorrowLabel → ℕ × List UInt8
  | .otherSend data buf => (data, buf.storage)
  | .store address byte => (address, [byte])
  | .otherQueue _ | .otherReturn _ | .move _ | .functor _ _ | .call _ => (0, [])

namespace BorrowedSends

/-- A connection whose loop has not begun. -/
def started (io : Io) (memory : Memory) : BorrowedSends := ⟨io, .constructed, memory, []⟩

variable (s : BorrowedSends)

/-- The storage does not meet that of a parameter that lives. -/
def free (address length : ℕ) : Bool :=
  s.sending.all fun (f, _) =>
    decide (address + length ≤ f.data ∨ f.data + f.buf.storage.length ≤ address)

/-- The bytes that the functor gives to `sendInLoop`. -/
def reads (f : BoundSend) : List UInt8 := s.memory.readBytes f.data f.size

/-- The message that the functor gives to `sendInLoop`. -/
def message (f : BoundSend) : Message where
  before := s.memory (f.data - 1)
  bytes := s.reads f
  fits := by
    have hlength : (s.reads f).length = f.buf.1.length := by
      simp [reads, Memory.readBytes, BoundSend.size]
    exact hlength ▸ f.buf.2

/-- The message that the string makes where its parameter lies. -/
def passed (f : BoundSend) : Message := ⟨s.memory (f.data - 1), f.buf.1, f.buf.2⟩

/-- The functors that were queued and have not run, in the order of their runs. -/
def waiting : List BoundSend := s.loop.waiting.map Prod.snd

/-- The functor that the step runs. -/
def runs : BorrowLabel → Option BoundSend
  | .functor _ _ => s.loop.nextFunctor.map Prod.snd
  | _ => none

/-- One step. -/
def step (s : BorrowedSends) : BorrowLabel → Option BorrowedSends
  | .otherSend data buf =>
    if 0 < data ∧ s.free data buf.storage.length then
      some { s with
        memory := s.memory.storeBytes data buf.storage
        sending := if s.io.conn.state = .kConnected then s.sending ++ [(⟨data, buf⟩, false)] else s.sending }
    else none
  | .otherQueue i =>
    match s.sending[i]? with
    | some (f, false) =>
      some { s with loop := s.loop.enqueue () f, sending := s.sending.set i (f, true) }
    | _ => none
  | .otherReturn i =>
    match s.sending[i]? with
    | some (_, true) => some { s with sending := s.sending.eraseIdx i }
    | _ => none
  | .store address byte =>
    if s.free address 1 then some { s with memory := s.memory.storeBytes address [byte] } else none
  | .move m => if m = .call then none else (s.loop.next m).map fun loop => { s with loop := loop }
  | .functor w log => do
    let (_, f) ← s.loop.nextFunctor
    let loop ← s.loop.next .call
    let io ← callStep s.io (.sendInLoop (s.message f) w log)
    return { s with loop := loop, io := io }
  | .call c =>
    if s.loop.inUserCode then (callStep s.io c).map fun io => { s with io := io } else none

/-- A functor gives `sendInLoop` the bytes of the string that its `send` was given. -/
def GivesPassed (s : BorrowedSends) (label : BorrowLabel) : Prop :=
  ∀ f ∈ s.runs label, s.reads f = f.buf.1

instance (s : BorrowedSends) (label : BorrowLabel) : Decidable (s.GivesPassed label) :=
  inferInstanceAs (Decidable (∀ f ∈ s.runs label, s.reads f = f.buf.1))

/-- A functor does to the connection what the loop thread does with the string: it is `sendInLoop` with
the string, and `send` with it while the state is `kConnected`. -/
def SameEffect (s : BorrowedSends) (label : BorrowLabel) : Prop :=
  ∀ w log, label = .functor w log → ∀ f ∈ s.runs label, ∀ s', s.step label = some s' →
    callStep s.io (.sendInLoop (s.passed f) w log) = some s'.io ∧
      (s.io.conn.state = .kConnected → callStep s.io (.send (s.passed f) w log) = some s'.io)

/-- The step stores no other bytes where a functor that waits will read. -/
def KeepsBytes (s : BorrowedSends) (label : BorrowLabel) : Prop :=
  ∀ f ∈ s.waiting,
    (s.memory.storeBytes label.stores.1 label.stores.2).readBytes f.data f.size = s.reads f

instance (s : BorrowedSends) (label : BorrowLabel) : Decidable (s.KeepsBytes label) :=
  inferInstanceAs (Decidable (∀ f ∈ s.waiting, _ = _))

/-- The strings of the calls that have not returned, and of the functors that wait, lie in memory. -/
structure BytesThere (s : BorrowedSends) : Prop where
  sending : ∀ e ∈ s.sending, s.reads e.1 = e.1.buf.1
  waiting : ∀ f ∈ s.waiting, s.reads f = f.buf.1

variable {s} {s' : BorrowedSends} {label : BorrowLabel}

/-- A store that is allowed leaves the parameters that live alone. -/
theorem reads_of_free {address : ℕ} {bytes : List UInt8} (hfree : s.free address bytes.length = true)
    {e : BoundSend × Bool} (he : e ∈ s.sending) :
    (s.memory.storeBytes address bytes).readBytes e.1.data e.1.size = s.reads e.1 := by
  have hapart := of_decide_eq_true (List.all_eq_true.mp hfree e he)
  refine Memory.readBytes_storeBytes_of_disjoint ?_
  have hsize : e.1.size + 1 = e.1.buf.storage.length := by simp [BoundSend.size, StdString.storage]
  omega

/-- A new parameter holds its string. -/
theorem reads_new (memory : Memory) (data : ℕ) (buf : StdString) :
    (memory.storeBytes data buf.storage).readBytes data (BoundSend.size ⟨data, buf⟩) = buf.1 := by
  rw [Memory.readBytes_storeBytes (by simp [BoundSend.size, StdString.storage])]
  simp [BoundSend.size, StdString.storage]

/-- The functor that the step runs waits. -/
theorem mem_waiting_of_runs {f : BoundSend} (h : f ∈ s.runs label) : f ∈ s.waiting := by
  unfold runs at h
  split at h
  · obtain ⟨e, he, rfl⟩ := Option.map_eq_some_iff.mp h
    exact List.mem_map_of_mem (EventLoop.mem_waiting_of_nextFunctor he)
  · contradiction

/-- What the run of a functor does. -/
theorem functor_spec {w : WriteResult} {log : ErrnoTrail} (hs : s.step (.functor w log) = some s') :
    ∃ e loop io, s.loop.nextFunctor = some e ∧ s.loop.next .call = some loop ∧
      callStep s.io (.sendInLoop (s.message e.2) w log) = some io ∧
      s' = { s with loop := loop, io := io } := by
  obtain ⟨e, he, hs⟩ := Option.bind_eq_some_iff.mp hs
  obtain ⟨loop, hloop, hs⟩ := Option.bind_eq_some_iff.mp hs
  obtain ⟨io, hio, hs⟩ := Option.bind_eq_some_iff.mp hs
  exact ⟨e, loop, io, he, hloop, hio, (Option.some.inj hs).symm⟩

/-- The steps of the loop thread queue nothing. -/
theorem waiting_move {m : EventLoop.Move} {loop : EventLoop Unit BoundSend} (h : s.loop.next m = some loop)
    {f : BoundSend} (hf : f ∈ loop.waiting.map Prod.snd) : f ∈ s.waiting := by
  obtain ⟨e, he, rfl⟩ := List.mem_map.mp hf
  exact List.mem_map_of_mem (EventLoop.mem_waiting_of_next h he)

/-- A step that stores no other bytes where a functor will read leaves the strings in memory. -/
theorem BytesThere.step (h : s.BytesThere) (hkeeps : s.KeepsBytes label)
    (hs : s.step label = some s') : s'.BytesThere := by
  cases label with
  | otherSend data buf =>
    obtain ⟨⟨-, hfree⟩, hs⟩ := Option.ite_none_right_eq_some.mp hs
    obtain rfl := Option.some.inj hs
    refine ⟨fun e he => ?_, fun f hf => (hkeeps f hf).trans (h.waiting f hf)⟩
    have hold (he : e ∈ s.sending) :
        (s.memory.storeBytes data buf.storage).readBytes e.1.data e.1.size = e.1.buf.1 :=
      (reads_of_free hfree he).trans (h.sending e he)
    by_cases hstate : s.io.conn.state = .kConnected
    · rw [if_pos hstate] at he
      rcases List.mem_append.mp he with he | he
      · exact hold he
      · obtain rfl := List.mem_singleton.mp he
        exact reads_new s.memory data buf
    · rw [if_neg hstate] at he
      exact hold he
  | otherQueue i =>
    unfold BorrowedSends.step at hs
    dsimp only at hs
    split at hs
    · rename_i f hi
      obtain rfl := Option.some.inj hs
      have hf := h.sending (f, false) (List.mem_of_getElem? hi)
      refine ⟨fun e he => ?_, fun g hg => ?_⟩
      · rcases List.mem_or_eq_of_mem_set he with he | rfl
        · exact h.sending e he
        · exact hf
      · rw [BorrowedSends.waiting, EventLoop.waiting_enqueue, List.map_append] at hg
        rcases List.mem_append.mp hg with hg | hg
        · exact h.waiting g hg
        · obtain rfl := List.mem_singleton.mp hg
          exact hf
    · contradiction
  | otherReturn i =>
    unfold BorrowedSends.step at hs
    dsimp only at hs
    split at hs
    · obtain rfl := Option.some.inj hs
      exact ⟨fun e he => h.sending e (List.mem_of_mem_eraseIdx he), h.waiting⟩
    · contradiction
  | store address byte =>
    obtain ⟨hfree, hs⟩ := Option.ite_none_right_eq_some.mp hs
    obtain rfl := Option.some.inj hs
    have hliving (e : BoundSend × Bool) (he : e ∈ s.sending) :
        (s.memory.storeBytes address [byte]).readBytes e.1.data e.1.size = e.1.buf.1 :=
      (reads_of_free hfree he).trans (h.sending e he)
    exact ⟨hliving, fun f hf => (hkeeps f hf).trans (h.waiting f hf)⟩
  | move m =>
    obtain ⟨-, hs⟩ := Option.ite_none_left_eq_some.mp hs
    obtain ⟨loop, hnext, rfl⟩ := Option.map_eq_some_iff.mp hs
    exact ⟨h.sending, fun f hf => h.waiting f (waiting_move hnext hf)⟩
  | functor w log =>
    obtain ⟨e, loop, io, -, hnext, -, rfl⟩ := functor_spec hs
    exact ⟨h.sending, fun f hf => h.waiting f (waiting_move hnext hf)⟩
  | call c =>
    obtain ⟨-, hs⟩ := Option.ite_none_right_eq_some.mp hs
    obtain ⟨io, -, rfl⟩ := Option.map_eq_some_iff.mp hs
    exact ⟨h.sending, h.waiting⟩

/-- The functor finds the string of its `send`. -/
theorem BytesThere.givesPassed (h : s.BytesThere) (label : BorrowLabel) : s.GivesPassed label :=
  fun f hf => h.waiting f (mem_waiting_of_runs hf)

/-- A functor that finds the string does what the loop thread does with it. -/
theorem GivesPassed.sameEffect (h : s.GivesPassed label) : s.SameEffect label := by
  rintro w log rfl f hf s' hs
  obtain ⟨e, loop, io, he, -, hio, rfl⟩ := functor_spec hs
  obtain rfl : e.2 = f := Option.some.inj ((congrArg (Option.map Prod.snd) he).symm.trans hf)
  have hmessage : s.message e.2 = s.passed e.2 := by
    unfold message passed
    congr 1
    exact h e.2 hf
  rw [hmessage] at hio
  refine ⟨hio, fun hstate => ?_⟩
  obtain ⟨hlegal, hexec⟩ := callStep_eq_some.mp hio
  refine callStep_eq_some.mpr ⟨hlegal, ?_⟩
  simpa [ConnCall.exec, Io.send, hstate] using hexec

end BorrowedSends

/-- In every run in which no step stores other bytes where a functor that waits will read, every functor
gives `sendInLoop` the string of its `send`, and does what the loop thread does with it. -/
theorem otherSend_sendsPassed (io : Io) (memory : Memory) (labels : List BorrowLabel)
    (h : Along BorrowedSends.step BorrowedSends.KeepsBytes (.started io memory) labels) :
    Along BorrowedSends.step (fun s label => s.GivesPassed label ∧ s.SameEffect label)
      (.started io memory) labels := by
  refine along_of_along (I := BorrowedSends.BytesThere) (fun _ _ _ hs hkeeps hstep =>
    hs.step hkeeps hstep) (fun s label _ hs _ _ => ?_) ?_ h
  · exact ⟨hs.givesPassed label, (hs.givesPassed label).sameEffect⟩
  · exact ⟨fun e he => (nomatch he), fun f hf => (nomatch hf)⟩

/-- A send from another thread up to its return, the way of the loop to its functor with a store in
between, and the functor. -/
def sendOne (address : ℕ) : List BorrowLabel :=
  [.otherSend 8 ⟨[97], by decide⟩, .otherQueue 0, .otherReturn 0, .move .enter, .move .test, .move .poll,
    .move .handled, .move .swap, .store address 98, .functor (.accepted 1) ⟨id, id⟩]

/-- A store in front of the string changes nothing. -/
theorem otherSend_sendsPassed_beside :
    Along BorrowedSends.step (fun s label => s.GivesPassed label ∧ s.SameEffect label)
      (.started Opening.fresh.established fun _ => 0) (sendOne 7) :=
  otherSend_sendsPassed _ _ _ (by decide)

/-- A store in the storage of the string that `send` has given back is sent in its place. -/
theorem otherSend_sendsReused :
    ¬ Along BorrowedSends.step (fun s label => s.GivesPassed label ∧ s.SameEffect label)
      (.started Opening.fresh.established fun _ => 0) (sendOne 8) := fun h =>
  absurd (h.imp fun _ _ hstep => hstep.1) (by decide)

end CcMuduo
