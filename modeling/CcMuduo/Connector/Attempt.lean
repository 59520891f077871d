import CcMuduo.Connector.Step

/-!
# Attempts

An attempt to connect is in progress while its channel is registered in `kConnecting`. Its socket is then
the only one the connector holds, and no `resetChannel` waits that would take the channel away.
-/

namespace CcMuduo

open Foundation

namespace ConnectorLoop

variable (s : ConnectorLoop)

/-- Is the channel registered for an attempt? -/
def registered : Bool := s.channel.any fun c => c.index == .kAdded

/-- An attempt is in progress. -/
structure Attempting (c : Channel) : Prop where
  channel : s.channel = some c
  index : c.index = .kAdded
  state : s.state = .kConnecting
  holds : held s.log = [c.fd]
  keeps : .resetChannel ∉ s.functors

variable {s} {s' : ConnectorLoop} {c : Channel}

/-- What an attempt depends on. -/
theorem Attempting.of_same (h : s.Attempting c) (hchannel : s'.channel = s.channel)
    (hstate : s'.state = s.state) (hheld : held s'.log = held s.log)
    (hreset : .resetChannel ∈ s'.functors → .resetChannel ∈ s.functors) : s'.Attempting c :=
  ⟨hchannel.trans h.channel, h.index, hstate.trans h.state, hheld.trans h.holds,
    fun hmem => h.keeps (hreset hmem)⟩

/-- The socket of an attempt is held. -/
theorem Attempting.mem_held (h : s.Attempting c) : c.fd ∈ held s.log :=
  h.holds ▸ List.mem_singleton_self c.fd

/-- Without the socket of an attempt nothing is held. -/
theorem Attempting.held_erase (h : s.Attempting c) : (held s.log).erase c.fd = [] :=
  (congrArg (List.erase · c.fd) h.holds).trans (List.erase_cons_head c.fd [])

/-- The channel of an attempt is registered. -/
theorem Attempting.registered (h : s.Attempting c) : s.registered = true := by
  simp [ConnectorLoop.registered, h.channel, h.index]

/-- A step of the loop thread leaves it in its handlers until every event was handled. -/
theorem handling_next {m : EventLoop.Move} {loop : EventLoop ℕ ConnectorFunctor}
    (hhandled : m ≠ .handled) (hnext : s.loop.next m = some loop)
    (hpc : ∃ b, s.loop.pc = .handling b) : ∃ b, loop.pc = .handling b := by
  obtain ⟨b, hpc⟩ := hpc
  have hspec := EventLoop.next_spec hnext
  cases m with
  | handled => contradiction
  | handleRead => exact ⟨false, by rw [hspec.2]⟩
  | enter | test | poll | swap | call | finish => simp [hpc] at hspec

/-- A step of the loop thread leaves an attempt as it is. -/
theorem Attempting.next (h : s.Attempting c) {m : EventLoop.Move}
    {loop : EventLoop ℕ ConnectorFunctor} (hnext : s.loop.next m = some loop) (active : Option Mask) :
    Attempting { s with loop := loop, active := active } c := by
  refine h.of_same rfl rfl rfl fun hmem => ?_
  by_cases hcall : m = .call
  · subst hcall
    obtain ⟨functor, -, hfunctors⟩ := functors_call hnext
    exact hfunctors ▸ List.mem_cons_of_mem _ hmem
  · exact functors_next hcall hnext ▸ hmem

end ConnectorLoop

end CcMuduo
