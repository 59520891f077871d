import CcMuduo.IoLoop

/-!
# What every step of an I/O loop keeps

`Core` holds the connections together with the functors on their way to them: every connection that is
still `live` is settled, `connectDestroyed` is handed out once for each connection, and it leaves the
end state every time. `Ready` is about one connection and its place in the dispatch: an event that would
reach a handler waits for open connections only, or `connectDestroyed` is behind its callback.

`Orderly` is what a step must not do. With `strict` the destroyed connections count as live as well,
which takes one more condition, `Spared`.
-/

namespace CcMuduo

open Foundation

namespace EpollPoller

/-- Whether a channel is tracked depends on the records of its descriptor. -/
theorem Tracks.frame {p q : EpollPoller} {c : Channel} (h : p.Tracks c)
    (hsame : q.channels c.fd = p.channels c.fd ∧ q.interest c.fd = p.interest c.fd) : q.Tracks c := by
  unfold Tracks at h ⊢
  rwa [hsame.1, hsame.2]

end EpollPoller

/-- Reports to the poller that leave its records alone leave a connection settled. -/
theorem Io.Settled.repoll {s : Io} {q : EpollPoller} (h : s.Settled)
    (hsame : q.channels s.conn.channel.fd = s.poller.channels s.conn.channel.fd ∧
      q.interest s.conn.channel.fd = s.poller.interest s.conn.channel.fd) :
    Io.Settled { s with poller := q } :=
  ⟨⟨h.output, h.input⟩, h.tracks.frame hsame, h.added_iff, h.interested, h.uninterested, h.history,
    h.quiet⟩

/-- Another connection's reports to the poller leave a connection settled. -/
theorem Io.Settled.frame {conn : TcpConnection} {p q : EpollPoller} {log : List Effect} {fd : ℕ}
    (h : Io.Settled ⟨conn, p, log⟩) (hframe : p.SameExcept q fd) (hne : conn.channel.fd ≠ fd) :
    Io.Settled ⟨conn, q, log⟩ :=
  h.repoll (hframe _ hne)

variable {C : Type*} [DecidableEq C]

/-- The functor is the `connectDestroyed` of the connection. -/
def ConnFunctor.destroys (c : C) : ConnFunctor C → Bool
  | .connectDestroyed d => d == c
  | _ => false

/-- The connection that the functor destroys. -/
def ConnFunctor.target : ConnFunctor C → Option C
  | .connectDestroyed c => some c
  | _ => none

@[simp] theorem ConnFunctor.destroys_connectDestroyed (c d : C) :
    (ConnFunctor.connectDestroyed d).destroys c = (d == c) := rfl

/-- The frame is the `connectDestroyed` of the connection. -/
def Frame.destroys (c : C) : Frame C → Bool
  | .connectDestroyed d => d == c
  | _ => false

namespace IoLoop

variable (s : IoLoop C) {s' : IoLoop C} {strict : Prop}

/-- An event of the connection waits that would reach a handler. -/
def waits (c : C) : Bool := s.activeChannels.any fun e => e.1 == c && reachesHandler e.2

/-- The functors on their way. -/
def queued : List (ConnFunctor C) := s.functors ++ s.pendingFunctors ++ s.posting

/-- The connection is behind the callback of `connectDestroyed`. -/
def leaving (c : C) : Bool := s.stack.any (·.destroys c)

/-- How often `connectDestroyed` has been handed out for a connection: queued, started or done. -/
def handed (c : C) : ℕ :=
  s.queued.countP (·.destroys c) + s.stack.countP (·.destroys c) + (s.destroyed c).length

/-- The connection counts as live: it is not destroyed, or not by its server's destructor. With `strict`
every connection counts. -/
def live (strict : Prop) (c : C) : Prop := strict ∨ s.serverAlive = true ∨ s.destroyed c = []

/-- What a step must not do: store `kDisconnecting` on a connection that is down, or enter
`connectDestroyed` in `kDisconnecting`. -/
def Orderly : IoLabel C → Prop
  | .otherStore i => ∀ c ∈ s.storing[i]?, (s.conns c).state ≠ .kDisconnected
  | .functor _ _ => s.serverAlive = false → ∀ c ∈ s.functors.head?.bind ConnFunctor.target,
      (s.conns c).state ≠ .kDisconnecting
  | .destroy c => (s.conns c).state ≠ .kDisconnecting
  | _ => True

/-- The server is not destroyed on the loop thread in front of the event of one of its connections. -/
def Spared : IoLabel C → Prop
  | .destroy c => s.waits c = false
  | _ => True

instance (l : IoLabel C) : Decidable (s.Orderly l) := by
  cases l <;> unfold Orderly <;> infer_instance

instance (l : IoLabel C) : Decidable (s.Spared l) := by
  cases l <;> unfold Spared <;> infer_instance

/-- The connections, and what is on its way to them. -/
structure Core (strict : Prop) (s : IoLoop C) : Prop where
  distinct : ∀ c d, (s.conns c).channel.fd = (s.conns d).channel.fd → c = d
  sound : ∀ c, (s.io c).Sound
  settled : ∀ c, s.live strict c → (s.io c).Settled
  nodup : (s.activeChannels.map Prod.fst).Nodup
  idle : s.phase ≠ .dispatching → s.activeChannels = []
  sending : ∀ c msg, .sendInLoop c msg ∈ s.queued → (s.conns c).state ≠ .kConnecting
  storing : ∀ c ∈ s.storing, (s.conns c).state ≠ .kConnecting
  removed : s.serverAlive = true → ∀ c, .connectDestroyed c ∈ s.queued →
    (s.conns c).state = .kDisconnected
  handed_le : ∀ c, s.handed c + (s.connections c).toNat ≤ 1
  counted : s.serverAlive = true → ∀ c, s.connections c = false → 1 ≤ s.removals c
  down : ∀ c, s.destroyed c ≠ [] → (s.conns c).state = .kDisconnected
  clean : ∀ c, ∀ e ∈ s.destroyed c, e = .clean
  punctual : ∀ c, s.late c = false

/-- One connection and its place in the dispatch. -/
structure Ready (strict : Prop) (s : IoLoop C) (c : C) : Prop where
  waiting : s.waits c = true → s.live strict c →
    (s.conns c).isOpen ∨ ¬ strict ∧ s.leaving c = true
  leaving : s.leaving c = true → (s.conns c).state = .kDisconnected ∧ s.serverAlive = false

/-- What every orderly step keeps. -/
structure Inv (strict : Prop) (s : IoLoop C) : Prop where
  core : Core strict s
  ready : ∀ c, Ready strict s c

variable {s}

/-- A function of one connection completed, and its outcome is put back. -/
theorem exec_eq_some {c : C} {f : Io → Except Fault Io} :
    s.exec c f = some s' ↔ ∃ x, f (s.io c) = .ok x ∧ s.put c x = s' := by
  simp [exec, toOption_eq_some]

/-- `send` or `sendInLoop` completed in a process that lives on, and the outcome is put back. -/
theorem execSend_eq_some {c : C} {f : Io → Except Fault Io} :
    s.execSend c f = some s' ↔ ∃ x, f (s.io c) = .ok x ∧ x.survives = true ∧ s.put c x = s' := by
  simp [execSend, toOption_eq_some, Option.filter_eq_some_iff, and_assoc]

/-- The connection that was put back. -/
@[simp] theorem put_io_self (c : C) (x : Io) : (s.put c x).io c = x := by
  simp [put, io]

@[simp] theorem put_conns_self (c : C) (x : Io) : (s.put c x).conns c = x.conn := by
  simp [put]

/-- Every other connection sees a new poller at most. -/
theorem put_io_of_ne {c d : C} (hne : d ≠ c) (x : Io) :
    (s.put c x).io d = ⟨s.conns d, x.poller, s.log d⟩ := by
  simp [put, io, hne]

theorem put_conns_of_ne {c d : C} (hne : d ≠ c) (x : Io) : (s.put c x).conns d = s.conns d := by
  simp [put, hne]

/-- A waiting event, spelled out. -/
theorem waits_iff {c : C} :
    s.waits c = true ↔ ∃ m, (c, m) ∈ s.activeChannels ∧ reachesHandler m = true := by
  simp [waits]

namespace Core

/-- A function of one connection keeps everything that is on its way. -/
theorem put (h : Core strict s) {c : C} {x : Io} (hmoves : Io.Moves (s.io c) x)
    (hsettled : s.live strict c → x.Settled) : Core strict (s.put c x) := by
  have hfd (d : C) : ((s.put c x).conns d).channel.fd = (s.conns d).channel.fd := by
    by_cases hne : d = c
    · subst hne
      rw [put_conns_self]
      exact hmoves.fd
    · rw [put_conns_of_ne hne]
  have hbegun (d : C) (hd : (s.conns d).state ≠ .kConnecting) :
      ((s.put c x).conns d).state ≠ .kConnecting := by
    by_cases hne : d = c
    · subst hne
      rw [put_conns_self]
      exact hmoves.begun hd
    · rwa [put_conns_of_ne hne]
  have hdown (d : C) (hd : (s.conns d).state = .kDisconnected) :
      ((s.put c x).conns d).state = .kDisconnected := by
    by_cases hne : d = c
    · subst hne
      rw [put_conns_self]
      exact hmoves.down hd
    · rwa [put_conns_of_ne hne]
  refine ⟨fun d e heq => h.distinct d e ?_, fun d => ?_, fun d hlive => ?_, h.nodup, h.idle,
    fun d msg hd => hbegun d (h.sending d msg hd), fun d hd => hbegun d (h.storing d hd),
    fun halive d hd => hdown d (h.removed halive d hd), h.handed_le, h.counted,
    fun d hd => hdown d (h.down d hd), h.clean, h.punctual⟩
  · rwa [hfd, hfd] at heq
  · by_cases hne : d = c
    · subst hne
      rw [put_io_self]
      exact hmoves.sound
    · rw [put_io_of_ne hne]
      exact ⟨(h.sound d).output, (h.sound d).input⟩
  · by_cases hne : d = c
    · subst hne
      rw [put_io_self]
      exact hsettled hlive
    · rw [put_io_of_ne hne]
      exact (h.settled d hlive).frame hmoves.frame fun heq => hne (h.distinct d c heq)

end Core

/-- A function of one connection keeps every other one ready. -/
theorem Ready.put_of_ne {c d : C} (h : Ready strict s d) (hne : d ≠ c) (x : Io) :
    Ready strict (s.put c x) d := by
  refine ⟨?_, ?_⟩
  · rw [put_conns_of_ne hne]
    exact h.waiting
  · rw [put_conns_of_ne hne]
    exact h.leaving

/-- A function of one connection keeps it ready if it does not take it down in front of its own event. -/
theorem Ready.put_self {c : C} {x : Io} (h : Ready strict s c) (hmoves : Io.Moves (s.io c) x)
    (hstays : s.waits c = true → (s.conns c).isOpen → x.conn.isOpen) : Ready strict (s.put c x) c := by
  refine ⟨?_, ?_⟩
  · rw [put_conns_self]
    exact fun hwaits hlive => (h.waiting hwaits hlive).imp_left (hstays hwaits)
  · rw [put_conns_self]
    exact fun hleaving => ⟨hmoves.down (h.leaving hleaving).1, (h.leaving hleaving).2⟩

namespace Inv

/-- A function of one connection. -/
theorem put (h : Inv strict s) {c : C} {x : Io} (hmoves : Io.Moves (s.io c) x)
    (hsettled : s.live strict c → x.Settled)
    (hstays : s.waits c = true → (s.conns c).isOpen → x.conn.isOpen) : Inv strict (s.put c x) := by
  refine ⟨h.core.put hmoves hsettled, fun d => ?_⟩
  by_cases hne : d = c
  · subst hne
    exact (h.ready d).put_self hmoves hstays
  · exact (h.ready d).put_of_ne hne x

/-- A function that cannot close the connection. -/
theorem keepsOpen (h : Inv strict s) {c : C} {x : Io} (hkeeps : Io.KeepsOpen (s.io c) x) :
    Inv strict (s.put c x) :=
  h.put hkeeps.moves (fun hlive => hkeeps.settled (h.core.settled c hlive)) fun _ => hkeeps.stays

end Inv

end IoLoop

end CcMuduo
