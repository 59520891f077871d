import CcMuduo.TcpConnection.Outcome

/-!
# The life of a connection

A connection is established once, open until its down notification, and down from then on. `Settled`
ties the state to the notifications on record, to the events of interest and to the registration with
the poller.

Every function of the connection moves its own records only (`Moves`). Every function keeps
`Settled` under the one condition that `handleRead` and `handleClose` are not run on a connection that
is not open.
-/

namespace CcMuduo

open Foundation

/-- Is the effect a call of the message callback? -/
def Effect.isMessage : Effect → Bool
  | .messageCallback _ _ => true
  | _ => false

/-- How often the connection callback has reported the connection up. -/
def ups (effects : List Effect) : ℕ := effects.count (.connectionCallback true)

/-- How often the connection callback has reported the connection down. -/
def downs (effects : List Effect) : ℕ := effects.count (.connectionCallback false)

/-- How often `handleClose` has called the close callback. -/
def closes (effects : List Effect) : ℕ := effects.count .closeCallback

/-- No message is delivered behind a down notification. -/
def Quiet (effects : List Effect) : Prop :=
  effects.Pairwise fun e later => e = .connectionCallback false → later.isMessage = false

/-- The effects on record in a state: nothing before the connection is established, the up notification
while it is open, both notifications when it is down. -/
def History : StateE → List Effect → Prop
  | .kConnecting, l => ups l = 0 ∧ downs l = 0 ∧ closes l = 0
  | .kConnected, l | .kDisconnecting, l => ups l = 1 ∧ downs l = 0 ∧ closes l = 0
  | .kDisconnected, l => ups l = 1 ∧ downs l = 1 ∧ closes l ≤ 1

/-- The connection is established and not down. -/
def TcpConnection.isOpen (c : TcpConnection) : Prop :=
  c.state = .kConnected ∨ c.state = .kDisconnecting

instance (c : TcpConnection) : Decidable c.isOpen :=
  inferInstanceAs (Decidable (c.state = .kConnected ∨ c.state = .kDisconnecting))

/-- Being open is read off the state. -/
theorem TcpConnection.isOpen_congr {c c' : TcpConnection} (h : c'.state = c.state) :
    c'.isOpen ↔ c.isOpen := by
  rw [isOpen, isOpen, h]

@[simp] theorem ups_append (l₁ l₂ : List Effect) : ups (l₁ ++ l₂) = ups l₁ + ups l₂ :=
  List.count_append

@[simp] theorem downs_append (l₁ l₂ : List Effect) : downs (l₁ ++ l₂) = downs l₁ + downs l₂ :=
  List.count_append

@[simp] theorem closes_append (l₁ l₂ : List Effect) : closes (l₁ ++ l₂) = closes l₁ + closes l₂ :=
  List.count_append

/-- The effects of a handler that leaves a connection as open as it was: neither of the two
notifications and no closing. -/
structure Unnoticed (new : List Effect) : Prop where
  ups : ups new = 0
  downs : downs new = 0
  closes : closes new = 0

/-- Nothing is not a notification. -/
theorem Unnoticed.nil : Unnoticed [] := ⟨rfl, rfl, rfl⟩

/-- Effects of sending are no notifications. -/
theorem Unnoticed.of_isSend {new : List Effect} (h : ∀ e ∈ new, e.isSend = true) :
    Unnoticed new := by
  refine ⟨?_, ?_, ?_⟩
  all_goals
    apply List.count_eq_zero.mpr
    intro hmem
    simpa [Effect.isSend] using h _ hmem

/-- Effects of sending are no messages. -/
theorem not_isMessage_of_isSend {e : Effect} (h : e.isSend = true) : e.isMessage = false := by
  cases e <;> simp_all [Effect.isSend, Effect.isMessage]

/-- A record without down notifications is quiet. -/
theorem quiet_of_downs {l : List Effect} (h : downs l = 0) : Quiet l := by
  apply List.pairwise_of_forall_mem_list
  intro e he later _ heq
  exact absurd (heq ▸ he) (List.count_eq_zero.mp h)

/-- Adding effects to a quiet record keeps it quiet if none of them is a message, or if the record has
no down notification. -/
theorem Quiet.append {l new : List Effect} (h : Quiet l) (hnew : Quiet new)
    (hmessage : downs l = 0 ∨ ∀ e ∈ new, e.isMessage = false) : Quiet (l ++ new) := by
  apply List.pairwise_append.mpr
  refine ⟨h, hnew, ?_⟩
  rintro e he later hlater rfl
  rcases hmessage with hdowns | hmessage
  · exact absurd he (List.count_eq_zero.mp hdowns)
  · exact hmessage later hlater

/-- The record of an open connection. -/
theorem history_of_open {state : StateE} (h : state = .kConnected ∨ state = .kDisconnecting)
    {l : List Effect} : History state l ↔ ups l = 1 ∧ downs l = 0 ∧ closes l = 0 := by
  rcases h with rfl | rfl <;> rfl

/-- Effects that are no notifications keep the record in step with the state. -/
theorem History.append {state : StateE} {l new : List Effect} (h : History state l)
    (hnew : Unnoticed new) : History state (l ++ new) := by
  obtain ⟨hups, hdowns, hcloses⟩ := hnew
  cases state <;> simpa [History, hups, hdowns, hcloses] using h

namespace Io

/-- The buffers of the connection are well formed. -/
structure Sound (s : Io) : Prop where
  output : s.conn.outputBuffer.Inv
  input : s.conn.inputBuffer.Inv

/-- What every function does at most: it moves bytes through the buffers and changes the records of its
own descriptor, and it never brings back an earlier state. -/
structure Moves (s s' : Io) : Prop where
  sound : s'.Sound
  fd : s'.conn.channel.fd = s.conn.channel.fd
  address : s'.conn.channel.address = s.conn.channel.address
  frame : s.poller.SameExcept s'.poller s.conn.channel.fd
  begun : s.conn.state ≠ .kConnecting → s'.conn.state ≠ .kConnecting
  down : s.conn.state = .kDisconnected → s'.conn.state = .kDisconnected

/-- The state of a connection agrees with its record, its interest and its registration. -/
structure Settled (s : Io) : Prop extends Sound s where
  tracks : s.poller.Tracks s.conn.channel
  added_iff : s.conn.channel.index = .kAdded ↔ s.conn.isOpen
  interested : s.conn.isOpen → s.conn.channel.isReading = true ∨ s.conn.channel.isWriting = true
  uninterested : ¬ s.conn.isOpen → s.conn.channel.events = kNoneEvent
  history : History s.conn.state s.effects
  quiet : Quiet s.effects

variable {s s' : Io}

/-- Nothing changed but effects, buffers, and the state among later ones. -/
theorem moves_of_same (hsound : s'.Sound) (hchannel : s'.conn.channel = s.conn.channel)
    (hpoller : s'.poller = s.poller)
    (hbegun : s.conn.state ≠ .kConnecting → s'.conn.state ≠ .kConnecting)
    (hdown : s.conn.state = .kDisconnected → s'.conn.state = .kDisconnected) : Moves s s' := by
  refine ⟨hsound, by rw [hchannel], by rw [hchannel], ?_, hbegun, hdown⟩
  rw [hpoller]
  exact fun _ _ => ⟨rfl, rfl⟩

/-- A report to the poller moves the records of the own descriptor. -/
theorem moves_of_polled (hpolled : Polled s s') (hsound : s'.Sound)
    (hbegun : s.conn.state ≠ .kConnecting → s'.conn.state ≠ .kConnecting)
    (hdown : s.conn.state = .kDisconnected → s'.conn.state = .kDisconnected) : Moves s s' := by
  obtain ⟨hpoller, hchannel⟩ | hupdate := hpolled
  · exact moves_of_same hsound hchannel hpoller hbegun hdown
  · have hframe := EpollPoller.updateChannel_sameExcept hupdate
    obtain ⟨index, hchannel⟩ := EpollPoller.updateChannel_channel hupdate
    exact ⟨hsound, by rw [hchannel], by rw [hchannel], hframe, hbegun, hdown⟩

/-- Closing moves the records of the own descriptor. -/
theorem moves_of_closedAfter {new : List Effect} (h : s.Sound) (hclose : ClosedAfter s s' new) :
    Moves s s' := by
  obtain ⟨p, index, hupdate, rfl⟩ := hclose
  have hframe := EpollPoller.updateChannel_sameExcept hupdate
  exact ⟨⟨h.output, h.input⟩, rfl, rfl, hframe, by simp, by simp⟩

/-- The record of an open connection. -/
theorem Settled.open_counts (h : s.Settled) (hopen : s.conn.isOpen) :
    ups s.effects = 1 ∧ downs s.effects = 0 ∧ closes s.effects = 0 :=
  (history_of_open hopen).mp h.history

/-- Only an open connection is in the kernel set. -/
theorem Settled.open_of_registered (h : s.Settled)
    (hset : s.poller.interest s.conn.channel.fd ≠ none) : s.conn.isOpen := by
  rw [← h.added_iff]
  by_contra hindex
  exact hset (h.tracks.unregistered hindex)

/-- A handler that leaves state, channel and poller alone and notifies nobody. -/
theorem Settled.of_same (h : s.Settled) (hsound : s'.Sound)
    (hstate : s'.conn.state = s.conn.state) (hchannel : s'.conn.channel = s.conn.channel)
    (hpoller : s'.poller = s.poller) {new : List Effect} (heffects : s'.effects = s.effects ++ new)
    (hnew : Unnoticed new) (hmessage : s.conn.isOpen ∨ ∀ e ∈ new, e.isMessage = false) :
    s'.Settled := by
  have hopen := TcpConnection.isOpen_congr hstate
  refine ⟨hsound, ?_, ?_, ?_, ?_, ?_, ?_⟩
  · rw [hpoller, hchannel]
    exact h.tracks
  · rw [hchannel, hopen]
    exact h.added_iff
  · rw [hchannel, hopen]
    exact h.interested
  · rw [hchannel, hopen]
    exact h.uninterested
  · rw [hstate, heffects]
    exact h.history.append hnew
  · rw [heffects]
    apply h.quiet.append (quiet_of_downs hnew.downs)
    exact hmessage.imp_left fun hopen => (h.open_counts hopen).2.1

/-- A handler that reports an event of interest of an open connection at most, and notifies nobody. -/
theorem Settled.of_polled (h : s.Settled) (hopen : s.conn.isOpen) (hsound : s'.Sound)
    (hstill : s'.conn.isOpen) (hpolled : Polled s s')
    (hinterest : s'.conn.channel.isReading = true ∨ s'.conn.channel.isWriting = true)
    {new : List Effect} (heffects : s'.effects = s.effects ++ new) (hnew : Unnoticed new) :
    s'.Settled := by
  have hadded := h.added_iff.mpr hopen
  have htracked : s'.poller.Tracks s'.conn.channel ∧ s'.conn.channel.index = .kAdded := by
    obtain ⟨hpoller, hchannel⟩ | hupdate := hpolled
    · rw [hpoller, hchannel]
      exact ⟨h.tracks, hadded⟩
    · have htracks : s.poller.Tracks { s.conn.channel with events := s'.conn.channel.events } :=
        h.tracks
      have hne : s'.conn.channel.events ≠ kNoneEvent :=
        hinterest.elim ne_zero_of_hasAny ne_zero_of_hasAny
      obtain ⟨q, hq, hmap, hset, -⟩ := htracks.updateChannel
      have hsome : ¬ (s.conn.channel.index = .kAdded ∧
          Channel.isNoneEvent { s.conn.channel with events := s'.conn.channel.events } = true) := by
        simp [Channel.isNoneEvent, hne]
      rw [if_neg hsome] at hset
      rw [if_neg hsome] at hq
      rw [hupdate, Except.ok.injEq, Prod.mk.injEq] at hq
      obtain ⟨hpoller, hchannel⟩ := hq
      rw [hpoller, hchannel]
      exact ⟨⟨hmap, _, hset⟩, rfl⟩
  obtain ⟨hups, hdowns, hcloses⟩ := h.open_counts hopen
  refine ⟨hsound, htracked.1, iff_of_true htracked.2 hstill, fun _ => hinterest,
    fun hdown => absurd hstill hdown, ?_, ?_⟩
  · apply (history_of_open hstill).mpr
    rw [heffects]
    exact ⟨by rw [ups_append, hups, hnew.ups], by rw [downs_append, hdowns, hnew.downs],
      by rw [closes_append, hcloses, hnew.closes]⟩
  · rw [heffects]
    exact h.quiet.append (quiet_of_downs hnew.downs) (.inl hdowns)

/-- Where an open connection is when it has dropped every interest. -/
theorem Settled.disabled (h : s.Settled) (hopen : s.conn.isOpen) {p : EpollPoller}
    {index : PollerIndex}
    (hupdate : s.poller.updateChannel { s.conn.channel with events := kNoneEvent } =
      .ok (p, { s.conn.channel with events := kNoneEvent, index := index })) :
    p.Tracks { s.conn.channel with events := kNoneEvent, index := index } ∧ index ≠ .kAdded := by
  have hadded := h.added_iff.mpr hopen
  have htracks : s.poller.Tracks { s.conn.channel with events := kNoneEvent } := h.tracks
  obtain ⟨q, hq, hmap, hset, -⟩ := htracks.updateChannel
  have hnone : s.conn.channel.index = .kAdded ∧
      Channel.isNoneEvent { s.conn.channel with events := kNoneEvent } = true :=
    ⟨hadded, by simp [Channel.isNoneEvent]⟩
  rw [if_pos hnone] at hset
  rw [if_pos hnone] at hq
  rw [hupdate, Except.ok.injEq, Prod.mk.injEq, Channel.mk.injEq] at hq
  obtain ⟨rfl, -, -, -, rfl⟩ := hq
  exact ⟨⟨hmap, hset⟩, by decide⟩

/-- Taking an open connection down, with one down notification and one close at most. -/
theorem Settled.of_down (h : s.Settled) (hopen : s.conn.isOpen) {p : EpollPoller}
    {index : PollerIndex}
    (hupdate : s.poller.updateChannel { s.conn.channel with events := kNoneEvent } =
      .ok (p, { s.conn.channel with events := kNoneEvent, index := index }))
    (hsound : s'.Sound) (hpoller : s'.poller = p)
    (hchannel : s'.conn.channel = { s.conn.channel with events := kNoneEvent, index := index })
    (hstate : s'.conn.state = .kDisconnected) {new : List Effect}
    (heffects : s'.effects = s.effects ++ new) (hups : ups new = 0) (hdowns : downs new = 1)
    (hcloses : closes new ≤ 1) (hmessage : ∀ e ∈ new, e.isMessage = false) : s'.Settled := by
  obtain ⟨htracks, hindex⟩ := h.disabled hopen hupdate
  obtain ⟨hups', hdowns', hcloses'⟩ := h.open_counts hopen
  have hdown : ¬ s'.conn.isOpen := by simp [TcpConnection.isOpen, hstate]
  refine ⟨hsound, by rwa [hpoller, hchannel], iff_of_false ?_ hdown, fun hup => absurd hup hdown,
    fun _ => by rw [hchannel], ?_, ?_⟩
  · rw [hchannel]
    exact hindex
  · rw [hstate, heffects]
    refine ⟨?_, ?_, ?_⟩
    · rw [ups_append, hups', hups]
    · rw [downs_append, hdowns', hdowns]
    · rw [closes_append, hcloses']
      omega
  · rw [heffects]
    apply h.quiet.append _ (.inl hdowns')
    apply List.pairwise_of_forall_mem_list
    exact fun _ _ later hlater _ => hmessage later hlater

/-- Closing an open connection. -/
theorem Settled.of_closedAfter (h : s.Settled) (hopen : s.conn.isOpen) {new : List Effect}
    (hnew : ∀ e ∈ new, e.isSend = true) (hclose : ClosedAfter s s' new) : s'.Settled := by
  obtain ⟨p, index, hupdate, rfl⟩ := hclose
  obtain ⟨hups, hdowns, hcloses⟩ := Unnoticed.of_isSend hnew
  refine h.of_down hopen hupdate ⟨h.output, h.input⟩ rfl rfl rfl
    (List.append_assoc _ new [.connectionCallback false, .closeCallback]) ?_ ?_ ?_ ?_
  · rw [ups_append, hups]
    rfl
  · rw [downs_append, hdowns]
    rfl
  · rw [closes_append, hcloses]
    decide
  · intro e he
    rcases List.mem_append.mp he with he | he
    · exact not_isMessage_of_isSend (hnew e he)
    · simp only [List.mem_cons, List.not_mem_nil, or_false] at he
      rcases he with rfl | rfl <;> rfl

/-- Sending on an open connection. -/
theorem Settled.of_sent (h : s.Settled) (hopen : s.conn.isOpen) {taken rest : List UInt8}
    (hsent : Sent s s' taken rest) : s'.Settled := by
  obtain ⟨new, heffects, hnew⟩ := hsent.sends
  have hstill := (TcpConnection.isOpen_congr hsent.state).mpr hopen
  refine h.of_polled hopen ⟨hsent.inv, hsent.input ▸ h.input⟩ hstill hsent.polled ?_ heffects
    (.of_isSend hnew)
  rw [hsent.reading, hsent.writing, Bool.or_eq_true]
  exact (h.interested hopen).imp_right .inl

end Io

end CcMuduo
