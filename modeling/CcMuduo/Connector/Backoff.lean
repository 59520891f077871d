import CcMuduo.Connector.Attempt
import CcMuduo.Connector.Frame
import Mathlib.Algebra.Group.Nat.Defs

/-!
# The delays between failed attempts

The delay is meant to begin with 500 milliseconds, to double with every failed attempt up to 30 seconds,
and to begin anew with a restart. `retry` doubles `retryDelayMs_`, which stays in its range, and takes the
delay itself from its caller. Two of the four callers behind a failure pass the descriptor instead, and
the doubling also happens when `stopInLoop` or an unwanted connection goes through `retry`. The steps
`WellTimed` leaves out are the ones that schedule another delay, none, or put the doubling out of step.
-/

namespace CcMuduo

open Foundation

/-- The delay of the `k`-th failed attempt. -/
def backoff (k : ℕ) : ℕ := min (kInitRetryDelayMs * 2 ^ k) kMaxRetryDelayMs

/-- The delays double up to the largest one. -/
theorem backoff_succ (k : ℕ) : backoff (k + 1) = min (backoff k * 2) kMaxRetryDelayMs := by
  unfold backoff kInitRetryDelayMs kMaxRetryDelayMs
  rw [pow_succ]
  omega

/-- `SO_ERROR` is set, or the socket is connected to itself. -/
def SystemAnswers.refused (a : SystemAnswers) : Bool := a.soError != 0 || a.selfConnect

namespace ConnectorLoop

variable (s : ConnectorLoop)

/-- `retryDelayMs_` is in its range, and an `int` holds its double. -/
structure DelayInRange : Prop where
  least : kInitRetryDelayMs ≤ s.retryDelayMs
  most : s.retryDelayMs ≤ kMaxRetryDelayMs
  double : s.retryDelayMs * 2 < 2 ^ 31

/-- The answers of the `connect()` that a step makes, if it makes one. -/
def callsConnect : ConnectorLabel → Option SystemAnswers
  | .startRun true a => if s.state = .kDisconnected ∧ s.connect_ = true then some a else none
  | .restart a => some a
  | .move .call a =>
    if s.nextFunctor = some .startInLoop ∧ s.state = .kDisconnected ∧ s.connect_ = true then some a
    else none
  | .fire _ a => some a
  | _ => none

/-- `connect()` is answered at once with an error to try again after. -/
def failsAtOnce (label : ConnectorLabel) : Bool :=
  (s.callsConnect label).any fun a => a.socket.isSome && decide (a.connect ∈ retryErrnos)

/-- An error event of an attempt is handled. -/
def errorEvent : Bool := s.state == .kConnecting && s.active.any (hasAny · EPOLLERR)

/-- A write event of an attempt is handled. -/
def writeEvent : Bool := s.state == .kConnecting && s.active.any writes

/-- The step is one in which an attempt fails. -/
def fails (label : ConnectorLabel) : Bool :=
  s.failsAtOnce label || match label with
    | .handleEvent a => s.errorEvent || (s.writeEvent && a.refused)
    | _ => false

end ConnectorLoop

/-- A connector with the number of its failed attempts since its construction or its last restart. -/
structure BackoffHistory where
  connector : ConnectorLoop
  failures : ℕ

namespace BackoffHistory

/-- The connector behind its constructor. -/
def constructed : BackoffHistory := ⟨.constructed, 0⟩

/-- The failed attempts in front of a step. -/
def before (h : BackoffHistory) : ConnectorLabel → ℕ
  | .restart _ => 0
  | _ => h.failures

/-- One step. -/
def step (h : BackoffHistory) (label : ConnectorLabel) : Option BackoffHistory :=
  (h.connector.step label).map fun connector =>
    ⟨connector, h.before label + if h.connector.fails label then 1 else 0⟩

/-- A failed attempt schedules its retry, with the delay of its number. -/
def BacksOff (h : BackoffHistory) (label : ConnectorLabel) : Prop :=
  h.connector.fails label = true → ((h.connector.step label).any fun s' =>
    s'.fault.isNone && s'.functors.getLast? == some (.insertTimer (backoff (h.before label)))) = true

instance (h : BackoffHistory) (label : ConnectorLabel) : Decidable (h.BacksOff label) :=
  inferInstanceAs (Decidable (_ = true → _ = true))

/-- What a step must not do: fail at once; meet an error event on another descriptor than the one whose
number is the delay; find `SO_ERROR` or a self-connection on a number that is closed when `retry`
registers it; or come through `retry` without a failure and double the delay. -/
def WellTimed (h : BackoffHistory) (label : ConnectorLabel) : Prop :=
  h.connector.failsAtOnce label = false ∧
    match label with
    | .handleEvent a =>
      (h.connector.errorEvent = true → ∀ c ∈ h.connector.channel, c.fd = h.connector.retryDelayMs) ∧
        (h.connector.writeEvent = true →
          if a.refused = true then a.reused = true
          else h.connector.connect_ = false → a.reused = true →
            h.connector.retryDelayMs = kMaxRetryDelayMs)
    | .move .call a => h.connector.nextFunctor = some .stopInLoop → h.connector.state = .kConnecting →
        a.reused = true → h.connector.retryDelayMs = kMaxRetryDelayMs
    | _ => True

instance (h : BackoffHistory) (label : ConnectorLabel) : Decidable (h.WellTimed label) := by
  unfold WellTimed
  cases label with
  | move m a => cases m <;> infer_instance
  | startStore | startRun | stopStore | stopQueue | restart | poll | handleEvent | fire | quit =>
    infer_instance

end BackoffHistory

namespace ConnectorLoop

/-- The delay keeps its range. -/
def Ranged (s s' : ConnectorLoop) : Prop := s.DelayInRange → s'.DelayInRange

instance : Std.Refl Ranged := ⟨fun _ h => h⟩

instance : IsTrans ConnectorLoop Ranged := ⟨fun _ _ _ h h' hs => h' (h hs)⟩

variable {s s' : ConnectorLoop} {a : SystemAnswers} {c : Channel}

/-- A delay between the bounds is in its range. -/
theorem DelayInRange.of_bounds (hleast : kInitRetryDelayMs ≤ s.retryDelayMs)
    (hmost : s.retryDelayMs ≤ kMaxRetryDelayMs) : s.DelayInRange := by
  refine ⟨hleast, hmost, ?_⟩
  unfold kMaxRetryDelayMs at hmost
  omega

/-- The range depends on the delay only. -/
theorem DelayInRange.of_same (h : s.DelayInRange) (hsame : s'.retryDelayMs = s.retryDelayMs) :
    s'.DelayInRange := .of_bounds (hsame ▸ h.least) (hsame ▸ h.most)

/-- No call of the connector takes the delay out of its range. -/
theorem ranged_framing : Framing Ranged where
  record _ _ h := h.of_same rfl
  queue _ _ _ _ h := h.of_same rfl
  polled _ _ _ h := h.of_same rfl
  state _ _ h := h.of_same rfl
  double s h := by
    have hleast := h.least
    refine .of_bounds (Nat.le_min.mpr ⟨?_, by decide⟩) (Nat.min_le_right _ _)
    omega
  timer _ _ h := h.of_same rfl
  fault _ _ h := h.of_same rfl

/-- No step takes the delay out of its range. -/
theorem DelayInRange.step (h : s.DelayInRange) {label : ConnectorLabel}
    (hs : s.step label = some s') : s'.DelayInRange := by
  cases step_spec hs with
  | startStore | stopStore | quit | queueStart | stopQueue | next | poll => exact h.of_same rfl
  | runStart => exact ranged_framing.after (ranged_framing.startInLoop _) _ (h.of_same rfl)
  | restart =>
    have hrestart : s.restarting.DelayInRange :=
      .of_bounds (le_refl _) (show kInitRetryDelayMs ≤ kMaxRetryDelayMs by decide)
    exact ranged_framing.after (ranged_framing.startInLoop _) _ hrestart
  | call => exact ranged_framing.after (ranged_framing.execute _ _) _ (h.of_same rfl)
  | handleEvent => exact ranged_framing.handleEvent _ _ _ (h.of_same rfl)
  | fire => exact ranged_framing.after (ranged_framing.connect _) _ (h.of_same rfl)

/-- What the connector's records look like in a process that has not ended. A registered channel is that
of a socket it holds, and any other is out of the poller and its socket is gone. -/
structure Coherent (s : ConnectorLoop) : Prop where
  nodup : (held s.log).Nodup
  added : ∀ c ∈ s.channel, c.index = .kAdded → c.fd ∈ held s.log
  removed : ∀ c ∈ s.channel, c.index ≠ .kAdded →
    c.index = .kNew ∧ s.poller.interest c.fd = none ∧ c.fd ∉ held s.log
  active : s.active ≠ none → (∃ b, s.loop.pc = .handling b) ∧ ∃ c ∈ s.channel, c.index = .kAdded

/-- What does not touch the channel and the sockets keeps the records. -/
theorem Coherent.of_same (h : s.Coherent) (hchannel : s'.channel = s.channel)
    (hpoller : s'.poller = s.poller) (hheld : held s'.log = held s.log)
    (hactive : s'.active ≠ none → s.active ≠ none ∧
      ((∃ b, s.loop.pc = .handling b) → ∃ b, s'.loop.pc = .handling b)) : s'.Coherent := by
  refine ⟨hheld ▸ h.nodup, ?_, ?_, fun hne => ?_⟩
  · rw [hchannel, hheld]
    exact h.added
  · rw [hchannel, hheld, hpoller]
    exact h.removed
  · obtain ⟨hne, hpc⟩ := hactive hne
    rw [hchannel]
    exact ⟨hpc (h.active hne).1, (h.active hne).2⟩

/-- An event waits only for a channel. -/
theorem Coherent.active_eq_none (h : s.Coherent) (hindex : ∀ c ∈ s.channel, c.index ≠ .kAdded) :
    s.active = none := by
  by_contra hne
  obtain ⟨-, c, hc, hadded⟩ := h.active hne
  exact hindex c hc hadded

/-- Behind an attempt whose socket is gone. -/
theorem coherent_of_removed (hnodup : (held s.log).Nodup) (hchannel : s.channel = some c)
    (hindex : c.index = .kNew) (hset : s.poller.interest c.fd = none) (hgone : c.fd ∉ held s.log)
    (hactive : s.active = none) : s.Coherent := by
  refine ⟨hnodup, fun d hd hadded => ?_, fun d hd _ => ?_, fun hne => absurd hactive hne⟩
  · obtain rfl := Option.some.inj (hchannel.symm.trans hd)
    rw [hindex] at hadded
    contradiction
  · obtain rfl := Option.some.inj (hchannel.symm.trans hd)
    exact ⟨hindex, hset, hgone⟩

/-- `connecting` with a channel that is still there. -/
theorem exec_connecting_channelSet {fd : ℕ} (hchannel : s.channel ≠ none) :
    exec (connecting a fd) s = (.error .channelSet, { s with state := .kConnecting }) := by
  have hsome : s.channel.isSome = true := Option.isSome_iff_ne_none.mpr hchannel
  unfold connecting
  rw [exec_bind_ok (exec_modify _ _), exec_bind_ok (exec_get _)]
  simp only [hsome, if_true]
  exact exec_bind_error (exec_throw _ _) _

/-- The delay with which a step begins. -/
def delayBefore (s : ConnectorLoop) : ConnectorLabel → ℕ
  | .restart _ => kInitRetryDelayMs
  | _ => s.retryDelayMs

/-- What a step leaves that began with the delay `d`: coherent records and the delay, doubled behind a
failed attempt, unless the process has ended; and a failed attempt has not ended it and has scheduled its
retry with `d`. -/
structure Outcome (d : ℕ) (failed : Bool) (s' : ConnectorLoop) : Prop where
  coherent : s'.fault = none → s'.Coherent
  delay : s'.fault = none → s'.retryDelayMs = if failed then min (d * 2) kMaxRetryDelayMs else d
  retried : failed = true → s'.fault = none ∧ s'.functors.getLast? = some (.insertTimer d)

/-- The process has ended without a failed attempt. -/
theorem Outcome.of_fault {d : ℕ} (hfault : s'.fault ≠ none) : Outcome d false s' :=
  ⟨fun h => absurd h hfault, fun h => absurd h hfault, fun h => by contradiction⟩

/-- Nothing has failed. -/
theorem Outcome.of_coherent {d : ℕ} (h : s'.Coherent) (hdelay : s'.retryDelayMs = d) :
    Outcome d false s' :=
  ⟨fun _ => h, fun _ => hdelay, fun h => by contradiction⟩

/-- `connect` that does not fail at once. -/
theorem Coherent.connect (h : s.Coherent) (hadmits : s.admits a)
    (hnot : (a.socket.isSome && decide (a.connect ∈ retryErrnos)) = false) :
    Outcome s.retryDelayMs false (s.after (connect a)) := by
  cases hsocket : a.socket with
  | none =>
    rw [after_of_error (exec_connect_fatal hsocket)]
    exact .of_fault (by simp)
  | some fd =>
    obtain ⟨hheld, hset⟩ := hadmits fd hsocket
    have hretry : a.connect ∉ retryErrnos := by simpa [hsocket] using hnot
    by_cases herrno : a.connect ∈ connectingErrnos
    · have hexec := exec_connect_connecting (s := s) hsocket herrno
      by_cases hchannel : s.channel = none
      · rw [after_of_ok (hexec.trans
          (exec_connecting (s := s.created fd) hchannel List.mem_cons_self hset))]
        refine .of_coherent ⟨List.nodup_cons.mpr ⟨hheld, h.nodup⟩, fun c hc _ => ?_,
          fun c hc hindex => ?_, fun hne => ?_⟩ rfl
        · obtain rfl := Option.some.inj hc
          exact List.mem_cons_self
        · obtain rfl := Option.some.inj hc
          exact absurd rfl hindex
        · exact absurd (h.active_eq_none fun c hc => by simp [hchannel] at hc) hne
      · rw [after_of_error (hexec.trans (exec_connecting_channelSet (s := s.created fd) hchannel))]
        exact .of_fault (by simp)
    · rw [after_of_ok (exec_connect_close hsocket herrno hretry)]
      have hheld : held (.close fd :: .socket fd :: .attempt :: s.log) = held s.log :=
        List.erase_cons_head fd (held s.log)
      exact .of_coherent (h.of_same rfl rfl hheld fun hne => ⟨hne, id⟩) rfl

/-- `startInLoop` that does not fail at once. -/
theorem Coherent.startInLoop (h : s.Coherent) (hadmits : s.admits a)
    (hnot : s.state = .kDisconnected → s.connect_ = true →
      (a.socket.isSome && decide (a.connect ∈ retryErrnos)) = false) :
    Outcome s.retryDelayMs false (s.after (startInLoop a)) := by
  by_cases hstate : s.state = .kDisconnected
  · cases hconnect : s.connect_ with
    | true =>
      rw [after_startInLoop hstate hconnect]
      exact h.connect hadmits (hnot hstate hconnect)
    | false =>
      have hexec := exec_startInLoop (a := a) hstate
      rw [if_neg (by simp [hconnect])] at hexec
      rw [after_of_ok hexec]
      exact .of_coherent h rfl
  · rw [after_of_error (exec_startInLoop_fault hstate)]
    exact .of_fault (by simp)

/-- The retry is the last functor that was queued. -/
theorem getLast_scheduled (s : ConnectorLoop) (fd delayMs : ℕ) :
    (s.scheduled fd delayMs).functors.getLast? = some (.insertTimer delayMs) := by
  have hlast : (s.scheduled fd delayMs).functors = s.functors ++ [.insertTimer delayMs] :=
    functors_enqueue s s.starts (.insertTimer delayMs)
  rw [hlast, List.getLast?_concat]

/-- Behind `retry` with a channel that was taken out and a socket that is gone: the number was open again
and the retry is scheduled, or the process has ended. -/
theorem retry_gone (hfault : s.fault = none) (hnodup : (held s.log).Nodup) (hchannel : s.channel = some c)
    (hindex : c.index = .kNew) (hset : s.poller.interest c.fd = none) (hgone : c.fd ∉ held s.log)
    (hactive : s.active = none) (d : ℕ) :
    (a.reused = false ∧ (s.after (retry a d)).fault ≠ none) ∨
      (a.reused = true ∧ s.after (retry a d) = (s.detached c [.del, .add]).scheduled c.fd d ∧
        (s.after (retry a d)).fault = none ∧ (s.after (retry a d)).Coherent) := by
  cases hreused : a.reused with
  | false =>
    have hclosed : ¬ s.open_ a c.fd := by simp [open_, hgone, hreused]
    refine .inl ⟨rfl, ?_⟩
    rw [after_of_error (exec_retry_error (exec_removeAndResetChannel_closed hchannel hindex hclosed))]
    simp
  | true =>
    have hafter : s.after (retry a d) = (s.detached c [.del, .add]).scheduled c.fd d :=
      after_of_ok (exec_retry (exec_removeAndResetChannel_new hchannel hindex hset (.inr hreused)))
    have hheld : held ((s.detached c [.del, .add]).scheduled c.fd d).log = held s.log :=
      List.erase_of_not_mem hgone
    refine .inr ⟨rfl, hafter, by rw [hafter]; exact hfault, ?_⟩
    rw [hafter]
    exact coherent_of_removed (hheld ▸ hnodup) rfl rfl (Function.update_self _ _ _) (hheld ▸ hgone) hactive

/-- A socket that was closed is gone. -/
theorem Coherent.gone (h : s.Coherent) (fd : ℕ) :
    ((held s.log).erase fd).Nodup ∧ fd ∉ (held s.log).erase fd :=
  ⟨h.nodup.erase fd, fun hmem => (h.nodup.mem_erase_iff.mp hmem).1 rfl⟩

/-- `stopInLoop` that does not double the delay. -/
theorem Coherent.stopInLoop (h : s.Coherent) (hfault : s.fault = none) (hactive : s.active = none)
    (hmost : s.state = .kConnecting → a.reused = true → s.retryDelayMs = kMaxRetryDelayMs) :
    Outcome s.retryDelayMs false (s.after (stopInLoop a)) := by
  by_cases hstate : s.state = .kConnecting
  swap
  · rw [after_of_ok (exec_stopInLoop_other hstate)]
    exact .of_coherent h rfl
  -- behind the first `removeAndResetChannel`, from either kind of channel
  have hretry (s₁ : ConnectorLoop) (c : Channel) (hafter : s.after (ConnectorLoop.stopInLoop a) =
        s₁.after (retry a s.retryDelayMs)) (hfault₁ : s₁.fault = none)
      (hnodup : (held s₁.log).Nodup) (hchannel : s₁.channel = some c) (hindex : c.index = .kNew)
      (hset : s₁.poller.interest c.fd = none) (hgone : c.fd ∉ held s₁.log)
      (hactive₁ : s₁.active = none) (hdelay : s₁.retryDelayMs = s.retryDelayMs) :
      Outcome s.retryDelayMs false (s.after (ConnectorLoop.stopInLoop a)) := by
    rw [hafter]
    rcases retry_gone (a := a) hfault₁ hnodup hchannel hindex hset hgone hactive₁ s.retryDelayMs with
      ⟨-, hended⟩ | ⟨hreused, hscheduled, -, hcoherent⟩
    · exact .of_fault hended
    · refine .of_coherent hcoherent ?_
      rw [hscheduled]
      change min (s₁.retryDelayMs * 2) kMaxRetryDelayMs = s.retryDelayMs
      rw [hdelay, hmost hstate hreused]
      rfl
  cases hchannel : s.channel with
  | none =>
    rw [after_of_error (exec_stopInLoop_none hstate hchannel)]
    exact .of_fault (by simp)
  | some c =>
    by_cases hindex : c.index = .kAdded
    · obtain ⟨hnodup, hgone⟩ := h.gone c.fd
      exact hretry _ { c with events := kNoneEvent, index := .kNew }
        (after_stopInLoop_added hstate hchannel hindex) hfault hnodup rfl rfl
        (Function.update_self _ _ _) hgone hactive rfl
    · obtain ⟨hnew, hset, hgone⟩ := h.removed c hchannel hindex
      by_cases hopen : s.open_ a c.fd
      · have hheld : held (.close c.fd :: .epollCtl .del c.fd :: .epollCtl .add c.fd :: s.log) =
            held s.log := List.erase_of_not_mem hgone
        exact hretry _ { c with events := kNoneEvent, index := .kNew }
          (after_stopInLoop hstate (exec_removeAndResetChannel_new
            (s := { s with state := .kDisconnected }) hchannel hnew hset hopen)) hfault
          (hheld.symm ▸ h.nodup) rfl rfl (Function.update_self _ _ _) (hheld.symm ▸ hgone) hactive rfl
      · have hremove : exec (removeAndResetChannel a) { s with state := .kDisconnected } =
            (.error .fatal, { s with state := .kDisconnected, log := .epollCtl .add c.fd :: s.log }) :=
          exec_removeAndResetChannel_closed (s := { s with state := .kDisconnected }) hchannel hnew hopen
        rw [after_stopInLoop_error hstate hremove]
        exact .of_fault (by simp)

/-- `handleError` on the attempt whose descriptor is the delay. -/
theorem Coherent.handleError (h : s.Coherent) (hfault : s.fault = none) (hactive : s.active = none)
    (hstate : s.state = .kConnecting) (hchannel : s.channel = some c) (hindex : c.index = .kAdded)
    (hdelay : c.fd = s.retryDelayMs) : Outcome s.retryDelayMs true (s.after (handleError a)) := by
  obtain ⟨hnodup, hgone⟩ := h.gone c.fd
  rw [after_of_ok (exec_handleError_added hstate hchannel hindex (h.added c hchannel hindex))]
  refine ⟨fun _ => ?_, fun _ => rfl, fun _ => ⟨hfault, ?_⟩⟩
  · exact coherent_of_removed hnodup rfl rfl (Function.update_self _ _ _) hgone hactive
  · rw [getLast_scheduled, hdelay]

/-- `handleWrite` on an attempt. -/
theorem Coherent.handleWrite (h : s.Coherent) (hfault : s.fault = none) (hactive : s.active = none)
    (hstate : s.state = .kConnecting) (hchannel : s.channel = some c) (hindex : c.index = .kAdded)
    (htimed : if a.refused = true then a.reused = true else s.connect_ = false → a.reused = true →
      s.retryDelayMs = kMaxRetryDelayMs) :
    Outcome s.retryDelayMs a.refused (s.after (handleWrite a)) := by
  obtain ⟨hnodup, hgone⟩ := h.gone c.fd
  cases hrefused : a.refused with
  | true =>
    have hreused : a.reused = true := by simpa [hrefused] using htimed
    have herror : a.soError ≠ 0 ∨ a.selfConnect = true := by
      simpa [SystemAnswers.refused] using hrefused
    rw [after_handleWrite_failed hstate hchannel hindex herror]
    rcases retry_gone (s := (s.detached c [.del]).closed c.fd) (a := a) hfault hnodup rfl rfl
        (Function.update_self _ _ _) hgone hactive s.retryDelayMs with
      ⟨hclosed, -⟩ | ⟨-, hscheduled, hgoes, hcoherent⟩
    · rw [hreused] at hclosed
      contradiction
    · refine ⟨fun _ => hcoherent, fun _ => ?_, fun _ => ⟨hgoes, ?_⟩⟩
      · rw [hscheduled]
        rfl
      · rw [hscheduled, getLast_scheduled]
  | false =>
    have hsuccess : ¬ (a.soError ≠ 0 ∨ a.selfConnect = true) := by
      simpa [SystemAnswers.refused] using hrefused
    rw [not_or, not_not, Bool.not_eq_true] at hsuccess
    cases hconnect : s.connect_ with
    | true =>
      rw [after_of_ok (exec_handleWrite_success hstate hchannel hindex hsuccess.1 hsuccess.2 hconnect)]
      exact .of_coherent
        (coherent_of_removed hnodup rfl rfl (Function.update_self _ _ _) hgone hactive) rfl
    | false =>
      rw [after_handleWrite_unwanted hstate hchannel hindex
        (by simp [hsuccess.1, hsuccess.2]) hconnect]
      rcases retry_gone (a := a)
          (s := ({ s.detached c [.del] with state := .kConnected } : ConnectorLoop).closed c.fd) hfault
          hnodup rfl rfl (Function.update_self _ _ _) hgone hactive s.retryDelayMs with
        ⟨-, hended⟩ | ⟨hreused, hscheduled, -, hcoherent⟩
      · exact .of_fault hended
      · refine .of_coherent hcoherent ?_
        have hmost : s.retryDelayMs = kMaxRetryDelayMs := by
          rw [hrefused, if_neg Bool.false_ne_true] at htimed
          exact htimed hconnect hreused
        rw [hscheduled]
        change min (s.retryDelayMs * 2) kMaxRetryDelayMs = s.retryDelayMs
        rw [hmost]
        rfl

/-- The event of the channel. -/
theorem Coherent.handleEvent (h : s.Coherent) (hfault : s.fault = none) {revents : Mask}
    (hactive : s.active = some revents)
    (herror : s.errorEvent = true → ∀ c ∈ s.channel, c.fd = s.retryDelayMs)
    (hwrite : s.writeEvent = true → if a.refused = true then a.reused = true
      else s.connect_ = false → a.reused = true → s.retryDelayMs = kMaxRetryDelayMs) :
    Outcome s.retryDelayMs (s.errorEvent || (s.writeEvent && a.refused))
      (({ s with active := none } : ConnectorLoop).after (handleEventWithGuard a revents)) := by
  obtain ⟨-, c, hchannel, hindex⟩ := h.active (by simp [hactive])
  set s₁ : ConnectorLoop := { s with active := none }
  have h₁ : s₁.Coherent := h.of_same rfl rfl rfl fun hne => absurd rfl hne
  have herrorEvent : s.errorEvent = (s.state == .kConnecting && hasAny revents EPOLLERR) := by
    simp [errorEvent, hactive]
  have hwriteEvent : s.writeEvent = (s.state == .kConnecting && writes revents) := by
    simp [writeEvent, hactive]
  rw [herrorEvent] at herror ⊢
  rw [hwriteEvent] at hwrite ⊢
  rcases after_handleEventWithGuard_cases s₁ a revents with
    ⟨herr, hafter⟩ | ⟨herr, hwrites, hafter⟩ | ⟨herr, hwrites, hafter | hafter⟩ <;>
    rw [hafter, herr]
  · by_cases hstate : s.state = .kConnecting
    · have hconnecting : (s.state == .kConnecting) = true := beq_iff_eq.mpr hstate
      rw [hconnecting]
      exact h₁.handleError hfault rfl hstate hchannel hindex
        (herror (by simp [hconnecting, herr]) c hchannel)
    · have hother : (s.state == .kConnecting) = false := beq_false_of_ne hstate
      rw [hother, after_of_ok (exec_handleError_other (s := s₁) hstate)]
      exact .of_coherent h₁ rfl
  · by_cases hstate : s.state = .kConnecting
    · have hconnecting : (s.state == .kConnecting) = true := beq_iff_eq.mpr hstate
      rw [hconnecting, hwrites]
      exact h₁.handleWrite hfault rfl hstate hchannel hindex (hwrite (by simp [hconnecting, hwrites]))
    · have hother : (s.state == .kConnecting) = false := beq_false_of_ne hstate
      rw [hother, after_of_ok (exec_handleWrite_other (s := s₁) hstate)]
      exact .of_coherent h₁ rfl
  · rw [hwrites, Bool.and_false, Bool.false_and]
    exact .of_coherent h₁ rfl
  · rw [hwrites, Bool.and_false, Bool.false_and]
    exact .of_fault (by simp)

/-- The step of the loop thread keeps the records as far as the loop goes. -/
theorem Coherent.next (h : s.Coherent) {m : EventLoop.Move} {loop : EventLoop ℕ ConnectorFunctor}
    (hhandled : m = .handled → s.active = none) (hnext : s.loop.next m = some loop) :
    ({ s with loop := loop } : ConnectorLoop).Coherent :=
  h.of_same rfl rfl rfl fun hne =>
    ⟨hne, fun hpc => handling_next (fun hm => hne (hhandled hm)) hnext hpc⟩

/-- A functor of a process that has not ended. -/
theorem Coherent.call (h : s.Coherent) (hfault : s.fault = none)
    {loop : EventLoop ℕ ConnectorFunctor} (hnext : s.loop.next .call = some loop) (hadmits : s.admits a)
    {functor : ConnectorFunctor} (hfunctor : s.nextFunctor = some functor)
    (htimed : BackoffHistory.WellTimed ⟨s, 0⟩ (.move .call a)) :
    Outcome s.retryDelayMs false (({ s with loop := loop } : ConnectorLoop).after (execute a functor)) := by
  obtain ⟨called, e, rest, hpc, -⟩ := EventLoop.next_spec hnext
  have hactive : s.active = none := by
    by_contra hne
    obtain ⟨⟨b, hhandling⟩, -⟩ := h.active hne
    rw [hpc] at hhandling
    contradiction
  have h₁ := h.next (fun hm => absurd hm (by decide)) hnext
  cases functor with
  | startInLoop =>
    refine h₁.startInLoop hadmits fun hstate hconnect => ?_
    simpa [failsAtOnce, callsConnect, hfunctor, show s.state = _ from hstate,
      show s.connect_ = _ from hconnect] using htimed.1
  | stopInLoop => exact h₁.stopInLoop hfault hactive fun hstate hreused => htimed.2 hfunctor hstate hreused
  | resetChannel =>
    exact .of_coherent ⟨h.nodup, fun c hc => (nomatch hc), fun c hc => (nomatch hc),
      fun hne => absurd hactive hne⟩ rfl
  | insertTimer delayMs => exact .of_coherent (h₁.of_same rfl rfl rfl fun hne => ⟨hne, id⟩) rfl

/-- The poll finds only a registered channel active. -/
theorem Coherent.poll (h : s.Coherent) {revents : Option Mask} {loop : EventLoop ℕ ConnectorFunctor}
    (hreports : s.reports revents) (hnext : s.loop.next .poll = some loop) :
    ({ s with loop := loop, active := revents } : ConnectorLoop).Coherent := by
  refine ⟨h.nodup, h.added, h.removed, fun hne => ⟨⟨_, by rw [(EventLoop.next_spec hnext).2]⟩, ?_⟩⟩
  obtain ⟨events, rfl⟩ := Option.ne_none_iff_exists'.mp hne
  obtain ⟨c, hc, entry, hentry, -⟩ := hreports
  refine ⟨c, hc, ?_⟩
  by_contra hindex
  exact absurd ((h.removed c hc hindex).2.1.symm.trans hentry) (by simp)

/-- A step without an event in which no attempt fails at once. -/
theorem fails_eq_false {label : ConnectorLabel} (hat : s.failsAtOnce label = false)
    (hlabel : ∀ a, label ≠ .handleEvent a) : s.fails label = false := by
  unfold fails
  rw [hat]
  cases label with
  | handleEvent a => exact absurd rfl (hlabel a)
  | startStore | startRun | stopStore | stopQueue | restart | move | poll | fire | quit => rfl

/-- What a well timed step leaves. -/
theorem Coherent.step {k : ℕ} {label : ConnectorLabel} (h : s.Coherent)
    (htimed : BackoffHistory.WellTimed ⟨s, k⟩ label) (hs : s.step label = some s') :
    Outcome (s.delayBefore label) (s.fails label) s' := by
  have hfault : s.fault = none := (Option.ite_none_right_eq_some.mp hs).1.1
  have hat : s.failsAtOnce label = false := htimed.1
  cases step_spec hs with
  | startStore | stopStore | quit | queueStart | stopQueue =>
    exact .of_coherent (h.of_same rfl rfl rfl fun hne => ⟨hne, id⟩) rfl
  | @runStart a hstarting hadmits =>
    have h₁ : Coherent { s with starting := s.starting - 1 } :=
      h.of_same rfl rfl rfl fun hne => ⟨hne, id⟩
    rw [fails_eq_false hat (by simp)]
    refine h₁.startInLoop hadmits fun hstate hconnect => ?_
    simpa [failsAtOnce, callsConnect, show s.state = _ from hstate,
      show s.connect_ = _ from hconnect] using hat
  | @restart a huser hadmits =>
    have h₁ : s.restarting.Coherent := h.of_same rfl rfl rfl fun hne => ⟨hne, id⟩
    rw [fails_eq_false hat (by simp)]
    exact h₁.startInLoop hadmits fun _ _ => by simpa [failsAtOnce, callsConnect] using hat
  | @call a loop functor hadmits hnext hfunctor =>
    rw [fails_eq_false hat (by simp)]
    exact h.call hfault hnext hadmits hfunctor htimed
  | @next m a loop hcall hhandled hnext =>
    rw [fails_eq_false hat (by simp)]
    exact .of_coherent (h.next hhandled hnext) rfl
  | @poll revents loop hreports hnext =>
    exact .of_coherent (h.poll hreports hnext) rfl
  | @handleEvent a revents b hpc hactive =>
    exact h.handleEvent hfault hactive htimed.2.1 htimed.2.2
  | @fire delayMs a b hpc hadmits hmem =>
    have h₁ : Coherent { s with timers := s.timers.erase delayMs } :=
      h.of_same rfl rfl rfl fun hne => ⟨hne, id⟩
    rw [fails_eq_false hat (by simp)]
    exact h₁.connect hadmits (by simpa [failsAtOnce, callsConnect] using hat)

end ConnectorLoop

namespace BackoffHistory

/-- The records are coherent and the delay is that of the next failed attempt, in a process that has not
ended. -/
structure BackoffInv (h : BackoffHistory) : Prop where
  coherent : h.connector.fault = none → h.connector.Coherent
  delay : h.connector.fault = none → h.connector.retryDelayMs = backoff h.failures

variable {h h' : BackoffHistory} {label : ConnectorLabel}

/-- The delay in front of a step is that of the next failed attempt. -/
theorem BackoffInv.delayBefore (hinv : h.BackoffInv) (hfault : h.connector.fault = none) :
    h.connector.delayBefore label = backoff (h.before label) := by
  cases label with
  | restart => exact show kInitRetryDelayMs = backoff 0 by decide
  | startStore | startRun | stopStore | stopQueue | move | poll | handleEvent | fire | quit =>
    exact hinv.delay hfault

/-- What a well timed step leaves, by the number of the failed attempt. -/
theorem BackoffInv.outcome (hinv : h.BackoffInv) (htimed : h.WellTimed label) {s' : ConnectorLoop}
    (hs : h.connector.step label = some s') :
    ConnectorLoop.Outcome (backoff (h.before label)) (h.connector.fails label) s' := by
  have hfault : h.connector.fault = none := (Option.ite_none_right_eq_some.mp hs).1.1
  exact hinv.delayBefore hfault ▸ (hinv.coherent hfault).step (k := h.failures) htimed hs

/-- A well timed step keeps the delay in step with the failed attempts. -/
theorem BackoffInv.step (hinv : h.BackoffInv) (htimed : h.WellTimed label)
    (hs : h.step label = some h') : h'.BackoffInv := by
  obtain ⟨s', hs', rfl⟩ := Option.map_eq_some_iff.mp hs
  have hout := hinv.outcome htimed hs'
  refine ⟨hout.coherent, fun hfault => (hout.delay hfault).trans ?_⟩
  cases h.connector.fails label with
  | true => exact (backoff_succ _).symm
  | false => rfl

/-- A well timed step in which an attempt fails schedules the retry of its number. -/
theorem BackoffInv.backsOff (hinv : h.BackoffInv) (htimed : h.WellTimed label)
    (hs : h.step label = some h') : h.BacksOff label := by
  intro hfails
  obtain ⟨s', hs', rfl⟩ := Option.map_eq_some_iff.mp hs
  obtain ⟨hgoes, hlast⟩ := (hinv.outcome htimed hs').retried hfails
  rw [hs']
  simp [hgoes, hlast]

end BackoffHistory

/-- `retryDelayMs_` stays in its range and its doubling in that of an `int`, in every run; and in every
run of well timed steps the `k`-th failed attempt since construction or the last restart schedules its
retry with the `k`-th delay. -/
theorem retries_backOff (labels : List ConnectorLabel) :
    Everywhere ConnectorLoop.step ConnectorLoop.DelayInRange .constructed labels ∧
      (Along BackoffHistory.step BackoffHistory.WellTimed .constructed labels →
        Along BackoffHistory.step BackoffHistory.BacksOff .constructed labels) := by
  constructor
  · refine everywhere_of_invariant (I := ConnectorLoop.DelayInRange) (fun _ hs => hs)
      (fun _ _ _ hs hstep => hs.step hstep) ?_ labels
    exact .of_bounds (le_refl _) (show kInitRetryDelayMs ≤ kMaxRetryDelayMs by decide)
  · refine along_of_along (I := BackoffHistory.BackoffInv) (fun _ _ _ hh htimed hstep =>
      hh.step htimed hstep) (fun _ _ _ hh htimed hstep => hh.backsOff htimed hstep)
      ⟨fun _ => ?_, fun _ => by decide⟩
    exact ⟨List.nodup_nil, fun c hc => (nomatch hc), fun c hc => (nomatch hc), fun hne => absurd rfl hne⟩

/-- An error event on descriptor 500 schedules the first retry in 500 milliseconds. -/
theorem retries_backOff_fd_500 :
    Along BackoffHistory.step BackoffHistory.BacksOff .constructed
      [.startStore, .startRun true (.connects 500 EINPROGRESS), .move .enter .silent, .move .test .silent,
        .poll (some EPOLLERR), .handleEvent .silent] :=
  (retries_backOff _).2 (by decide +kernel)

/-- An error event on descriptor 7 schedules the first retry in 7 milliseconds. -/
theorem retry_after_fd :
    ¬ Along BackoffHistory.step BackoffHistory.BacksOff .constructed
      [.startStore, .startRun true (.connects 7 EINPROGRESS), .move .enter .silent, .move .test .silent,
        .poll (some EPOLLERR), .handleEvent .silent] := by
  decide +kernel

end CcMuduo
