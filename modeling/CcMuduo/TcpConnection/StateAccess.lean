import CcMuduo.Foundation.Run
import CcMuduo.TcpConnection.Outcome

/-!
# The accesses to `state_`

`state_` is atomic, and each function that touches it makes at most one load and one store: the
closing path of the loop thread stores without looking, `shutdown` and `connectDestroyed` load,
test, and then store. Between the load and the store of one thread every other thread may access
the state. So a `shutdown` that saw `kConnected` may store `kDisconnecting` over the `kDisconnected`
of a close that came in between; without such a store the state only moves forward.
-/

namespace CcMuduo

open Foundation

/-- The thread that accesses the state. -/
inductive Accessor (ι : Type*) where
  | loop
  | user (i : ι)
  deriving DecidableEq

/-- The functions that begin with a load of `state_`. -/
inductive StateTest where
  | send
  | shutdown
  | sendInLoop
  | handleWrite
  | connectDestroyed
  deriving DecidableEq, Repr

namespace StateTest

/-- The functions that only the loop thread runs. -/
def onLoop : StateTest → Bool
  | .send | .shutdown => false
  | .sendInLoop | .handleWrite | .connectDestroyed => true

/-- What the function stores into `state_` when it has loaded `loaded`. -/
def stores (loaded : StateE) : StateTest → Option StateE
  | .shutdown => if loaded = .kConnected then some .kDisconnecting else none
  | .connectDestroyed => if loaded = .kConnected then some .kDisconnected else none
  | .send | .sendInLoop | .handleWrite => none

end StateTest

/-- The accesses. `test` is the load a function begins with, and `proceed` its branch on the loaded
value, with the store if the branch has one. -/
inductive AccessLabel (ι : Type*) where
  | connectEstablished
  | handleClose
  | test (who : Accessor ι) (call : StateTest)
  | proceed (who : Accessor ι)
  deriving DecidableEq

/-- `state_` with the functions that are between their load and their branch. `established` says that
`connectEstablished` has begun: the loop thread runs it once, before everything else it does to the
connection. -/
structure SharedState (ι : Type*) where
  state : StateE
  established : Bool
  loaded : Accessor ι → Option (StateTest × StateE)

namespace SharedState

variable {ι : Type*} [DecidableEq ι]

/-- The connection behind its constructor. -/
def constructed : SharedState ι := ⟨.kConnecting, false, fun _ => none⟩

/-- One access. -/
def step (s : SharedState ι) : AccessLabel ι → Option (SharedState ι)
  | .connectEstablished =>
    if s.established = false ∧ s.loaded .loop = none then
      some { s with state := .kConnected, established := true }
    else none
  | .handleClose =>
    if s.established = true ∧ s.loaded .loop = none then some { s with state := .kDisconnected }
    else none
  | .test who call =>
    if s.loaded who = none ∧ (call.onLoop = true → who = .loop ∧ s.established = true) then
      some { s with loaded := Function.update s.loaded who (some (call, s.state)) }
    else none
  | .proceed who =>
    (s.loaded who).map fun (call, value) =>
      { s with state := (call.stores value).getD s.state, loaded := Function.update s.loaded who none }

/-- May the state go from the one to the other? -/
def follows : StateE → StateE → Bool
  | .kConnecting, .kConnected => true
  | .kConnected, .kDisconnecting => true
  | .kConnected, .kDisconnected => true
  | .kDisconnecting, .kDisconnected => true
  | a, b => a == b

/-- The access leaves the state where it was or moves it forward. -/
def MovesForward (s : SharedState ι) (label : AccessLabel ι) : Prop :=
  (s.step label).all (fun s' => follows s.state s'.state) = true

instance (s : SharedState ι) (label : AccessLabel ι) : Decidable (s.MovesForward label) :=
  inferInstanceAs (Decidable (_ = true))

/-- The access is not the store of a `shutdown` behind a close that came after its test. -/
def NotOvertaken (s : SharedState ι) (label : AccessLabel ι) : Prop :=
  ∀ who, label = .proceed who → s.loaded who = some (.shutdown, .kConnected) →
    s.state ≠ .kDisconnected

/-- What every access keeps: before `connectEstablished` the state is `kConnecting` and nobody has seen
another one, and from then on it is not `kConnecting`. -/
structure Begins (s : SharedState ι) : Prop where
  fresh : s.established = false →
    s.state = .kConnecting ∧ ∀ who call value, s.loaded who = some (call, value) → value = .kConnecting
  begun : s.established = true → s.state ≠ .kConnecting

/-- A function stores only when it has seen `kConnected`. -/
theorem stores_eq_some {call : StateTest} {value state : StateE} (h : call.stores value = some state) :
    value = .kConnected ∧
      (call = .shutdown ∧ state = .kDisconnecting ∨ call = .connectDestroyed ∧ state = .kDisconnected) := by
  unfold StateTest.stores at h
  cases call with
  | send | sendInLoop | handleWrite => contradiction
  | shutdown =>
    obtain ⟨hvalue, hstate⟩ := Option.ite_none_right_eq_some.mp h
    exact ⟨hvalue, .inl ⟨rfl, (Option.some.inj hstate).symm⟩⟩
  | connectDestroyed =>
    obtain ⟨hvalue, hstate⟩ := Option.ite_none_right_eq_some.mp h
    exact ⟨hvalue, .inr ⟨rfl, (Option.some.inj hstate).symm⟩⟩

/-- What an access can do. -/
theorem step_cases {s s' : SharedState ι} {label : AccessLabel ι} (h : s.step label = some s') :
    (label = .connectEstablished ∧ s.established = false ∧
        s' = { s with state := .kConnected, established := true }) ∨
      (label = .handleClose ∧ s.established = true ∧ s' = { s with state := .kDisconnected }) ∨
      (∃ who call, label = .test who call ∧
        s' = { s with loaded := Function.update s.loaded who (some (call, s.state)) }) ∨
      (∃ who call value, label = .proceed who ∧ s.loaded who = some (call, value) ∧
        s' = { s with
          state := (call.stores value).getD s.state
          loaded := Function.update s.loaded who none }) := by
  cases label with
  | connectEstablished =>
    obtain ⟨hif, hs'⟩ := Option.ite_none_right_eq_some.mp h
    exact .inl ⟨rfl, hif.1, (Option.some.inj hs').symm⟩
  | handleClose =>
    obtain ⟨hif, hs'⟩ := Option.ite_none_right_eq_some.mp h
    exact .inr (.inl ⟨rfl, hif.1, (Option.some.inj hs').symm⟩)
  | test who call =>
    obtain ⟨-, hs'⟩ := Option.ite_none_right_eq_some.mp h
    exact .inr (.inr (.inl ⟨who, call, rfl, (Option.some.inj hs').symm⟩))
  | proceed who =>
    obtain ⟨⟨call, value⟩, hloaded, hs'⟩ := Option.map_eq_some_iff.mp h
    exact .inr (.inr (.inr ⟨who, call, value, rfl, hloaded, hs'.symm⟩))

/-- What the functions have loaded is not changed by the start of one and the end of another. -/
theorem loaded_of_update {s : SharedState ι} {who other : Accessor ι} {call : StateTest} {value : StateE}
    (h : Function.update s.loaded who none other = some (call, value)) :
    s.loaded other = some (call, value) := by
  by_cases hwho : other = who
  · rw [hwho, Function.update_self] at h
    contradiction
  · rwa [Function.update_of_ne hwho] at h

/-- Every access keeps the beginning in order. -/
theorem Begins.step {s s' : SharedState ι} {label : AccessLabel ι} (h : s.Begins)
    (hstep : s.step label = some s') : s'.Begins := by
  obtain ⟨-, -, rfl⟩ | ⟨-, hestablished, rfl⟩ | ⟨who, call, -, rfl⟩ | ⟨who, call, value, -, hloaded, rfl⟩ :=
    step_cases hstep
  · exact ⟨fun hf => by contradiction, fun _ => by simp⟩
  · exact ⟨fun hf => absurd (hestablished.symm.trans hf) (by decide), fun _ => by simp⟩
  · refine ⟨fun hf => ⟨(h.fresh hf).1, fun other c v hother => ?_⟩, h.begun⟩
    by_cases hwho : other = who
    · simp only [hwho, Function.update_self, Option.some.injEq, Prod.mk.injEq] at hother
      exact hother.2.symm.trans (h.fresh hf).1
    · exact (h.fresh hf).2 other c v ((Function.update_of_ne hwho _ _).symm.trans hother)
  · cases hstores : call.stores value with
    | none =>
      exact ⟨fun hf => ⟨(h.fresh hf).1, fun other c v hother =>
        (h.fresh hf).2 other c v (loaded_of_update hother)⟩, h.begun⟩
    | some state =>
      obtain ⟨hvalue, hstate⟩ := stores_eq_some hstores
      refine ⟨fun hf => ?_, fun _ => ?_⟩
      · exact absurd (hvalue.symm.trans ((h.fresh hf).2 who call value hloaded)) (by decide)
      · rcases hstate with ⟨-, rfl⟩ | ⟨-, rfl⟩ <;> simp

omit [DecidableEq ι] in
/-- A function that has seen `kConnected` has not seen the beginning. -/
theorem Begins.of_loaded {s : SharedState ι} {who : Accessor ι} {call : StateTest} (h : s.Begins)
    (hloaded : s.loaded who = some (call, .kConnected)) : s.state ≠ .kConnecting := by
  cases hestablished : s.established with
  | true => exact h.begun hestablished
  | false =>
    have hvalue := (h.fresh hestablished).2 who call .kConnected hloaded
    contradiction

omit [DecidableEq ι] in
/-- A state follows itself. -/
theorem follows_refl (state : StateE) : follows state state = true := by
  cases state <;> rfl

/-- An access moves the state forward exactly when it is not an overtaken store. -/
theorem Begins.movesForward_iff {s s' : SharedState ι} {label : AccessLabel ι} (h : s.Begins)
    (hstep : s.step label = some s') : s.MovesForward label ↔ s.NotOvertaken label := by
  simp only [MovesForward, hstep, Option.all_some]
  obtain ⟨rfl, hestablished, rfl⟩ | ⟨rfl, hestablished, rfl⟩ | ⟨who, call, rfl, rfl⟩ |
    ⟨who, call, value, rfl, hloaded, rfl⟩ := step_cases hstep
  · refine ⟨fun _ who hlabel => by contradiction, fun _ => ?_⟩
    rw [(h.fresh hestablished).1]
    rfl
  · refine ⟨fun _ who hlabel => by contradiction, fun _ => ?_⟩
    have hbegun := h.begun hestablished
    cases hstate : s.state <;> first | rfl | contradiction
  · exact ⟨fun _ other hlabel => by contradiction, fun _ => follows_refl s.state⟩
  · cases hstores : call.stores value with
    | none =>
      refine ⟨fun _ other hlabel hseen => ?_, fun _ => follows_refl s.state⟩
      obtain rfl := AccessLabel.proceed.inj hlabel
      obtain ⟨rfl, rfl⟩ := Prod.mk.inj (Option.some.inj (hloaded.symm.trans hseen))
      contradiction
    | some state =>
      obtain ⟨rfl, hcase⟩ := stores_eq_some hstores
      have hbegun := h.of_loaded hloaded
      rcases hcase with ⟨rfl, rfl⟩ | ⟨rfl, rfl⟩
      · refine ⟨fun hfollows other hlabel _ => ?_, fun hnot => ?_⟩
        · intro hdown
          rw [hdown] at hfollows
          contradiction
        · have hdown := hnot who rfl hloaded
          cases hstate : s.state <;> first | rfl | contradiction
      · refine ⟨fun _ other hlabel hseen => ?_, fun _ => ?_⟩
        · obtain rfl := AccessLabel.proceed.inj hlabel
          simp [hloaded] at hseen
        · cases hstate : s.state <;> first | rfl | contradiction

/-- The accesses of two threads in which a `shutdown` is overtaken by the close of the loop thread. -/
def overtaken : List (AccessLabel Unit) :=
  [.connectEstablished, .test (.user ()) .shutdown, .handleClose, .proceed (.user ())]

end SharedState

/-- In every interleaving of the accesses of any number of threads, the state only moves forward
exactly when no `shutdown` stores behind a close that came after its test. -/
theorem state_forward_iff {ι : Type*} [DecidableEq ι] (labels : List (AccessLabel ι)) :
    Along SharedState.step SharedState.MovesForward .constructed labels ↔
      Along SharedState.step SharedState.NotOvertaken .constructed labels := by
  have hstart : (SharedState.constructed : SharedState ι).Begins :=
    ⟨fun _ => ⟨rfl, fun who call value h => by contradiction⟩, fun h => by contradiction⟩
  have hkeep (s : SharedState ι) (label : AccessLabel ι) (s' : SharedState ι) (hs : s.Begins)
      (hstep : s.step label = some s') : s'.Begins := hs.step hstep
  constructor
  · exact along_of_along (I := SharedState.Begins) (fun s label s' hs _ hstep => hkeep s label s' hs hstep)
      (fun s label s' hs hc hstep => (hs.movesForward_iff hstep).mp hc) hstart
  · exact along_of_along (I := SharedState.Begins) (fun s label s' hs _ hstep => hkeep s label s' hs hstep)
      (fun s label s' hs hc hstep => (hs.movesForward_iff hstep).mpr hc) hstart

/-- The overtaken `shutdown` takes the connection out of `kDisconnected` again. -/
theorem overtaken_shutdown_reopens :
    ¬ Along SharedState.step SharedState.MovesForward .constructed SharedState.overtaken := by
  decide

/-! ## The functions run without interruption

Their accesses are those of the connection's functions on the loop thread. -/

namespace Io

variable {s s' : Io}

/-- `shutdown` leaves in `state_` what its test and store leave. -/
theorem shutdown_state (s : Io) :
    s.shutdown.conn.state = (StateTest.shutdown.stores s.conn.state).getD s.conn.state := by
  unfold shutdown StateTest.stores
  split
  · unfold shutdownInLoop
    split <;> rfl
  · rfl

/-- So does `connectDestroyed`. -/
theorem notifyDestroyed_state (h : s.notifyDestroyed = .ok s') :
    s'.conn.state = (StateTest.connectDestroyed.stores s.conn.state).getD s.conn.state := by
  unfold notifyDestroyed at h
  unfold StateTest.stores
  split at h
  · rename_i hstate
    obtain ⟨s₁, hs₁, hret⟩ := bind_eq_ok.mp h
    obtain ⟨⟨p, c⟩, -, hret₁⟩ := bind_eq_ok.mp hs₁
    obtain rfl := Except.ok.inj hret
    obtain rfl := Except.ok.inj hret₁
    simp only [hstate, if_true]
    rfl
  · rename_i hstate
    obtain rfl := Except.ok.inj h
    simp only [hstate, if_false]
    rfl

/-- `handleClose` stores `kDisconnected`, and nothing else touches the state before its callbacks. -/
theorem handleClose_state (h : s.handleClose = .ok s') : s'.conn.state = .kDisconnected := by
  obtain ⟨s₁, hs₁, hret⟩ := bind_eq_ok.mp h
  obtain ⟨⟨p, c⟩, -, hret₁⟩ := bind_eq_ok.mp hs₁
  obtain rfl := Except.ok.inj hret
  obtain rfl := Except.ok.inj hret₁
  rfl

/-- `connectEstablished` stores `kConnected`. -/
theorem connectEstablished_state (h : s.connectEstablished = .ok s') : s'.conn.state = .kConnected := by
  obtain ⟨s₁, hs₁, hret⟩ := bind_eq_ok.mp h
  obtain ⟨⟨p, c⟩, -, hret₁⟩ := bind_eq_ok.mp hs₁
  obtain rfl := Except.ok.inj hret
  obtain rfl := Except.ok.inj hret₁
  rfl

end Io

end CcMuduo
