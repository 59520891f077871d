import CcMuduo.Foundation.Run
import CcMuduo.TimerQueue.WellFormed
import Mathlib.Data.List.Perm.Basic

/-!
# The life of a timer

The timers on their loop with a history: the timer objects by address, whose expiration `restart`
changes in place, the cancellations asked for, the timers that are finished, every run of a callback,
and every pass of `handleRead` with the entries it found.

A timer object has an address of its own as long as something holds it, and the clock that the passes
read does not go back.
-/

namespace CcMuduo

open Foundation

/-- One call of `run` on a timer, in the pass with the reading `now`. -/
structure TimerRun where
  timer : Timer
  now : ℤ
  deriving DecidableEq, Repr

/-- One pass of `handleRead`: its reading of the clock, the entries it found in `timers`, and the
timers it ran, in order. -/
structure PassRecord where
  now : ℤ
  present : List Entry
  ran : List Timer
  deriving DecidableEq, Repr

/-- What has happened to the timers. `runs` has the latest run first; `pass` is the pass under way. -/
structure TimerLog where
  object : ℕ → Timer
  clock : Option ℤ
  asked : List ℕ
  finished : List Timer
  runs : List TimerRun
  pass : Option PassRecord
  passes : List PassRecord

/-- The timer that a functor inserts. -/
def TimerFunctor.timer? : TimerFunctor → Option Timer
  | .insert timer => some timer
  | .cancel _ | .user => none

namespace TimerView

variable (v : TimerView)

/-- The timers that wait to be inserted. -/
def insertions : List Timer := v.waiting.filterMap TimerFunctor.timer?

/-- The timers of the pass under way. -/
def passing : List Timer := v.batch.elim [] fun b => b.expired.map Prod.snd

/-- The timers of the pass under way whose callbacks were not reached yet. -/
def unreached : List Timer := v.batch.elim [] fun b => b.rest.map Prod.snd

/-- The timers in `timers`. -/
def inserted : List Timer := v.queue.timers.map Prod.snd

/-- The timers that something holds. -/
def live : List Timer := v.insertions ++ v.passing ++ v.inserted

/-- The timers that may be run before a pass puts any back. -/
def ahead : List Timer := v.insertions ++ v.unreached ++ v.inserted

end TimerView

namespace TimerLog

/-- The log before any timer is made. -/
def empty : TimerLog := ⟨fun _ => ⟨0, false, 0, 0, 0⟩, none, [], [], [], none, []⟩

variable (g : TimerLog)

/-- `restart` on the repeating ones of a batch of timer objects. -/
def restartAll (object : ℕ → Timer) (now : ℤ) : List Timer → ℕ → Timer
  | [] => object
  | t :: rest =>
    if (object t.address).repeats then
      restartAll (Function.update object t.address ((object t.address).restart now)) now rest
    else restartAll object now rest

/-- Could the environment take the step? A new timer object gets an address of its own, and the clock
does not go back. -/
def admits {T : Type*} (v : TimerView) : TimerLabel T → Prop
  | .addTimer _ timer => timer.address ∉ v.live.map Timer.address
  | .expire now => ∀ before ∈ g.clock, before ≤ now
  | _ => True

instance {T : Type*} (v : TimerView) (label : TimerLabel T) : Decidable (g.admits v label) :=
  match label with
  | .addTimer _ timer => inferInstanceAs (Decidable (timer.address ∉ v.live.map Timer.address))
  | .expire now => inferInstanceAs (Decidable (∀ before ∈ g.clock, before ≤ now))
  | .move _ | .queueInLoop _ | .cancel _ _ | .quit _ | .queueTest _ | .queueWake _ | .quitTest _
  | .quitWake _ | .runNext | .reset => inferInstanceAs (Decidable True)

/-- Keep the history of a step. -/
def record {T : Type*} (v : TimerView) : TimerLabel T → TimerLog
  | .addTimer _ timer => { g with object := Function.update g.object timer.address timer }
  | .cancel _ sequence => { g with asked := sequence :: g.asked }
  | .expire now => { g with clock := some now, pass := some ⟨now, v.queue.timers, []⟩ }
  | .runNext =>
    match v.batch with
    | some ⟨_, e :: _, now, _⟩ =>
      { g with
        runs := ⟨e.2, now⟩ :: g.runs
        pass := g.pass.map fun p => { p with ran := p.ran ++ [e.2] } }
    | _ => g
  | .reset =>
    match v.batch with
    | some b =>
      { g with
        object := restartAll g.object b.now v.passing
        finished := g.finished ++ v.passing.filter fun t => !t.repeats
        pass := none
        passes := g.passes ++ g.pass.toList }
    | none => g
  | _ => g

end TimerLog

/-- A loop and its timers with their history. -/
structure TimerHistory (T : Type*) where
  loop : TimerLoop T
  log : TimerLog

namespace TimerHistory

variable {T : Type*} [DecidableEq T]

/-- Everything behind its constructor. -/
def constructed : TimerHistory T := ⟨.constructed, .empty⟩

/-- One step, where `owner` is the loop's own thread. -/
def step (owner : T) (h : TimerHistory T) (label : TimerLabel T) : Option (TimerHistory T) :=
  if h.log.admits h.loop.view label then
    (h.loop.step owner label).map fun loop => ⟨loop, h.log.record h.loop.view label⟩
  else none

end TimerHistory

/-- A pass ran exactly the timers it found with an expiration before its reading, once each, in the
order of their expirations. -/
structure PassRecord.Exact (p : PassRecord) : Prop where
  ran : p.ran = (p.present.filter fun e => decide (e.2.expiration < p.now)).map Prod.snd
  ordered : (p.ran.map Timer.expiration).Pairwise (· ≤ ·)
  once : (p.ran.map Timer.sequence).Nodup

/-- Timers are conserved and run on time. The places a timer can be in are the waiting insertions, the
pass under way, `timers`, and the finished one-shot timers. -/
structure TimerHistory.Conserves {T : Type*} (h : TimerHistory T) : Prop where
  keys : ∀ e ∈ h.loop.queue.timers, e.1 = (h.log.object e.2.address).expiration
  once : (h.loop.queue.timers.map fun e => e.2.address).Nodup
  placed : ∀ sequence ∈ h.loop.used, sequence ∉ h.log.asked →
    ((h.loop.view.live ++ h.log.finished).map Timer.sequence).count sequence = 1
  oneShot : ∀ t ∈ h.log.finished, t.repeats = false
  passes : ∀ p ∈ h.log.passes, p.Exact
  early : ∀ r ∈ h.log.runs, r.timer.expiration < r.now
  spaced : h.log.runs.Pairwise fun later earlier =>
    later.timer.sequence = earlier.timer.sequence →
      later.timer.repeats = true ∧ earlier.now + later.timer.interval < later.now
  cancels : ∀ sequence, TimerQueue.copies sequence h.loop.queue.timers ≤ 1 ∧
    (h.loop.queue.cancel sequence).timers =
      h.loop.queue.timers.filter fun e => e.2.sequence != sequence

end CcMuduo
