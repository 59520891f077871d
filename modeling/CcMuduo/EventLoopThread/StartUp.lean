import CcMuduo.EventLoopThread

/-!
# How the thread of an event loop starts

`startLoop` and `threadFunc` with what the two threads wait on: the semaphore behind which `Thread::start`
knows that `tid_` is stored, and the mutex and the condition variable behind which `startLoop` knows that
`loop_` is set. A wait for the condition gives the mutex up and begins at once, may end at any time
without a notification, and takes the mutex again before it tests.

Seen from the loop, nothing else happens than `EventLoopThread` says: every step is one of its steps or
none. The creating thread waits for the condition with `loop_` set only while the notification is still
to come, and the loop it is handed exists.
-/

namespace CcMuduo

open Foundation

variable {T F : Type*}

/-- Who holds `mutex_`. -/
inductive Holder where
  | starter
  | worker
  deriving DecidableEq, Repr

/-- The place of the creating thread in `startLoop`: at `sem_wait` and `sem_destroy`, at the lock, with the
lock at the test of `loop_`, in the wait for the condition, and at the unlock. -/
inductive StarterPc where
  | away
  | semWait
  | semDestroy
  | lock
  | test
  | waiting
  | unlock
  deriving DecidableEq, Repr

/-- The place of the new thread: at the store of `tid_` and at `sem_post`, and then in `threadFunc`, in the
init callback, with the lock at the store of `loop_`, at `notify_one` and at the unlock, in or around
`loop()`, with the lock at the other store of `loop_` and at the unlock, and at the end. -/
inductive WorkerPc where
  | notStarted
  | storeTid
  | semPost
  | callback
  | store
  | notify
  | unlockSet
  | looping
  | clear
  | unlockCleared
  | ending
  deriving DecidableEq, Repr

/-- An `EventLoopThread` with the places of its two threads. `sem` is the value of `sem_` from `sem_init` to
`sem_destroy`, and `tid` says that `tid_` is stored. -/
structure StartUp (T F : Type*) where
  object : EventLoopThread T F
  starter : StarterPc
  worker : WorkerPc
  sem : Option ℕ
  tid : Bool
  mutex : Option Holder

/-- The call of `startLoop`, the next step of one of the threads, a wait that ends without a notification,
a step of the loop or of a call on it, and the destructor. -/
inductive StartUpLabel (T F : Type*) where
  | startLoop
  | starter
  | worker
  | spurious
  | sys (label : LoopLabel T F)
  | destroy
  | callQuit
  | join

namespace StartUp

/-- The object behind its constructor. -/
def constructed : StartUp T F := ⟨.constructed, .away, .notStarted, none, false, none⟩

/-- The next step of the creating thread in `startLoop`. -/
def starterStep (s : StartUp T F) : Option (StartUp T F) :=
  match s.starter with
  | .away | .waiting => none
  | .semWait =>
    match s.sem with
    | some (value + 1) => some { s with sem := some value, starter := .semDestroy }
    | some 0 | none => none
  | .semDestroy => some { s with sem := none, starter := .lock }
  | .lock => if s.mutex = none then some { s with mutex := some .starter, starter := .test } else none
  | .test =>
    if s.object.loop_ then
      some { s with object := { s.object with creator := .holding }, starter := .unlock }
    else some { s with mutex := none, starter := .waiting }
  | .unlock => some { s with mutex := none, starter := .away }

variable [DecidableEq T] (owner creator : T)

/-- The next step of the new thread outside `loop()`. -/
def workerStep (s : StartUp T F) : Option (StartUp T F) :=
  match s.worker with
  | .notStarted => none
  | .storeTid => some { s with tid := true, worker := .semPost }
  | .semPost => some { s with sem := s.sem.map (· + 1), worker := .callback }
  | .callback =>
    if s.mutex = none ∧ s.object.sys.calls owner = .idle then
      some { s with mutex := some .worker, worker := .store }
    else none
  | .store =>
    some { s with object := { s.object with loop_ := true, thread := .published }, worker := .notify }
  | .notify =>
    some { s with starter := if s.starter = .waiting then .lock else s.starter, worker := .unlockSet }
  | .unlockSet => some { s with mutex := none, worker := .looping }
  | .looping =>
    if s.mutex = none ∧ s.object.thread = .returned then
      some { s with mutex := some .worker, worker := .clear }
    else none
  | .clear =>
    some { s with object := { s.object with loop_ := false, thread := .cleared }, worker := .unlockCleared }
  | .unlockCleared => some { s with mutex := none, worker := .ending }
  | .ending =>
    if s.object.thread = .cleared then
      some { s with object := { s.object with thread := .destroyed } }
    else none

/-- Where the threads must be for a step of the loop: `loop()` is entered without the lock, and a call is
made on a loop that was constructed, by the creating thread outside `startLoop` and by the new one outside
its own locks. -/
def admits (s : StartUp T F) : LoopLabel T F → Bool
  | .move .enter => s.worker == .looping
  | .queueInLoop t _ | .quit t =>
    if t = creator then s.starter == .away
    else if t = owner then s.worker == .callback || s.worker == .looping
    else s.worker != .storeTid && s.worker != .semPost
  | _ => true

/-- One step, where `owner` is the new thread and `creator` the one that starts and destroys. -/
def step (s : StartUp T F) : StartUpLabel T F → Option (StartUp T F)
  | .startLoop =>
    if s.object.creator = .idle then
      some { s with
        object := { s.object with creator := .waiting, thread := .initializing }
        sem := some 0
        starter := .semWait
        worker := .storeTid }
    else none
  | .starter => s.starterStep
  | .worker => s.workerStep owner
  | .spurious => if s.starter = .waiting then some { s with starter := .lock } else none
  | .sys label =>
    if s.admits owner creator label ∧ s.object.allows owner creator label then
      (s.object.sys.step owner label).map fun sys => { s with object := s.object.follow creator sys label }
    else none
  | .destroy =>
    if s.starter = .away ∧ s.object.creator = .holding ∧ s.object.sys.calls creator = .idle then
      some { s with object := { s.object with
        creator := if s.object.loop_ then .tested else .finished } }
    else none
  | .callQuit =>
    if s.object.creator = .tested then
      some { s with object := { s.object with
        creator := if s.object.loop_ then .quitting else .crashed } }
    else none
  | .join =>
    if s.object.creator = .joining ∧ s.object.thread = .destroyed then
      some { s with object := { s.object with creator := .finished } }
    else none

end StartUp

/-- Where `threadFunc` is in `EventLoopThread`. -/
def WorkerPc.threads : WorkerPc → List ThreadFuncPc
  | .notStarted => [.notStarted]
  | .storeTid | .semPost | .callback | .store => [.initializing]
  | .notify | .unlockSet => [.published]
  | .looping => [.published, .looping, .returned]
  | .clear => [.returned]
  | .unlockCleared => [.cleared]
  | .ending => [.cleared, .destroyed]

/-- Does the new thread hold the mutex? -/
def WorkerPc.locked : WorkerPc → Bool
  | .store | .notify | .unlockSet | .clear | .unlockCleared => true
  | .notStarted | .storeTid | .semPost | .callback | .looping | .ending => false

/-- Has it set `loop_`, and not taken it back? -/
def WorkerPc.set : WorkerPc → Bool
  | .notify | .unlockSet | .looping | .clear => true
  | .notStarted | .storeTid | .semPost | .callback | .store | .unlockCleared | .ending => false

/-- Is it behind its `sem_post`? -/
def WorkerPc.posted : WorkerPc → Bool
  | .notStarted | .storeTid | .semPost => false
  | .callback | .store | .notify | .unlockSet | .looping | .clear | .unlockCleared | .ending => true

/-- Does the creating thread hold the mutex? -/
def StarterPc.locked : StarterPc → Bool
  | .test | .unlock => true
  | .away | .semWait | .semDestroy | .lock | .waiting => false

/-- Is it in `startLoop` and has not read `loop_` yet? -/
def StarterPc.starting : StarterPc → Bool
  | .semWait | .semDestroy | .lock | .test | .waiting => true
  | .away | .unlock => false

namespace StartUp

/-- What the semaphore holds when there is one. -/
def expected (starter : StarterPc) (worker : WorkerPc) : Option ℕ :=
  match starter with
  | .semWait => some (if worker.posted then 1 else 0)
  | .semDestroy => some 0
  | .away | .lock | .test | .waiting | .unlock => none

/-- What every step keeps. -/
structure Inv (owner : T) (s : StartUp T F) : Prop where
  starterLock : s.mutex = some .starter ↔ s.starter.locked = true
  workerLock : s.mutex = some .worker ↔ s.worker.locked = true
  thread : s.object.thread ∈ s.worker.threads
  loop_ : s.object.loop_ = s.worker.set
  idle : s.object.creator = .idle ↔ s.worker = .notStarted
  starting : s.object.creator = .waiting ↔ s.starter.starting = true
  unlock : s.starter = .unlock → s.object.creator = .holding ∧ s.worker.set = true
  sem : s.sem = expected s.starter s.worker
  posted : s.worker.posted = false → s.worker = .notStarted ∨ s.starter = .semWait
  tid : s.tid = false → s.worker = .notStarted ∨ s.worker = .storeTid
  quiet : s.worker = .store → s.object.sys.calls owner = .idle
  awake : s.starter = .waiting → s.worker.set = true → s.worker = .notify

variable {owner creator : T} {s s' : StartUp T F}

/-- Without the mutex in other hands, the new thread does not hold it. -/
theorem Inv.worker_unlocked (h : s.Inv owner) (hmutex : s.mutex ≠ some .worker) :
    s.worker.locked = false := by
  by_contra hlocked
  exact hmutex (h.workerLock.mpr (by simpa using hlocked))

/-- And so for the creating thread. -/
theorem Inv.starter_unlocked (h : s.Inv owner) (hmutex : s.mutex ≠ some .starter) :
    s.starter.locked = false := by
  by_contra hlocked
  exact hmutex (h.starterLock.mpr (by simpa using hlocked))

variable [DecidableEq T]

/-- Every step of the creating thread keeps the invariant, and is no step of the object or its return with
the loop. -/
theorem Inv.starterStep (h : s.Inv owner) (hs : s.starterStep = some s') :
    s'.Inv owner ∧ (s'.object = s.object ∨
      s.object.step owner creator .startLoopReturns = some s'.object) := by
  unfold StartUp.starterStep at hs
  have hsem := h.sem
  have hstarting := h.starting
  cases hstarter : s.starter with
  | away | waiting => simp [hstarter] at hs
  | semWait =>
    rw [hstarter] at hsem hstarting
    cases hposted : s.worker.posted with
    | false => simp [hstarter, hsem, expected, hposted] at hs
    | true =>
      simp only [hstarter, hsem, expected, hposted, if_true, Option.some.injEq] at hs
      subst hs
      exact ⟨⟨by simpa [hstarter, StarterPc.locked] using h.starterLock, h.workerLock, h.thread, h.loop_,
        h.idle, hstarting, fun hu => by simp at hu, rfl, fun hp => by simp [hposted] at hp, h.tid, h.quiet,
        fun hw => by simp at hw⟩, .inl rfl⟩
  | semDestroy =>
    rw [hstarter] at hstarting
    simp only [hstarter, Option.some.injEq] at hs
    subst hs
    exact ⟨⟨by simpa [hstarter, StarterPc.locked] using h.starterLock, h.workerLock, h.thread, h.loop_,
      h.idle, hstarting, fun hu => by simp at hu, rfl,
      fun hp => .inl ((h.posted hp).resolve_right (by simp [hstarter])), h.tid, h.quiet,
      fun hw => by simp at hw⟩, .inl rfl⟩
  | lock =>
    rw [hstarter] at hsem hstarting
    simp only [hstarter, Option.ite_none_right_eq_some, Option.some.injEq] at hs
    obtain ⟨hmutex, rfl⟩ := hs
    have hworker := h.worker_unlocked (by simp [hmutex])
    exact ⟨⟨by simp [StarterPc.locked], by simp [hworker], h.thread, h.loop_, h.idle, hstarting,
      fun hu => by simp at hu, hsem, fun hp => .inl ((h.posted hp).resolve_right (by simp [hstarter])),
      h.tid, h.quiet, fun hw => by simp at hw⟩, .inl rfl⟩
  | test =>
    rw [hstarter] at hsem hstarting
    have hmutex := h.starterLock.mpr (by simp [hstarter, StarterPc.locked])
    have hworker := h.worker_unlocked (by simp [hmutex])
    have hcreator := hstarting.mpr rfl
    have hposted (hp : s.worker.posted = false) (starter : StarterPc) :
        s.worker = .notStarted ∨ starter = .semWait :=
      .inl ((h.posted hp).resolve_right (by simp [hstarter]))
    simp only [hstarter] at hs
    by_cases hloop : s.object.loop_ = true
    · rw [if_pos hloop] at hs
      obtain rfl := Option.some.inj hs
      have hset := h.loop_.symm.trans hloop
      refine ⟨⟨by simp [hmutex, StarterPc.locked], h.workerLock, h.thread, h.loop_, ?_,
        by simp [StarterPc.starting], fun _ => ⟨rfl, hset⟩, hsem, fun hp => hposted hp _, h.tid, h.quiet,
        fun hw => by simp at hw⟩, .inr (if_pos ⟨hcreator, hloop⟩)⟩
      have hstarted : s.worker ≠ .notStarted := by
        intro hw
        simp [hw, WorkerPc.set] at hset
      simp [hstarted]
    · rw [if_neg hloop] at hs
      obtain rfl := Option.some.inj hs
      rw [h.loop_] at hloop
      exact ⟨⟨by simp [StarterPc.locked], by simp [hworker], h.thread, h.loop_, h.idle, hstarting,
        fun hu => by simp at hu, hsem, fun hp => hposted hp _, h.tid, h.quiet,
        fun _ hset => absurd hset hloop⟩, .inl rfl⟩
  | unlock =>
    rw [hstarter] at hsem hstarting
    have hmutex := h.starterLock.mpr (by simp [hstarter, StarterPc.locked])
    have hworker := h.worker_unlocked (by simp [hmutex])
    simp only [hstarter, Option.some.injEq] at hs
    subst hs
    exact ⟨⟨by simp [StarterPc.locked], by simp [hworker], h.thread, h.loop_, h.idle, hstarting,
      fun hu => by simp at hu, hsem, fun hp => .inl ((h.posted hp).resolve_right (by simp [hstarter])),
      h.tid, h.quiet, fun hw => by simp at hw⟩, .inl rfl⟩

omit [DecidableEq T] in
/-- The new thread goes on behind its `sem_post`, when mutex, `loop_` and its place agree again. -/
theorem Inv.of_worker (h : s.Inv owner) {worker : WorkerPc} {thread : ThreadFuncPc} {loop_ : Bool}
    {mutex : Option Holder} (hposted : s.worker.posted = true) (hon : worker.posted = true)
    (hstarterLock : mutex = some .starter ↔ s.starter.locked = true)
    (hworkerLock : mutex = some .worker ↔ worker.locked = true)
    (hthread : thread ∈ worker.threads) (hloop : loop_ = worker.set)
    (hunlock : s.starter = .unlock → worker.set = true)
    (hquiet : worker = .store → s.object.sys.calls owner = .idle)
    (hawake : s.starter = .waiting → worker.set = true → worker = .notify) :
    Inv owner { s with
      object := { s.object with loop_ := loop_, thread := thread }
      worker := worker
      mutex := mutex } := by
  have hstarted : s.worker ≠ .notStarted ∧ s.worker ≠ .storeTid := by
    constructor <;> rintro hw <;> simp [hw, WorkerPc.posted] at hposted
  have hstays : worker ≠ .notStarted := by
    rintro rfl
    simp [WorkerPc.posted] at hon
  refine ⟨hstarterLock, hworkerLock, hthread, hloop, ?_, h.starting, fun hu => ⟨(h.unlock hu).1, hunlock hu⟩,
    ?_, fun hp => by simp [hon] at hp, fun ht => ?_, hquiet, hawake⟩
  · simp [h.idle, hstarted.1, hstays]
  · simp only [h.sem, expected, hposted, hon]
  · exact absurd (h.tid ht) (by simp [hstarted])

/-- Every step of the new thread outside `loop()` keeps the invariant, and is no step of the object or one
of `threadFunc`. -/
theorem Inv.workerStep (h : s.Inv owner) (hs : s.workerStep owner = some s') :
    s'.Inv owner ∧ (s'.object = s.object ∨
      ∃ label, s.object.step owner creator label = some s'.object) := by
  unfold StartUp.workerStep at hs
  have hsem := h.sem
  have hthread := h.thread
  have hloop := h.loop_
  have hidle := h.idle
  cases hworker : s.worker with
  | notStarted => simp [hworker] at hs
  | storeTid =>
    rw [hworker] at hsem hthread hloop hidle
    have hlock := h.workerLock
    have hwait := (h.posted (by simp [hworker, WorkerPc.posted])).resolve_left (by simp [hworker])
    simp only [hworker, Option.some.injEq] at hs
    subst hs
    exact ⟨⟨h.starterLock, by simpa [hworker, WorkerPc.locked] using hlock, hthread, hloop,
      by simpa using hidle, h.starting, fun hu => by simp [hwait] at hu, hsem, fun _ => .inr hwait,
      fun ht => by simp at ht, fun hw => by simp at hw, fun hw => by simp [hwait] at hw⟩, .inl rfl⟩
  | semPost =>
    rw [hworker] at hsem hthread hloop hidle
    have hlock := h.workerLock
    have htid := h.tid
    have hwait := (h.posted (by simp [hworker, WorkerPc.posted])).resolve_left (by simp [hworker])
    simp only [hworker, Option.some.injEq] at hs
    subst hs
    exact ⟨⟨h.starterLock, by simpa [hworker, WorkerPc.locked] using hlock, hthread, hloop,
      by simpa using hidle, h.starting, fun hu => by simp [hwait] at hu,
      by simp [hsem, hwait, expected, WorkerPc.posted], fun hp => by simp [WorkerPc.posted] at hp,
      fun ht => by simpa [hworker] using htid ht, fun hw => by simp at hw,
      fun hw => by simp [hwait] at hw⟩, .inl rfl⟩
  | callback =>
    rw [hworker] at hthread hloop
    simp only [hworker, Option.ite_none_right_eq_some, Option.some.injEq] at hs
    obtain ⟨⟨hmutex, hcalls⟩, rfl⟩ := hs
    have hstarter := h.starter_unlocked (by simp [hmutex])
    refine ⟨h.of_worker (by simp [hworker, WorkerPc.posted]) rfl (by simp [hstarter])
      (by simp [WorkerPc.locked]) hthread hloop (fun hu => ?_) (fun _ => hcalls)
      (fun _ hset => by simp [WorkerPc.set] at hset), .inl rfl⟩
    simp [hu, StarterPc.locked] at hstarter
  | store =>
    rw [hworker] at hthread
    have hlock := h.workerLock
    have hcalls := h.quiet hworker
    simp only [hworker, Option.some.injEq] at hs
    subst hs
    exact ⟨h.of_worker (by simp [hworker, WorkerPc.posted]) rfl h.starterLock
      (by simpa [hworker, WorkerPc.locked] using hlock) (by simp [WorkerPc.threads]) rfl (fun _ => rfl)
      (fun hw => by simp at hw) (fun _ _ => rfl),
      .inr ⟨.publish, if_pos ⟨List.mem_singleton.mp hthread, hcalls⟩⟩⟩
  | notify =>
    rw [hworker] at hsem hthread hloop hidle
    have htid := h.tid
    have hlock := h.workerLock
    have hstarterLock := h.starterLock
    have hstarting := h.starting
    simp only [hworker, Option.some.injEq] at hs
    subst hs
    refine ⟨?_, .inl rfl⟩
    by_cases hwait : s.starter = .waiting
    · rw [hwait] at hsem hstarterLock hstarting
      simp only [hwait, if_true]
      exact ⟨hstarterLock, by simpa [hworker, WorkerPc.locked] using hlock, hthread, hloop,
        by simpa using hidle, hstarting, fun hu => by simp at hu, hsem,
        fun hp => by simp [WorkerPc.posted] at hp, fun ht => by simpa [hworker] using htid ht,
        fun hw => by simp at hw, fun hw => by simp at hw⟩
    · simp only [hwait, if_false]
      exact h.of_worker (by simp [hworker, WorkerPc.posted]) rfl hstarterLock
        (by simpa [hworker, WorkerPc.locked] using hlock) hthread hloop (fun _ => rfl)
        (fun hw => by simp at hw) (fun hw => absurd hw hwait)
  | unlockSet =>
    have hawake := h.awake
    have hmutex := h.workerLock.mpr (by simp [hworker, WorkerPc.locked])
    have hstarter := h.starter_unlocked (by simp [hmutex])
    rw [hworker] at hthread hloop hawake
    simp only [hworker, Option.some.injEq] at hs
    subst hs
    refine ⟨h.of_worker (by simp [hworker, WorkerPc.posted]) rfl (by simp [hstarter])
      (by simp [WorkerPc.locked]) ?_ hloop (fun _ => rfl) (fun hw => by simp at hw)
      (fun hw _ => by simpa using hawake hw rfl), .inl rfl⟩
    simp [List.mem_singleton.mp hthread, WorkerPc.threads]
  | looping =>
    have hawake := h.awake
    rw [hworker] at hloop hawake
    simp only [hworker, Option.ite_none_right_eq_some, Option.some.injEq] at hs
    obtain ⟨⟨hmutex, hreturned⟩, rfl⟩ := hs
    have hstarter := h.starter_unlocked (by simp [hmutex])
    refine ⟨h.of_worker (by simp [hworker, WorkerPc.posted]) rfl (by simp [hstarter])
      (by simp [WorkerPc.locked]) ?_ hloop (fun _ => rfl) (fun hw => by simp at hw)
      (fun hw _ => by simpa using hawake hw rfl), .inl rfl⟩
    simp [hreturned, WorkerPc.threads]
  | clear =>
    rw [hworker] at hthread
    have hlock := h.workerLock
    have hmutex := hlock.mpr (by simp [hworker, WorkerPc.locked])
    have hstarter := h.starter_unlocked (by simp [hmutex])
    simp only [hworker, Option.some.injEq] at hs
    subst hs
    refine ⟨h.of_worker (by simp [hworker, WorkerPc.posted]) rfl h.starterLock
      (by simpa [hworker, WorkerPc.locked] using hlock) (by simp [WorkerPc.threads]) rfl (fun hu => ?_)
      (fun hw => by simp at hw) (fun _ hset => by simp [WorkerPc.set] at hset),
      .inr ⟨.clear, if_pos (List.mem_singleton.mp hthread)⟩⟩
    simp [hu, StarterPc.locked] at hstarter
  | unlockCleared =>
    have hmutex := h.workerLock.mpr (by simp [hworker, WorkerPc.locked])
    have hstarter := h.starter_unlocked (by simp [hmutex])
    rw [hworker] at hthread hloop
    simp only [hworker, Option.some.injEq] at hs
    subst hs
    refine ⟨h.of_worker (by simp [hworker, WorkerPc.posted]) rfl (by simp [hstarter])
      (by simp [WorkerPc.locked]) ?_ hloop (fun hu => ?_) (fun hw => by simp at hw)
      (fun _ hset => by simp [WorkerPc.set] at hset), .inl rfl⟩
    · simp [List.mem_singleton.mp hthread, WorkerPc.threads]
    · simp [hu, StarterPc.locked] at hstarter
  | ending =>
    have hlock := h.workerLock
    have hunlock := h.unlock
    have hawake := h.awake
    rw [hworker] at hloop hlock hunlock hawake
    simp only [hworker, Option.ite_none_right_eq_some, Option.some.injEq] at hs
    obtain ⟨hcleared, rfl⟩ := hs
    exact ⟨h.of_worker (by simp [hworker, WorkerPc.posted]) rfl h.starterLock hlock
      (by simp [WorkerPc.threads]) hloop (fun hu => (hunlock hu).2) (fun hw => by simp at hw) hawake,
      .inr ⟨.destroyLoop, if_pos hcleared⟩⟩

/-- A step of the loop leaves `loop_` alone. -/
theorem follow_loop_ (object : EventLoopThread T F) (sys : LoopSystem T F) (label : LoopLabel T F) :
    (object.follow creator sys label).loop_ = object.loop_ := by
  cases label with
  | move m => cases m <;> rfl
  | queueInLoop | queueTest | queueWake | quit | quitTest | quitWake => rfl

/-- It moves the creating thread only from the end of its request to quit to the join. -/
theorem follow_creator (object : EventLoopThread T F) (sys : LoopSystem T F) (label : LoopLabel T F) :
    (object.follow creator sys label).creator = object.creator ∨
      object.creator = .quitting ∧ (object.follow creator sys label).creator = .joining := by
  cases label with
  | move m => cases m <;> exact .inl rfl
  | queueInLoop | queueTest | queueWake | quit | quitTest => exact .inl rfl
  | quitWake t =>
    by_cases hjoin : t = creator ∧ object.creator = .quitting
    · exact .inr ⟨hjoin.2, if_pos hjoin⟩
    · exact .inl (if_neg hjoin)

/-- It moves the new thread only in `loop()`. -/
theorem Inv.follow_thread (h : s.Inv owner) {label : LoopLabel T F} (sys : LoopSystem T F)
    (hadmits : s.admits owner creator label = true)
    (hallows : s.object.allows owner creator label = true) :
    (s.object.follow creator sys label).thread ∈ s.worker.threads := by
  have hthread := h.thread
  have inLoop (hlooping : s.object.thread = .looping) : s.worker = .looping := by
    rw [hlooping] at hthread
    cases hworker : s.worker <;> simp [hworker, WorkerPc.threads] at hthread
    rfl
  cases label with
  | queueInLoop | queueTest | queueWake | quit | quitTest | quitWake => exact hthread
  | move m =>
    cases m with
    | enter =>
      have hworker : s.worker = .looping := by simpa [admits] using hadmits
      simp [EventLoopThread.follow, hworker, WorkerPc.threads]
    | test =>
      have hworker := inLoop (by simpa [EventLoopThread.allows] using hallows)
      simp only [EventLoopThread.follow, hworker]
      split <;> simp [WorkerPc.threads]
    | poll | handleRead | handled | swap | call | finish => exact hthread

/-- With the lock in front of its store of `loop_`, the new thread makes no call. -/
theorem Inv.quiet_sys (hne : creator ≠ owner) (h : s.Inv owner) {label : LoopLabel T F}
    {sys : LoopSystem T F} (hadmits : s.admits owner creator label = true)
    (hstep : s.object.sys.step owner label = some sys) (hworker : s.worker = .store) :
    sys.calls owner = .idle := by
  have hidle := h.quiet hworker
  have other {t : T} (ht : t ≠ owner) (pc : CallPc) :
      Function.update s.object.sys.calls t pc owner = .idle := by
    rw [Function.update_of_ne ht.symm]
    exact hidle
  cases LoopSystem.step_spec hstep with
  | move => exact hidle
  | @queueInLoop t | @quit t =>
    refine other (fun ht => ?_) _
    subst ht
    simp [admits, hne.symm, hworker] at hadmits
  | queueTest ht | queueWake ht | quitTest ht | quitWake ht =>
    refine other (fun heq => ?_) _
    subst heq
    simp [hidle] at ht

/-- A step of the loop or of a call on it keeps the invariant. -/
theorem Inv.sys (hne : creator ≠ owner) (h : s.Inv owner) {label : LoopLabel T F} {sys : LoopSystem T F}
    (hadmits : s.admits owner creator label = true) (hallows : s.object.allows owner creator label = true)
    (hstep : s.object.sys.step owner label = some sys) :
    Inv owner { s with object := s.object.follow creator sys label } := by
  have hsys : (s.object.follow creator sys label).sys = sys := by
    cases label with
    | move m => cases m <;> rfl
    | queueInLoop | queueTest | queueWake | quit | quitTest | quitWake => rfl
  refine ⟨h.starterLock, h.workerLock, h.follow_thread sys hadmits hallows,
    (follow_loop_ s.object sys label).trans h.loop_, ?_, ?_, fun hu => ?_, h.sem, h.posted, h.tid,
    fun hw => ?_, h.awake⟩
  · rw [← h.idle]
    rcases follow_creator s.object sys label with hcreator | ⟨hquitting, hcreator⟩
    · rw [hcreator]
    · simp [hcreator, hquitting]
  · rw [← h.starting]
    rcases follow_creator s.object sys label with hcreator | ⟨hquitting, hcreator⟩
    · rw [hcreator]
    · simp [hcreator, hquitting]
  · obtain ⟨hholding, hset⟩ := h.unlock hu
    rcases follow_creator s.object sys label with hcreator | ⟨hquitting, -⟩
    · exact ⟨hcreator.trans hholding, hset⟩
    · simp [hholding] at hquitting
  · rw [hsys]
    exact h.quiet_sys hne hadmits hstep hw

/-- Every step keeps the invariant, and is a step of the object or none. -/
theorem Inv.step (hne : creator ≠ owner) (h : s.Inv owner) {label : StartUpLabel T F}
    (hs : s.step owner creator label = some s') :
    s'.Inv owner ∧ (s'.object = s.object ∨
      ∃ label, s.object.step owner creator label = some s'.object) := by
  cases label with
  | starter =>
    obtain ⟨hinv, hobject⟩ := h.starterStep hs
    exact ⟨hinv, hobject.imp id fun hstep => ⟨.startLoopReturns, hstep⟩⟩
  | worker => exact h.workerStep hs
  | sys label =>
    obtain ⟨⟨hadmits, hallows⟩, hs⟩ := Option.ite_none_right_eq_some.mp hs
    obtain ⟨sys, hsys, rfl⟩ := Option.map_eq_some_iff.mp hs
    refine ⟨h.sys hne hadmits hallows hsys, .inr ⟨.sys label, ?_⟩⟩
    simp [EventLoopThread.step, hallows, hsys]
  | startLoop =>
    obtain ⟨hidle, hs⟩ := Option.ite_none_right_eq_some.mp hs
    obtain rfl := Option.some.inj hs
    have hworker := h.idle.mp hidle
    have hloop := h.loop_
    have hlock := h.workerLock
    rw [hworker] at hloop hlock
    have hstarter : s.mutex ≠ some .starter := by
      intro hmutex
      have hlocked := h.starterLock.mp hmutex
      cases hpc : s.starter with
      | test => simpa [hidle, hpc, StarterPc.starting] using h.starting
      | unlock => simpa [hidle] using h.unlock hpc
      | away | semWait | semDestroy | lock | waiting => simp [hpc, StarterPc.locked] at hlocked
    exact ⟨⟨by simp [hstarter, StarterPc.locked], hlock, by simp [WorkerPc.threads], hloop, by simp,
      by simp [StarterPc.starting], fun hu => by simp at hu, rfl, fun _ => .inr rfl, fun _ => .inr rfl,
      fun hw => by simp at hw, fun hw => by simp at hw⟩, .inr ⟨.startLoop, if_pos hidle⟩⟩
  | spurious =>
    obtain ⟨hwait, hs⟩ := Option.ite_none_right_eq_some.mp hs
    obtain rfl := Option.some.inj hs
    have hlock := h.starterLock
    have hstarting := h.starting
    have hsem := h.sem
    have hposted := h.posted
    rw [hwait] at hlock hstarting hsem hposted
    exact ⟨⟨hlock, h.workerLock, h.thread, h.loop_, h.idle, hstarting, fun hu => by simp at hu, hsem,
      fun hp => .inl ((hposted hp).resolve_right (by simp)), h.tid, h.quiet, fun hw => by simp at hw⟩,
      .inl rfl⟩
  | destroy =>
    obtain ⟨⟨haway, hholding, hcalls⟩, hs⟩ := Option.ite_none_right_eq_some.mp hs
    obtain rfl := Option.some.inj hs
    have hidle := h.idle
    have hstarting := h.starting
    rw [hholding] at hidle hstarting
    refine ⟨⟨h.starterLock, h.workerLock, h.thread, h.loop_, ?_, ?_, fun hu => ?_, h.sem, h.posted, h.tid,
      h.quiet, h.awake⟩, .inr ⟨.destroy, if_pos ⟨hholding, hcalls⟩⟩⟩
    · rw [← hidle]
      cases s.object.loop_ <;> simp
    · rw [← hstarting]
      cases s.object.loop_ <;> simp
    · simp [show s.starter = .unlock from hu] at haway
  | callQuit =>
    obtain ⟨htested, hs⟩ := Option.ite_none_right_eq_some.mp hs
    obtain rfl := Option.some.inj hs
    have hidle := h.idle
    have hstarting := h.starting
    rw [htested] at hidle hstarting
    refine ⟨⟨h.starterLock, h.workerLock, h.thread, h.loop_, ?_, ?_, fun hu => ?_, h.sem, h.posted, h.tid,
      h.quiet, h.awake⟩, .inr ⟨.callQuit, if_pos htested⟩⟩
    · rw [← hidle]
      cases s.object.loop_ <;> simp
    · rw [← hstarting]
      cases s.object.loop_ <;> simp
    · simpa [htested] using h.unlock hu
  | join =>
    obtain ⟨⟨hjoining, hdestroyed⟩, hs⟩ := Option.ite_none_right_eq_some.mp hs
    obtain rfl := Option.some.inj hs
    have hidle := h.idle
    have hstarting := h.starting
    rw [hjoining] at hidle hstarting
    refine ⟨⟨h.starterLock, h.workerLock, h.thread, h.loop_, ?_, ?_, fun hu => ?_, h.sem, h.posted, h.tid,
      h.quiet, h.awake⟩, .inr ⟨.join, if_pos ⟨hjoining, hdestroyed⟩⟩⟩
    · rw [← hidle]
      simp
    · rw [← hstarting]
      simp
    · simpa [hjoining] using h.unlock hu

omit [DecidableEq T] in
/-- Behind its constructor the object meets the invariant. -/
theorem Inv.constructed (owner : T) : Inv owner (constructed : StartUp T F) :=
  ⟨by simp [StartUp.constructed, StarterPc.locked], by simp [StartUp.constructed, WorkerPc.locked],
    List.mem_singleton_self _, rfl, by simp [StartUp.constructed, EventLoopThread.constructed],
    by simp [StartUp.constructed, EventLoopThread.constructed, StarterPc.starting],
    fun hu => by simp [StartUp.constructed] at hu, rfl, fun _ => .inl rfl, fun _ => .inl rfl, fun _ => rfl,
    fun hw => by simp [StartUp.constructed] at hw⟩

/-- What the two threads promise each other: the semaphore exists when it is posted, `tid_` is stored when
`Thread::start` has returned, they do not hold the mutex both, the creating thread waits with `loop_` set
only in front of the notification, and the loop that `startLoop` has read is one that exists. -/
structure HandsOver (s : StartUp T F) : Prop where
  posts : s.worker = .semPost → s.sem ≠ none
  known : s.object.creator ≠ .idle → s.starter ≠ .semWait → s.tid = true
  exclusive : ¬ (s.starter.locked = true ∧ s.worker.locked = true)
  awake : s.starter = .waiting → s.object.loop_ = true → s.worker = .notify
  returns : s.starter = .unlock → s.object.loop_ = true ∧ s.object.thread ≠ .destroyed

omit [DecidableEq T] in
/-- The invariant says that they keep their promises. -/
theorem Inv.handsOver (h : s.Inv owner) : s.HandsOver := by
  refine ⟨fun hw => ?_, fun hcreator hstarter => ?_, fun ⟨hstarter, hworker⟩ => ?_, fun hw hloop => ?_,
    fun hu => ?_⟩
  · have hwait := (h.posted (by simp [hw, WorkerPc.posted])).resolve_left (by simp [hw])
    simp [h.sem, hwait, expected]
  · by_contra htid
    have hworker : s.worker.posted = false := by
      rcases h.tid (by simpa using htid) with hw | hw <;> simp [hw, WorkerPc.posted]
    exact (h.posted hworker).elim (fun hw => hcreator (h.idle.mpr hw)) hstarter
  · have hmutex := (h.starterLock.mpr hstarter).symm.trans (h.workerLock.mpr hworker)
    simp at hmutex
  · exact h.awake hw (h.loop_.symm.trans hloop)
  · obtain ⟨-, hset⟩ := h.unlock hu
    refine ⟨h.loop_.trans hset, fun hdestroyed => ?_⟩
    have hthread := h.thread
    rw [hdestroyed] at hthread
    cases hworker : s.worker <;> simp [hworker, WorkerPc.threads, WorkerPc.set] at hthread hset

end StartUp

/-- In every interleaving of `startLoop`, `threadFunc` and the calls on the loop, whenever a wait ends, the
two threads keep what they promise each other, and what happens to the object is a run of
`EventLoopThread`. -/
theorem startLoop_handsOver [DecidableEq T] (owner creator : T) (hne : creator ≠ owner)
    (labels : List (StartUpLabel T F)) (s : StartUp T F)
    (hrun : run (StartUp.step owner creator) .constructed labels = some s) :
    s.HandsOver ∧
      ∃ object, run (EventLoopThread.step owner creator) .constructed object = some s.object := by
  have hstart := StartUp.Inv.constructed (F := F) owner
  refine ⟨?_, exists_run_of_steps (I := StartUp.Inv owner) (f := StartUp.object)
    (fun _ _ _ hs hstep => hs.step hne hstep) hstart hrun⟩
  have hinv : s.Inv owner := invariant_of_steps (fun _ _ _ hs hstep => (hs.step hne hstep).1) hstart hrun
  exact hinv.handsOver

/-- The creating thread is ahead and waits twice for the condition, once without reason. -/
theorem startLoop_handsOver_waiting :
    let labels : List (StartUpLabel Bool ℕ) := [.startLoop, .worker, .worker, .starter, .starter, .starter,
      .starter, .spurious, .starter, .starter, .worker, .worker, .worker, .worker, .starter, .starter]
    ∃ s, run (StartUp.step true false) .constructed labels = some s ∧ s.HandsOver := by
  intro labels
  exact ⟨_, rfl, (startLoop_handsOver true false (by decide) labels _ rfl).1⟩

end CcMuduo
