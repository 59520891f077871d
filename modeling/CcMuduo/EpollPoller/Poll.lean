import CcMuduo.EpollPoller.Bookkeeping
import Mathlib.Data.List.Forall2
import Mathlib.Data.List.Nodup

/-!
# What a poll reports

Channel objects are created and destroyed, register and leave in any order, and the loop polls in
between. `epoll_wait` hands back the pointers that `epoll_ctl` was given, and `fillActiveChannels` writes
through them without looking anything up.

As long as an object is destroyed only behind its removal, and a descriptor goes to a second object
only behind the removal of the first, every pointer that the kernel hands back is that of the registered
channel of the ready descriptor.
-/

namespace CcMuduo

open Foundation

/-- `struct epoll_event`. -/
structure EpollEvent where
  events : Mask
  ptr : ℕ
  deriving DecidableEq, Repr

/-- `kInitEventListSize`. -/
def kInitEventListSize : ℕ := 16

/-- The answer of `epoll_wait`: the ready descriptors with what happened on each, none of them behind a
timeout, or the error. -/
inductive WaitResult where
  | ready (events : List (ℕ × Mask))
  | failed (errno : Errno)
  deriving DecidableEq, Repr

/-- A channel object with its `revents_`. -/
structure PolledChannel where
  channel : Channel
  revents : Mask
  deriving DecidableEq, Repr

/-- The constructor of a channel. -/
def PolledChannel.new (address fd : ℕ) : PolledChannel := ⟨⟨address, fd, kNoneEvent, .kNew⟩, 0⟩

/-- A poller with its `events_`, the channel objects by address, and the loop's `activeChannels_`. -/
structure PollLoop where
  poller : EpollPoller
  objects : ℕ → Option PolledChannel
  events : List EpollEvent
  activeChannels : List ℕ

/-- What can happen around a poller: an object comes or goes, one is called, the loop polls. -/
inductive PollLabel where
  | construct (address fd : ℕ)
  | destroy (address : ℕ)
  | call (address : ℕ) (call : ChannelCall)
  | poll (answer : WaitResult)
  deriving DecidableEq, Repr

/-- The kernel writes what happened on a descriptor, and the pointer it was given for it. -/
def EpollPoller.wait (p : EpollPoller) (ready : List (ℕ × Mask)) : List EpollEvent :=
  ready.filterMap fun r => (p.interest r.1).map fun i => ⟨r.2, i.2⟩

namespace PollLoop

/-- Behind the constructor of the poller. -/
def initial : PollLoop :=
  ⟨.empty, fun _ => none, List.replicate kInitEventListSize ⟨0, 0⟩, []⟩

variable (s : PollLoop)

/-- Put an object at an address, or leave none there. -/
def put (address : ℕ) (o : Option PolledChannel) : PollLoop :=
  { s with objects := Function.update s.objects address o }

/-- `set_revents` on the object behind the pointer of an event, and `emplace_back` of the pointer. -/
def report (e : EpollEvent) (o : PolledChannel) : PollLoop :=
  { s.put e.ptr (some { o with revents := e.events }) with
    activeChannels := s.activeChannels ++ [e.ptr] }

/-- One turn of the loop of `fillActiveChannels`. A pointer to no object is undefined behaviour. -/
def fillActiveChannel (e : EpollEvent) : Option PollLoop := (s.objects e.ptr).map (s.report e)

/-- `fillActiveChannels`. -/
def fillActiveChannels (numEvents : ℕ) : Option PollLoop :=
  (s.events.take numEvents).foldlM fillActiveChannel s

/-- `EpollPoller::poll`, behind `activeChannels_.clear()` in the loop. -/
def poll : WaitResult → Option PollLoop
  | .failed _ => some { s with activeChannels := [] }
  | .ready ready =>
    let filled := s.poller.wait ready
    let numEvents := filled.length
    let waited := { s with events := filled ++ s.events.drop numEvents, activeChannels := [] }
    if 0 < numEvents then
      let resized := if numEvents = waited.events.length then
          { waited with events := waited.events ++ List.replicate waited.events.length ⟨0, 0⟩ }
        else waited
      resized.fillActiveChannels numEvents
    else some waited

/-- What `epoll_wait` may answer: at most as many descriptors as there is room for, each once and
registered, and of each at least one event, all of them asked for or always reported. -/
def Legal (ready : List (ℕ × Mask)) : Prop :=
  ready.length ≤ s.events.length ∧ (ready.map Prod.fst).Nodup ∧
    ∀ r ∈ ready, r.2 ≠ 0 ∧ (s.poller.interest r.1).any fun i =>
      r.2 &&& ~~~(i.1 ||| EPOLLERR ||| EPOLLHUP) == 0

instance (ready : List (ℕ × Mask)) : Decidable (s.Legal ready) := by
  unfold Legal
  infer_instance

/-- What happens next. -/
def step (s : PollLoop) : PollLabel → Option PollLoop
  | .construct address fd =>
    if s.objects address = none then some (s.put address (some (.new address fd))) else none
  | .destroy address => if (s.objects address).isSome then some (s.put address none) else none
  | .call address call => do
    let o ← s.objects address
    let r ← (call.apply o.channel s.poller).toOption
    return { s.put address (some { o with channel := r.2 }) with poller := r.1 }
  | .poll (.ready ready) => if s.Legal ready then s.poll (.ready ready) else none
  | .poll (.failed errno) => s.poll (.failed errno)

/-- An object is destroyed only behind its removal, and a new one is called only behind the removal
of the one that had its descriptor. -/
def orderly : PollLabel → Bool
  | .destroy address => (s.objects address).all fun o => o.channel.index == .kNew
  | .call address _ => (s.objects address).all fun o =>
      o.channel.index != .kNew || (s.poller.channels o.channel.fd).isNone
  | .construct _ _ | .poll _ => true

/-- What a poll tells the loop about the ready descriptors: in their order the registered channel of
each, once, with exactly what happened, all of which it is interested in now or is always told. -/
structure Reports (s t : PollLoop) (ready : List (ℕ × Mask)) : Prop where
  active : List.Forall₂ (fun r address => ∃ o, t.objects address = some o ∧ o.channel.fd = r.1 ∧
    o.revents = r.2 ∧ o.channel.index = .kAdded ∧ t.poller.hasChannel o.channel = true ∧
    r.2 &&& ~~~(o.channel.events ||| EPOLLERR ||| EPOLLHUP) = 0) ready t.activeChannels
  nodup : t.activeChannels.Nodup
  others : ∀ address, address ∉ t.activeChannels → t.objects address = s.objects address
  channels : ∀ address, (t.objects address).map PolledChannel.channel =
    (s.objects address).map PolledChannel.channel
  poller : t.poller = s.poller

/-- What every orderly step keeps: the books agree on every object that is not new, each object knows
its address, and the books and the kernel know no descriptor but those of such objects. -/
structure Inv (s : PollLoop) : Prop where
  recorded : ∀ address o, s.objects address = some o → o.channel.index ≠ .kNew →
    s.poller.Recorded o.channel
  address : ∀ address o, s.objects address = some o → o.channel.address = address
  covered : ∀ fd, (s.poller.channels fd = none ∧ s.poller.interest fd = none) ∨
    ∃ address o, s.objects address = some o ∧ o.channel.fd = fd ∧ o.channel.index ≠ .kNew

variable {s t : PollLoop}

/-- What was put at an address is there. -/
theorem put_objects_self (s : PollLoop) (address : ℕ) (o : Option PolledChannel) :
    (s.put address o).objects address = o :=
  Function.update_self ..

/-- Every other address is as before. -/
theorem put_objects_of_ne (s : PollLoop) {address other : ℕ} (o : Option PolledChannel)
    (hne : other ≠ address) : (s.put address o).objects other = s.objects other :=
  Function.update_of_ne hne ..

/-- The books know the object that is not new on each descriptor. -/
theorem Inv.channels (h : s.Inv) {address : ℕ} {o : PolledChannel} (ho : s.objects address = some o)
    (hindex : o.channel.index ≠ .kNew) : s.poller.channels o.channel.fd = some address := by
  have hrecorded := h.recorded address o ho hindex
  have haddress := h.address address o ho
  unfold EpollPoller.Recorded at hrecorded
  cases hi : o.channel.index with
  | kNew => exact absurd hi hindex
  | kAdded | kDeleted =>
    simp only [hi] at hrecorded
    rw [hrecorded.1, haddress]

/-- A descriptor has one object that is not new at most. -/
theorem Inv.unique (h : s.Inv) {a b : ℕ} {o u : PolledChannel} (ho : s.objects a = some o)
    (hu : s.objects b = some u) (hoindex : o.channel.index ≠ .kNew) (huindex : u.channel.index ≠ .kNew)
    (hfd : o.channel.fd = u.channel.fd) : a = b := by
  have ha := h.channels ho hoindex
  rw [hfd, h.channels hu huindex] at ha
  exact (Option.some.inj ha).symm

/-- The kernel holds a descriptor for its registered channel only, with the channel's events. -/
theorem Inv.registered (h : s.Inv) {fd : ℕ} {i : Mask × ℕ} (hi : s.poller.interest fd = some i) :
    ∃ o, s.objects i.2 = some o ∧ o.channel.fd = fd ∧ o.channel.index = .kAdded ∧
      o.channel.events = i.1 ∧ s.poller.hasChannel o.channel = true := by
  rcases h.covered fd with ⟨-, hnone⟩ | ⟨address, o, ho, rfl, hindex⟩
  · rw [hnone] at hi
    contradiction
  · have hrecorded := h.recorded address o ho hindex
    have haddress := h.address address o ho
    unfold EpollPoller.Recorded at hrecorded
    cases hkind : o.channel.index with
    | kNew => exact absurd hkind hindex
    | kDeleted =>
      simp only [hkind] at hrecorded
      rw [hrecorded.2] at hi
      contradiction
    | kAdded =>
      simp only [hkind] at hrecorded
      rw [hrecorded.2] at hi
      obtain rfl := Option.some.inj hi
      refine ⟨o, by rw [haddress, ho], rfl, hkind, rfl, ?_⟩
      simp [EpollPoller.hasChannel, hrecorded.1]

/-- Before an orderly call, the books agree on the object, new or not. -/
theorem Inv.recorded_of_orderly (h : s.Inv) {address : ℕ} {o : PolledChannel} {call : ChannelCall}
    (ho : s.objects address = some o) (horderly : s.orderly (.call address call) = true) :
    s.poller.Recorded o.channel := by
  by_cases hnew : o.channel.index = .kNew
  · have hnone : s.poller.channels o.channel.fd = none := by
      simpa [orderly, ho, hnew] using horderly
    unfold EpollPoller.Recorded
    simp only [hnew]
    rcases h.covered o.channel.fd with hfree | ⟨b, u, hu, hfd, hindex⟩
    · exact hfree
    · have hsome := h.channels hu hindex
      rw [hfd, hnone] at hsome
      contradiction
  · exact h.recorded address o ho hnew

/-- The pointers that the kernel hands back. -/
theorem Inv.wait (h : s.Inv) {ready : List (ℕ × Mask)} (hlegal : s.Legal ready) :
    List.Forall₂ (fun r (e : EpollEvent) => e.events = r.2 ∧ ∃ o, s.objects e.ptr = some o ∧
      o.channel.fd = r.1 ∧ o.channel.index = .kAdded ∧ s.poller.hasChannel o.channel = true ∧
      r.2 &&& ~~~(o.channel.events ||| EPOLLERR ||| EPOLLHUP) = 0) ready (s.poller.wait ready) := by
  obtain ⟨-, -, hknown⟩ := hlegal
  induction ready with
  | nil => exact .nil
  | cons r rest ih =>
    have hrest := ih fun r' hr' => hknown r' (List.mem_cons_of_mem _ hr')
    obtain ⟨-, hany⟩ := hknown r (List.mem_cons_self ..)
    cases hi : s.poller.interest r.1 with
    | none => simp [hi] at hany
    | some i =>
      obtain ⟨o, ho, hfd, hindex, hevents, hhas⟩ := h.registered hi
      have hwait : s.poller.wait (r :: rest) = ⟨r.2, i.2⟩ :: s.poller.wait rest := by
        simp [EpollPoller.wait, hi]
      rw [hwait]
      refine .cons ⟨rfl, o, ho, hfd, hindex, hhas, ?_⟩ hrest
      simpa [hi, hevents] using hany

/-- The pointers that the kernel hands back are distinct. -/
theorem Inv.wait_nodup (h : s.Inv) {ready : List (ℕ × Mask)} (hlegal : s.Legal ready) :
    ((s.poller.wait ready).map EpollEvent.ptr).Nodup := by
  have hfds : ((s.poller.wait ready).map EpollEvent.ptr).map
      (fun a => (s.objects a).map fun o => o.channel.fd) = (ready.map Prod.fst).map some := by
    have hwait := h.wait hlegal
    clear hlegal
    generalize s.poller.wait ready = filled at hwait
    induction hwait with
    | nil => rfl
    | cons hhead _ ih =>
      obtain ⟨-, o, ho, hfd, -⟩ := hhead
      simp only [List.map_cons, ih, ho, Option.map_some, hfd]
  refine List.Nodup.of_map (fun a => (s.objects a).map fun o => o.channel.fd) ?_
  rw [hfds]
  exact hlegal.2.1.map fun _ _ h => Option.some.inj h

/-- What `fillActiveChannels` does with distinct pointers to objects. -/
theorem fillActiveChannels_spec (filled : List EpollEvent)
    (hlive : ∀ e ∈ filled, ∃ o, s.objects e.ptr = some o)
    (hnodup : (filled.map EpollEvent.ptr).Nodup) :
    ∃ t, filled.foldlM fillActiveChannel s = some t ∧ t.poller = s.poller ∧ t.events = s.events ∧
      t.activeChannels = s.activeChannels ++ filled.map EpollEvent.ptr ∧
      (∀ e ∈ filled, t.objects e.ptr =
        (s.objects e.ptr).map fun o => { o with revents := e.events }) ∧
      ∀ address, address ∉ filled.map EpollEvent.ptr → t.objects address = s.objects address := by
  induction filled generalizing s with
  | nil => exact ⟨s, rfl, rfl, rfl, (List.append_nil _).symm, by simp, fun _ _ => rfl⟩
  | cons e rest ih =>
    obtain ⟨hfirst, hrest⟩ := List.nodup_cons.mp hnodup
    obtain ⟨o, ho⟩ := hlive e (List.mem_cons_self ..)
    have hother (e' : EpollEvent) (he' : e' ∈ rest) :
        (s.report e o).objects e'.ptr = s.objects e'.ptr :=
      s.put_objects_of_ne _ fun heq => hfirst (heq ▸ List.mem_map_of_mem he')
    obtain ⟨t, hfold, hpoller, hevents, hactive, hwritten, hothers⟩ :=
      ih (s := s.report e o)
        (fun e' he' => by rw [hother e' he']; exact hlive e' (List.mem_cons_of_mem _ he')) hrest
    refine ⟨t, ?_, hpoller, hevents, ?_, ?_, ?_⟩
    · rw [List.foldlM_cons, fillActiveChannel, ho]
      exact hfold
    · rw [hactive, report, List.map_cons, List.append_assoc, List.singleton_append]
    · intro e' he'
      rcases List.mem_cons.mp he' with rfl | he'
      · rw [hothers e'.ptr hfirst, ho, Option.map_some]
        exact s.put_objects_self ..
      · rw [hwritten e' he', hother e' he']
    · intro address haddress
      obtain ⟨hne, hnot⟩ : address ≠ e.ptr ∧ address ∉ rest.map EpollEvent.ptr := by
        simpa [List.map_cons] using haddress
      exact (hothers address hnot).trans (s.put_objects_of_ne _ hne)

/-- The room that `events_` has behind a poll. -/
def roomAfter (s : PollLoop) (ready : List (ℕ × Mask)) : ℕ :=
  if 0 < ready.length ∧ ready.length = s.events.length then 2 * s.events.length else s.events.length

/-- A poll is `fillActiveChannels` on what the kernel filled in, behind a change of room. -/
theorem poll_eq {ready : List (ℕ × Mask)} (hlength : ready.length = (s.poller.wait ready).length)
    (hfits : ready.length ≤ s.events.length) :
    ∃ events : List EpollEvent, events.length = s.roomAfter ready ∧
      s.poll (.ready ready) = (s.poller.wait ready).foldlM fillActiveChannel
        { s with events := events, activeChannels := [] } := by
  unfold PollLoop.poll roomAfter
  dsimp only
  rw [hlength] at hfits ⊢
  generalize s.poller.wait ready = filled at hfits ⊢
  have hroom : (filled ++ s.events.drop filled.length).length = s.events.length := by
    rw [List.length_append, List.length_drop]
    omega
  by_cases hsome : 0 < filled.length
  · rw [if_pos hsome]
    by_cases hfull : filled.length = s.events.length
    · refine ⟨filled ++ s.events.drop filled.length ++
        List.replicate (filled ++ s.events.drop filled.length).length ⟨0, 0⟩, ?_, ?_⟩
      · rw [if_pos ⟨hsome, hfull⟩, List.length_append, List.length_replicate, hroom, Nat.two_mul]
      · rw [hroom, if_pos hfull, fillActiveChannels]
        dsimp only
        rw [List.append_assoc, List.take_left]
    · refine ⟨filled ++ s.events.drop filled.length, ?_, ?_⟩
      · rw [if_neg fun h => hfull h.2, hroom]
      · rw [hroom, if_neg hfull, fillActiveChannels]
        dsimp only
        rw [List.take_left]
  · obtain rfl := List.eq_nil_of_length_eq_zero (Nat.eq_zero_of_not_pos hsome)
    exact ⟨s.events, by simp, by simp⟩

/-- A poll completes, whatever the kernel may answer, and reports what the kernel answered. -/
theorem Inv.poll (h : s.Inv) {ready : List (ℕ × Mask)} (hlegal : s.Legal ready) :
    ∃ t, s.poll (.ready ready) = some t ∧ s.Reports t ready ∧
      t.events.length = s.roomAfter ready := by
  have hwait := h.wait hlegal
  have hnodup := h.wait_nodup hlegal
  obtain ⟨events, hroom, hpoll⟩ := s.poll_eq hwait.length_eq hlegal.1
  have hlive (e : EpollEvent) (he : e ∈ s.poller.wait ready) : ∃ o, s.objects e.ptr = some o := by
    obtain ⟨r, -, hr⟩ := List.mem_filterMap.mp he
    obtain ⟨i, hi, rfl⟩ := Option.map_eq_some_iff.mp hr
    obtain ⟨o, ho, -⟩ := h.registered hi
    exact ⟨o, ho⟩
  obtain ⟨t, hfold, hpoller, hevents, hactive, hwritten, hothers⟩ :=
    fillActiveChannels_spec (s := { s with events := events, activeChannels := [] })
      (s.poller.wait ready) hlive hnodup
  rw [List.nil_append] at hactive
  have hother (address : ℕ) (haddress : address ∉ t.activeChannels) :
      t.objects address = s.objects address := hothers address (hactive ▸ haddress)
  refine ⟨t, hpoll.trans hfold, ⟨?_, hactive ▸ hnodup, hother, ?_, hpoller⟩, hevents ▸ hroom⟩
  · rw [hactive, List.forall₂_map_right_iff]
    refine List.forall₂_iff_zip.mpr ⟨hwait.length_eq, fun {r e} hre => ?_⟩
    obtain ⟨hmask, o, ho, hfd, hindex, hhas, hasked⟩ := List.forall₂_zip hwait hre
    refine ⟨{ o with revents := e.events }, ?_, hfd, hmask, hindex, hpoller ▸ hhas, hasked⟩
    rw [hwritten e (List.of_mem_zip hre).2, ho, Option.map_some]
  · intro address
    by_cases hin : address ∈ t.activeChannels
    · rw [hactive] at hin
      obtain ⟨e, he, rfl⟩ := List.mem_map.mp hin
      rw [hwritten e he, Option.map_map]
      rfl
    · rw [hother address hin]

/-- A change of `revents_` only is none to the books. -/
theorem Inv.of_same (h : s.Inv) (hpoller : t.poller = s.poller)
    (hchannels : ∀ address, (t.objects address).map PolledChannel.channel =
      (s.objects address).map PolledChannel.channel) : t.Inv := by
  have hback {address : ℕ} {o : PolledChannel} (ho : t.objects address = some o) :
      ∃ u, s.objects address = some u ∧ u.channel = o.channel := by
    have heq := hchannels address
    rw [ho, Option.map_some, eq_comm, Option.map_eq_some_iff] at heq
    exact heq
  refine ⟨fun address o ho hindex => ?_, fun address o ho => ?_, fun fd => ?_⟩
  · obtain ⟨u, hu, heq⟩ := hback ho
    rw [hpoller, ← heq]
    exact h.recorded address u hu (heq ▸ hindex)
  · obtain ⟨u, hu, heq⟩ := hback ho
    exact heq ▸ h.address address u hu
  · rw [hpoller]
    refine (h.covered fd).imp_right ?_
    rintro ⟨address, u, hu, hfd, hindex⟩
    have heq := hchannels address
    rw [hu, Option.map_some, Option.map_eq_some_iff] at heq
    obtain ⟨o, ho, heq⟩ := heq
    exact ⟨address, o, ho, heq ▸ hfd, heq ▸ hindex⟩

/-- An orderly call on an object. -/
theorem Inv.call (h : s.Inv) {address : ℕ} {call : ChannelCall}
    (horderly : s.orderly (.call address call) = true) (hs : s.step (.call address call) = some t) :
    t.Inv := by
  obtain ⟨o, ho, hrest⟩ := Option.bind_eq_some_iff.mp hs
  have hrecorded := h.recorded_of_orderly ho horderly
  obtain ⟨q, c', hok, hfd, haddress, hafter, hframe⟩ := call.apply_recorded hrecorded
  rw [hok] at hrest
  obtain rfl := Option.some.inj hrest
  have hself := s.put_objects_self address (some { o with channel := c' })
  have hne {b : ℕ} (hb : b ≠ address) := s.put_objects_of_ne (some { o with channel := c' }) hb
  -- Another object that is not new has another descriptor, whose records the call leaves alone.
  have hapart {b : ℕ} {u : PolledChannel} (hb : b ≠ address) (hu : s.objects b = some u)
      (hindex : u.channel.index ≠ .kNew) : u.channel.fd ≠ o.channel.fd := by
    intro heq
    have hmap := h.channels hu hindex
    by_cases hnew : o.channel.index = .kNew
    · unfold EpollPoller.Recorded at hrecorded
      simp only [hnew] at hrecorded
      rw [heq, hrecorded.1] at hmap
      contradiction
    · exact hb (h.unique hu ho hindex hnew heq)
  refine ⟨fun b u hu hindex => ?_, fun b u hu => ?_, fun fd => ?_⟩
  · by_cases hb : b = address
    · subst hb
      obtain rfl := Option.some.inj (hself.symm.trans hu)
      exact hafter
    · have hbefore := (hne hb).symm.trans hu
      exact (h.recorded b u hbefore hindex).frame hframe (hapart hb hbefore hindex)
  · by_cases hb : b = address
    · subst hb
      obtain rfl := Option.some.inj (hself.symm.trans hu)
      exact haddress.trans (h.address b o ho)
    · exact h.address b u ((hne hb).symm.trans hu)
  · by_cases heq : fd = o.channel.fd
    · by_cases hnew : c'.index = .kNew
      · unfold EpollPoller.Recorded at hafter
        simp only [hnew, hfd] at hafter
        exact .inl (heq ▸ hafter)
      · exact .inr ⟨address, _, hself, hfd.trans heq.symm, hnew⟩
    · obtain ⟨hmap, hset⟩ := hframe fd heq
      rcases h.covered fd with hfree | ⟨b, u, hu, hufd, hindex⟩
      · exact .inl ⟨hmap.trans hfree.1, hset.trans hfree.2⟩
      · have hb : b ≠ address := by
          rintro rfl
          rw [ho] at hu
          exact heq (by rw [← hufd, Option.some.inj hu])
        exact .inr ⟨b, u, (hne hb).trans hu, hufd, hindex⟩

/-- A new object at a free address. -/
theorem Inv.construct (h : s.Inv) {address : ℕ} (hfree : s.objects address = none) (fd : ℕ) :
    (s.put address (some (.new address fd))).Inv := by
  have hself := s.put_objects_self address (some (.new address fd))
  have hne {b : ℕ} (hb : b ≠ address) := s.put_objects_of_ne (some (.new address fd)) hb
  refine ⟨fun b u hu hindex => ?_, fun b u hu => ?_, fun fd' => ?_⟩
  · by_cases hb : b = address
    · subst hb
      obtain rfl := Option.some.inj (hself.symm.trans hu)
      exact absurd rfl hindex
    · exact h.recorded b u ((hne hb).symm.trans hu) hindex
  · by_cases hb : b = address
    · subst hb
      obtain rfl := Option.some.inj (hself.symm.trans hu)
      rfl
    · exact h.address b u ((hne hb).symm.trans hu)
  · refine (h.covered fd').imp_right ?_
    rintro ⟨b, u, hu, hfd, hindex⟩
    have hb : b ≠ address := by
      rintro rfl
      rw [hfree] at hu
      contradiction
    exact ⟨b, u, (hne hb).trans hu, hfd, hindex⟩

/-- The end of an object behind its removal. -/
theorem Inv.destroy (h : s.Inv) {address : ℕ} (horderly : s.orderly (.destroy address) = true) :
    (s.put address none).Inv := by
  have hself := s.put_objects_self address none
  have hne {b : ℕ} (hb : b ≠ address) := s.put_objects_of_ne none hb
  have hleft {b : ℕ} {u : PolledChannel} (hu : (s.put address none).objects b = some u) :
      s.objects b = some u := by
    by_cases hb : b = address
    · subst hb
      rw [hself] at hu
      contradiction
    · exact (hne hb).symm.trans hu
  refine ⟨fun b u hu => h.recorded b u (hleft hu), fun b u hu => h.address b u (hleft hu),
    fun fd => (h.covered fd).imp_right ?_⟩
  rintro ⟨b, u, hu, hfd, hindex⟩
  have hb : b ≠ address := by
    rintro rfl
    exact hindex (by simpa [orderly, hu] using horderly)
  exact ⟨b, u, (hne hb).trans hu, hfd, hindex⟩

/-- Every orderly step keeps the invariant. -/
theorem Inv.step (h : s.Inv) {label : PollLabel} (horderly : s.orderly label = true)
    (hs : s.step label = some t) : t.Inv := by
  cases label with
  | construct address fd =>
    obtain ⟨hfree, hput⟩ := Option.ite_none_right_eq_some.mp hs
    obtain rfl := Option.some.inj hput
    exact h.construct hfree fd
  | destroy address =>
    obtain ⟨-, hput⟩ := Option.ite_none_right_eq_some.mp hs
    obtain rfl := Option.some.inj hput
    exact h.destroy horderly
  | call address call => exact h.call horderly hs
  | poll answer =>
    cases answer with
    | failed errno =>
      obtain rfl := Option.some.inj hs
      exact h.of_same rfl fun _ => rfl
    | ready ready =>
      obtain ⟨hlegal, hpoll⟩ := Option.ite_none_right_eq_some.mp hs
      obtain ⟨t', ht', hreports, -⟩ := h.poll hlegal
      obtain rfl := Option.some.inj (ht'.symm.trans hpoll)
      exact h.of_same hreports.poller hreports.channels

/-- There is nothing yet. -/
theorem initial_inv : initial.Inv :=
  ⟨nofun, nofun, fun _ => .inl ⟨rfl, rfl⟩⟩

end PollLoop

/-- In every state of a run in which objects are destroyed behind their removal only and descriptors
handed on likewise, a poll reports what the kernel answered, through pointers to registered channels. -/
theorem poll_reports_registered (labels : List PollLabel)
    (h : Along PollLoop.step (fun s label => s.orderly label = true) PollLoop.initial labels) :
    Everywhere PollLoop.step
      (fun s => ∀ ready, s.Legal ready → ∃ t, s.poll (.ready ready) = some t ∧ s.Reports t ready)
      PollLoop.initial labels := by
  refine everywhere_of_along (fun s hs ready hlegal => ?_)
    (fun s label t hs horderly hstep => hs.step horderly hstep) PollLoop.initial_inv h
  obtain ⟨t, ht, hreports, -⟩ := hs.poll hlegal
  exact ⟨t, ht, hreports⟩

/-- Two channels at one address, one after the other, on one descriptor. -/
theorem poll_reports_successor :
    Everywhere PollLoop.step
      (fun s => ∀ ready, s.Legal ready → ∃ t, s.poll (.ready ready) = some t ∧ s.Reports t ready)
      PollLoop.initial
      [.construct 100 5, .call 100 .enableReading, .poll (.ready [(5, EPOLLIN)]), .call 100 .disableAll,
        .call 100 .remove, .destroy 100, .construct 100 5, .call 100 .enableWriting,
        .poll (.ready [(5, EPOLLOUT)])] :=
  poll_reports_registered _ (by decide +kernel)

end CcMuduo
