import CcMuduo.EpollPoller.Poll
import CcMuduo.Foundation.Counting
import Mathlib.Data.List.Perm.Subperm
import Mathlib.Data.Nat.Log

/-!
# The room for events

`events_` starts with room for sixteen events and is doubled behind every poll that filled it. The kernel
may have had more to say only when it filled it, so ready descriptors are passed over by a number of
polls at most that is logarithmic in the number of descriptors, however long the loop runs.
-/

namespace CcMuduo

open Foundation

/-- Every descriptor is below the process's limit. -/
def PollLabel.below (limit : ℕ) : PollLabel → Bool
  | .construct _ fd => decide (fd < limit)
  | .destroy _ | .call _ _ | .poll _ => true

namespace PollLoop

variable {s t : PollLoop} {limit : ℕ}

/-- A poll that finds no room for more. -/
def fills (s : PollLoop) : PollLabel → Bool
  | .poll (.ready ready) => ready.length == s.events.length
  | .poll (.failed _) | .construct _ _ | .destroy _ | .call _ _ => false

/-- The descriptors are below the limit, and the room is within its bounds. -/
structure Roomy (limit : ℕ) (s : PollLoop) : Prop extends Inv s where
  below : ∀ address o, s.objects address = some o → o.channel.fd < limit
  atLeast : kInitEventListSize ≤ s.events.length
  atMost : s.events.length ≤ max kInitEventListSize (2 * limit)

/-- The kernel has at most as many descriptors to report as there are. -/
theorem Roomy.ready_length (h : s.Roomy limit) {ready : List (ℕ × Mask)} (hlegal : s.Legal ready) :
    ready.length ≤ limit := by
  obtain ⟨-, hnodup, hknown⟩ := hlegal
  have hsubset : ready.map Prod.fst ⊆ List.range limit := by
    intro fd hfd
    obtain ⟨r, hr, rfl⟩ := List.mem_map.mp hfd
    obtain ⟨-, hany⟩ := hknown r hr
    obtain ⟨i, hi, -⟩ := Option.any_eq_true _ _ |>.mp hany
    obtain ⟨o, ho, hofd, -⟩ := h.registered hi
    rw [List.mem_range, ← hofd]
    exact h.below i.2 o ho
  have hlength := (List.subperm_of_subset hnodup hsubset).length_le
  rwa [List.length_map, List.length_range] at hlength

/-- Every orderly step but a poll that fills the room leaves the room as it is. -/
theorem Inv.room (h : s.Inv) {label : PollLabel} (hs : s.step label = some t) :
    t.events.length =
      if 0 < s.events.length ∧ s.fills label = true then 2 * s.events.length else s.events.length := by
  cases label with
  | construct address fd =>
    obtain ⟨-, hput⟩ := Option.ite_none_right_eq_some.mp hs
    obtain rfl := Option.some.inj hput
    simp [fills, put]
  | destroy address =>
    obtain ⟨-, hput⟩ := Option.ite_none_right_eq_some.mp hs
    obtain rfl := Option.some.inj hput
    simp [fills, put]
  | call address call =>
    obtain ⟨o, -, hrest⟩ := Option.bind_eq_some_iff.mp hs
    obtain ⟨r, -, hput⟩ := Option.bind_eq_some_iff.mp hrest
    obtain rfl := Option.some.inj hput
    simp [fills, put]
  | poll answer =>
    cases answer with
    | failed errno =>
      obtain rfl := Option.some.inj hs
      simp [fills]
    | ready ready =>
      obtain ⟨hlegal, hpoll⟩ := Option.ite_none_right_eq_some.mp hs
      obtain ⟨t', ht', -, hroom⟩ := h.poll hlegal
      obtain rfl := Option.some.inj (ht'.symm.trans hpoll)
      rw [hroom, roomAfter]
      refine if_congr ?_ rfl rfl
      simp only [fills, beq_iff_eq]
      omega

/-- Where the objects behind a step come from, and with which descriptor. -/
theorem Inv.origin (h : s.Inv) {label : PollLabel} (horderly : s.orderly label = true)
    (hs : s.step label = some t) {address : ℕ} {o : PolledChannel} (ho : t.objects address = some o) :
    (∃ u, s.objects address = some u ∧ u.channel.fd = o.channel.fd) ∨
      label = .construct address o.channel.fd := by
  cases label with
  | construct a fd =>
    obtain ⟨-, hput⟩ := Option.ite_none_right_eq_some.mp hs
    obtain rfl := Option.some.inj hput
    by_cases heq : address = a
    · subst heq
      rw [put_objects_self] at ho
      obtain rfl := Option.some.inj ho
      exact .inr rfl
    · rw [put_objects_of_ne _ _ heq] at ho
      exact .inl ⟨o, ho, rfl⟩
  | destroy a =>
    obtain ⟨-, hput⟩ := Option.ite_none_right_eq_some.mp hs
    obtain rfl := Option.some.inj hput
    by_cases heq : address = a
    · subst heq
      rw [put_objects_self] at ho
      contradiction
    · rw [put_objects_of_ne _ _ heq] at ho
      exact .inl ⟨o, ho, rfl⟩
  | call a call =>
    obtain ⟨u, hu, hrest⟩ := Option.bind_eq_some_iff.mp hs
    obtain ⟨q, c', hok, hfd, -⟩ := call.apply_recorded (h.recorded_of_orderly hu horderly)
    rw [hok] at hrest
    obtain rfl := Option.some.inj hrest
    by_cases heq : address = a
    · subst heq
      obtain rfl := Option.some.inj ((s.put_objects_self _ _).symm.trans ho)
      exact .inl ⟨u, hu, hfd.symm⟩
    · exact .inl ⟨o, (s.put_objects_of_ne _ heq).symm.trans ho, rfl⟩
  | poll answer =>
    have hsame : (t.objects address).map PolledChannel.channel =
        (s.objects address).map PolledChannel.channel := by
      cases answer with
      | failed errno =>
        obtain rfl := Option.some.inj hs
        rfl
      | ready ready =>
        obtain ⟨hlegal, hpoll⟩ := Option.ite_none_right_eq_some.mp hs
        obtain ⟨t', ht', hreports, -⟩ := h.poll hlegal
        obtain rfl := Option.some.inj (ht'.symm.trans hpoll)
        exact hreports.channels address
    rw [ho, Option.map_some, eq_comm, Option.map_eq_some_iff] at hsame
    obtain ⟨u, hu, heq⟩ := hsame
    exact .inl ⟨u, hu, by rw [heq]⟩

/-- A poll that fills the room leaves no more room than twice the limit. -/
theorem Roomy.fills (h : s.Roomy limit) {label : PollLabel} (hs : s.step label = some t)
    (hfull : s.fills label = true) : s.events.length ≤ limit := by
  match label, hs, hfull with
  | .poll (.ready ready), hs, hfull =>
    obtain ⟨hlegal, -⟩ := Option.ite_none_right_eq_some.mp hs
    rw [← beq_iff_eq.mp hfull]
    exact h.ready_length hlegal

/-- Every orderly step that keeps to the limit keeps the bounds. -/
theorem Roomy.step (h : s.Roomy limit) {label : PollLabel} (horderly : s.orderly label = true)
    (hlimit : label.below limit = true) (hs : s.step label = some t) : t.Roomy limit := by
  have hroom := h.toInv.room hs
  refine ⟨h.toInv.step horderly hs, fun address o ho => ?_, ?_, ?_⟩
  · rcases h.toInv.origin horderly hs ho with ⟨u, hu, hfd⟩ | rfl
    · exact hfd ▸ h.below address u hu
    · exact of_decide_eq_true hlimit
  · have hleast := h.atLeast
    rw [hroom]
    split <;> omega
  · rw [hroom]
    split
    · rename_i hfull
      have hfills := h.fills hs hfull.2
      omega
    · exact h.atMost

/-- A poll that fills the room raises its logarithm. -/
theorem Roomy.raise (h : s.Roomy limit) {label : PollLabel} (hs : s.step label = some t) :
    Nat.log 2 s.events.length + (s.fills label).toNat ≤ Nat.log 2 t.events.length := by
  have hsome : 0 < s.events.length := Nat.lt_of_lt_of_le (by decide) h.atLeast
  rw [h.toInv.room hs]
  cases hfull : s.fills label with
  | true =>
    rw [if_pos ⟨hsome, rfl⟩, Nat.mul_comm, Nat.log_mul_base (by decide) (by omega)]
    rfl
  | false => simp

/-- The initial room. -/
theorem initial_roomy (limit : ℕ) : initial.Roomy limit where
  toInv := initial_inv
  below := nofun
  atLeast := le_of_eq (List.length_replicate ..).symm
  atMost := by
    rw [initial, List.length_replicate]
    exact le_max_left ..

end PollLoop

/-- In every orderly run of a process with so many descriptors, the room for events stays within twice
their number, and the polls that find no room for more are as many as fit into its logarithm. -/
theorem polls_without_room (limit : ℕ) (labels : List PollLabel)
    (h : Along PollLoop.step (fun s label => s.orderly label = true ∧ label.below limit = true)
      PollLoop.initial labels) :
    Everywhere PollLoop.step (fun s => s.events.length ≤ max kInitEventListSize (2 * limit))
        PollLoop.initial labels ∧
      Nat.log 2 kInitEventListSize + countAlong PollLoop.step PollLoop.fills PollLoop.initial labels ≤
        Nat.log 2 (max kInitEventListSize (2 * limit)) := by
  have keep (s : PollLoop) (label : PollLabel) (t : PollLoop) (hs : s.Roomy limit)
      (hlabel : s.orderly label = true ∧ label.below limit = true) (hstep : s.step label = some t) :
      t.Roomy limit :=
    hs.step hlabel.1 hlabel.2 hstep
  refine ⟨everywhere_of_along (fun s hs => hs.atMost) keep (PollLoop.initial_roomy limit) h, ?_⟩
  have hcount := countAlong_le (v := fun s : PollLoop => Nat.log 2 s.events.length) keep
    (fun s label t hs _ hstep => hs.raise hstep) (fun s hs => Nat.log_mono_right hs.atMost)
    (PollLoop.initial_roomy limit) h
  rwa [PollLoop.initial, List.length_replicate] at hcount

/-- A poll that fills the room, and the next one. -/
theorem polls_without_room_once :
    Everywhere PollLoop.step (fun s => s.events.length ≤ max kInitEventListSize (2 * 16))
        PollLoop.initial
        ((List.range 16).flatMap (fun fd => [.construct fd fd, .call fd .enableReading]) ++
          [.poll (.ready ((List.range 16).map fun fd => (fd, EPOLLIN))), .poll (.ready [(3, EPOLLIN)])]) ∧
      Nat.log 2 kInitEventListSize + countAlong PollLoop.step PollLoop.fills PollLoop.initial
        ((List.range 16).flatMap (fun fd => [.construct fd fd, .call fd .enableReading]) ++
          [.poll (.ready ((List.range 16).map fun fd => (fd, EPOLLIN))), .poll (.ready [(3, EPOLLIN)])]) ≤
        Nat.log 2 (max kInitEventListSize (2 * 16)) :=
  polls_without_room 16 _ (by decide +kernel)

end CcMuduo
