import Debitmetre.Gateway.Service

/-!
# Progress

How far a response can get ahead of its caller, and that every request comes to
its end.  The pump waits when the channel is full, so the gateway never holds
more of a body than the channel and the chunk that waits for it; it stops with
the first chunk that finds no receiver; and each step of a request leaves it less
to do.
-/

namespace Debitmetre

open Wire Transition

variable {F : Type} {exchange : Exchange F} {audit : AuditQueue} {relay next : Relay}
  {action : Action}

namespace Relay

/-- The chunks that may be in the channel, or were when it was dropped. -/
def channelled (relay : Relay) : Nat :=
  if relay.receiver then relay.channel.items.length else responseCapacity

theorem channelled_le (relay : Relay) : relay.channelled ≤ responseCapacity := by
  rw [channelled]
  split
  · exact relay.channel.bounded
  · exact Nat.le_refl _

/-- The chunk that waits to be sent, or did when the pump left. -/
def inHand (relay : Relay) : Nat :=
  match relay.phase with
  | .polling => 0
  | .sending _ | .left _ | .closed _ | .recorded _ | .panicked _ => 1

theorem inHand_le (relay : Relay) : relay.inHand ≤ 1 := by
  rw [inHand]
  split <;> omega

/-- The pump is no further ahead than what it holds. -/
def Ahead (relay : Relay) : Prop :=
  relay.pulled.length ≤ relay.received.length + relay.channelled + relay.inHand

theorem ahead_step (taken : step exchange relay action = some next) (ahead : Ahead relay) :
    Ahead next := by
  rw [Ahead] at ahead ⊢
  cases moves_of_step taken with
  | pull polling more =>
      rw [inHand, polling] at ahead
      rw [List.length_append]
      exact Nat.succ_le_succ ahead
  | finish polling done =>
      rw [inHand, polling] at ahead
      exact Nat.le_succ_of_le ahead
  | @send chunk channel sending receiver room =>
      rw [inHand, sending, channelled, if_pos receiver] at ahead
      rw [inHand, channelled, if_pos receiver, room, List.length_append, ← Nat.add_assoc]
      exact ahead
  | refuse sending released =>
      rw [inHand, sending] at ahead
      exact ahead
  | cancel pumping gone =>
      have more := relay.inHand_le
      exact Nat.le_trans ahead (Nat.add_le_add_left more _)
  | close left =>
      rw [inHand, left] at ahead
      exact ahead
  | record closed | panic closed =>
      rw [inHand, closed] at ahead
      exact ahead
  | @read item channel reading queued =>
      rw [channelled] at ahead
      change relay.pulled.length ≤ (relay.received ++ [item.chunk]).length +
        (if relay.receiver then channel.items.length else responseCapacity) + relay.inHand
      rw [List.length_append, List.length_singleton]
      split_ifs at ahead ⊢
      · rw [queued, List.length_cons] at ahead
        omega
      · omega
  | release dropped =>
      have bounded := relay.channelled_le
      change relay.pulled.length ≤ relay.received.length + responseCapacity + relay.inHand
      omega
  | readEnd | drop | drain | submit | disconnect => exact ahead

/-- The chunks that the pump may yet pull when nobody receives them. -/
def spare (relay : Relay) : Nat :=
  match relay.phase with
  | .polling => 1
  | .sending _ | .left _ | .closed _ | .recorded _ | .panicked _ => 0

/-- A pump without a receiver comes no further than the chunk it is about to
pull. -/
def Stops (most : Nat) (relay : Relay) : Prop :=
  relay.receiver = false ∧ relay.pulled.length + relay.spare ≤ most

theorem stops_step {most : Nat} (taken : step exchange relay action = some next)
    (stops : Stops most relay) : Stops most next := by
  obtain ⟨released, most_le⟩ := stops
  cases moves_of_step taken with
  | pull polling more =>
      rw [spare, polling] at most_le
      refine ⟨released, ?_⟩
      rw [List.length_append]
      exact most_le
  | finish polling done =>
      rw [spare, polling] at most_le
      exact ⟨released, Nat.le_of_succ_le most_le⟩
  | send sending receiver => exact (Bool.false_ne_true (released.symm.trans receiver)).elim
  | refuse | cancel | close | record | panic => exact ⟨released, Nat.le_of_add_right_le most_le⟩
  | release => exact ⟨rfl, most_le⟩
  | read | readEnd | drop | drain | submit | disconnect => exact ⟨released, most_le⟩

/-- What is left to do for a phase. -/
def Phase.toGo : Phase → Nat
  | .sending _ => 5
  | .polling => 3
  | .left _ => 2
  | .closed _ => 1
  | .recorded _ | .panicked _ => 0

/-- What is left to do for a caller. -/
def Caller.toGo : Caller → Nat
  | .reading => 2
  | .ended _ => 1
  | .dropped => 0

/-- The steps that pump and caller have left at most. -/
def toGo (relay : Relay) : Nat :=
  6 * relay.upstream.length + relay.channel.items.length + Phase.toGo relay.phase +
    Caller.toGo relay.caller + relay.receiver.toNat

/-- Each step leaves less to do. -/
theorem toGo_lt (taken : step exchange relay action = some next) (own : action.isOwn = true) :
    next.toGo < relay.toGo := by
  cases moves_of_step taken with
  | @pull chunk rest polling more =>
      simp only [toGo, polling, more, Phase.toGo, List.length_cons]
      omega
  | finish polling =>
      simp only [toGo, polling, Phase.toGo]
      omega
  | send sending receiver room =>
      simp only [toGo, sending, room, Phase.toGo, List.length_append, List.length_singleton]
      omega
  | refuse sending =>
      simp only [toGo, sending, Phase.toGo]
      omega
  | cancel pumping =>
      cases phase : relay.phase with
      | polling | sending =>
          simp only [toGo, phase, Phase.toGo]
          omega
      | left | closed | recorded | panicked =>
          rw [phase] at pumping
          cases pumping
  | close left =>
      simp only [toGo, left, Phase.toGo]
      omega
  | record closed | panic closed =>
      simp only [toGo, record, closed, Phase.toGo]
      omega
  | read reading queued =>
      simp only [toGo, queued, List.length_cons]
      omega
  | readEnd reading =>
      simp only [toGo, reading, Caller.toGo]
      omega
  | drop kept =>
      cases caller : relay.caller with
      | reading | ended =>
          simp only [toGo, caller, Caller.toGo]
          omega
      | dropped => exact absurd caller kept
  | release =>
      obtain ⟨⟨-, receiver⟩, -⟩ := Option.ite_none_right_eq_some.mp taken
      simp only [toGo, receiver, Bool.toNat_true, Bool.toNat_false, BoundedQueue.empty,
        List.length_nil]
      omega
  | drain | submit | disconnect => cases own

end Relay

/-- **The gateway never reads far ahead of a caller**: whatever the caller does,
no more has been pulled from the upstream than it was handed, the channel can
hold, and the pump has in hand. -/
theorem Relay.length_pulled_le
    (reached : Reachable (step exchange) (start exchange audit) relay) :
    relay.pulled.length ≤ relay.received.length + responseCapacity + 1 := by
  obtain ⟨actions, ran⟩ := reached
  have ahead : Ahead relay := invariant Ahead ahead_step ran (Nat.zero_le _)
  exact Nat.le_trans ahead
    (Nat.add_le_add (Nat.add_le_add_left relay.channelled_le _) relay.inHand_le)

/-- One chunk has been pulled and queued for a caller that was handed nothing. -/
theorem Relay.length_pulled_le_oneChunk :
    ∃ relay, run (step oneChunk) (start oneChunk ⟨.empty, true⟩) [.pull, .send] = some relay ∧
      relay.pulled.length ≤ relay.received.length + responseCapacity + 1 := by
  obtain ⟨relay, ran⟩ : ∃ relay, run (step oneChunk) (start oneChunk ⟨.empty, true⟩)
      [.pull, .send] = some relay := ⟨_, rfl⟩
  exact ⟨relay, ran, Relay.length_pulled_le ⟨[.pull, .send], ran⟩⟩

/-- **Nothing is pulled for a caller that is gone**: once the body is released, the
pump pulls at most one chunk more, and none if it holds one or has left. -/
theorem Relay.length_pulled_of_released (released : relay.receiver = false)
    {actions : List Action} {final : Relay}
    (ran : run (step exchange) relay actions = some final) :
    final.pulled.length ≤ relay.pulled.length + relay.spare :=
  Nat.le_of_add_right_le
    (invariant (Stops _) stops_step ran ⟨released, Nat.le_refl _⟩).2

/-- A pump that holds a chunk for a caller that is gone pulls no more. -/
theorem Relay.length_pulled_of_released_oneChunk :
    ∃ relay final, run (step oneChunk) (start oneChunk ⟨.empty, true⟩) [.pull, .drop, .release] =
        some relay ∧ run (step oneChunk) relay [.refuse, .close] = some final ∧
      final.pulled.length ≤ relay.pulled.length + relay.spare := by
  obtain ⟨relay, final, ran, left, released⟩ : ∃ relay final,
      run (step oneChunk) (start oneChunk ⟨.empty, true⟩) [.pull, .drop, .release] = some relay ∧
        run (step oneChunk) relay [.refuse, .close] = some final ∧ relay.receiver = false :=
    ⟨_, _, rfl, rfl, rfl⟩
  exact ⟨relay, final, ran, left, Relay.length_pulled_of_released released left⟩

/-- The steps of a request at most. -/
def Arrival.steps (arrival : Arrival F) : Nat :=
  arrival.reply.elim 1 fun reply => 6 * reply.body.length + 7

namespace Lifecycle

variable {arrival : Arrival F} {lifecycle next : Lifecycle F} {event : Event}

/-- The steps that a request has left at most. -/
def toGo (arrival : Arrival F) : Lifecycle F → Nat
  | .awaiting _ _ _ => arrival.steps
  | .relaying _ relay => relay.toGo
  | .rejected | .failed _ _ | .abandoned _ => 0

theorem toGo_answer_lt (arrival : Arrival F) (audit audit' : AuditQueue) (machineId : String)
    (operation : Option Operation) :
    toGo arrival (answer arrival audit machineId operation) <
      toGo arrival (.awaiting machineId operation audit') := by
  cases replied : arrival.reply with
  | some reply =>
      simp only [answer, replied, toGo, Arrival.steps, Option.elim_some]
      exact Nat.lt_succ_self _
  | none =>
      cases operation <;>
        simp only [answer, replied, toGo, Arrival.steps, Option.elim_none, Nat.zero_lt_one]

theorem toGo_lt (taken : step arrival lifecycle event = some next) (own : event.isOwn = true) :
    next.toGo arrival < lifecycle.toGo arrival := by
  cases lifecycle with
  | rejected | failed | abandoned => cases taken
  | awaiting machineId operation audit =>
      cases event with
      | head =>
          cases taken
          exact toGo_answer_lt arrival audit audit machineId operation
      | disconnect =>
          cases taken
          rw [toGo, toGo, Arrival.steps]
          cases arrival.reply with
          | some reply => exact Nat.succ_pos _
          | none => exact Nat.one_pos
      | relay action =>
          cases action with
          | drain | submit | disconnect => cases own
          | pull | finish | send | refuse | cancel | close | record | read | readEnd | drop |
              release => cases taken
  | relaying exchange relay =>
      cases event with
      | head | disconnect => cases taken
      | relay action =>
          obtain ⟨relay', moved, rfl⟩ := Option.map_eq_some_iff.mp taken
          exact Relay.toGo_lt moved own

end Lifecycle

theorem Event.isOwn_of_goesOn {event : Event} (goes : event.goesOn = true) :
    event.isOwn = true := by
  cases event with
  | head => rfl
  | disconnect => cases goes
  | relay action =>
      cases action with
      | drop | drain | submit | disconnect => cases goes
      | pull | finish | send | refuse | cancel | close | record | read | readEnd | release => rfl

theorem Lifecycle.toGo_start_le (arrival : Arrival F) (audit : AuditQueue) :
    (Lifecycle.start arrival audit).toGo arrival ≤ arrival.steps := by
  rw [Lifecycle.start]
  cases arrival.accepted with
  | none => exact Nat.zero_le _
  | some sent => exact Nat.le_refl _

open Service

/-- **Every request comes to its end**: in whatever order the requests of a
service and its writer take their steps, a request takes no more of them than its
response has chunks for, and as long as it is not over there is one that it can
take, and which is no disconnect. -/
theorem Service.comes_to_end {file : Option Bytes} {incidents : List (Incident F)}
    {service : Service F} (ran : run Service.step (.start file) incidents = some service)
    {index : Nat} {arrival : Arrival F} {lifecycle : Lifecycle F}
    (there : service.members[index]? = some (arrival, lifecycle)) :
    (Pool.actionsOf index incidents).length ≤ arrival.steps ∧
      (lifecycle.isOver = false → ∃ event, event.goesOn = true ∧
        (Service.step service (.member index event)).isSome) := by
  have alone := (Pool.alone_of_run ran).ran there
  constructor
  · have bounded := length_le_of_lessens (fun _ => True) (Lifecycle.toGo arrival)
      (fun _ _ => trivial) (fun taken _ => by
        obtain ⟨own, moved⟩ := (alone_requests _).mp taken
        exact Lifecycle.toGo_lt moved own) alone trivial
    exact Nat.le_trans (Nat.le_of_add_right_le bounded) (Lifecycle.toGo_start_le arrival .detached)
  · intro pending
    obtain ⟨event, next, goes, moved⟩ :=
      Lifecycle.proceeds (comes ran (List.mem_of_getElem? there)) pending
    refine ⟨event, goes, (Pool.isSome_step_iff ran there event).mpr ?_⟩
    have taken := (alone_requests next).mpr ⟨Event.isOwn_of_goesOn goes, moved⟩
    rw [run_concat_eq_some.mpr ⟨lifecycle, alone, taken⟩, Option.isSome_some]

/-- The response that is relayed has taken six of thirteen steps, and the other request
can take its first. -/
theorem Service.comes_to_end_joined :
    (relaying ++ [Event.relay .record]).length ≤ answered.steps ∧
      ∃ event, event.goesOn = true ∧ (Service.step ⟨[(answered, afterAnswered),
        (responses, .awaiting "laptop" (some .response) .detached)], received [] success⟩
          (.member 1 event)).isSome := by
  have waits : [(answered, afterAnswered),
      (responses, Lifecycle.awaiting "laptop" (some .response) .detached)][1]? =
        some (responses, .awaiting "laptop" (some .response) .detached) := rfl
  exact ⟨(Service.comes_to_end run_joined List.getElem?_cons_zero).1,
    (Service.comes_to_end run_joined waits).2 rfl⟩

end Debitmetre
