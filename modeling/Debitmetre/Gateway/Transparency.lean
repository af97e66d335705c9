import Debitmetre.Gateway.Relay
import Debitmetre.Gateway.Transports

/-!
# Transparency

Whatever order pump, caller and audit writer take their steps in, the chunks read
by the caller, those queued and the one that waits to be sent are the chunks
pulled from the upstream, in their order, as long as the caller keeps the body;
and nothing the caller can see depends on the metering.  What does not come
through is how the body ended.
-/

namespace Debitmetre

open Wire Transition

variable {F : Type} {exchange : Exchange F} {audit : AuditQueue} {relay next : Relay}
  {action : Action}

/-- The chunks queued for the caller. -/
def Relay.queued (relay : Relay) : List Bytes := relay.channel.items.map Item.chunk

/-- What the chunks of a body do at any time. -/
structure Relay.Flow (exchange : Exchange F) (relay : Relay) : Prop where
  pulled : relay.pulled ++ relay.upstream = exchange.body
  flow : relay.caller ≠ .dropped →
    relay.received ++ relay.queued ++ relay.phase.waiting = relay.pulled
  kept : relay.caller ≠ .dropped → relay.receiver = true ∧ relay.clientGone = false
  left : ∀ pumped, relay.phase.pumped = some pumped →
    pumped = .cancelled ∧ relay.caller = .dropped ∨
      pumped = exchange.ending.pumped ∧ relay.upstream = []
  ended : ∀ how, relay.caller = .ended how →
    how = .clean ∧ relay.queued = [] ∧ relay.phase.senderDropped = true

namespace Relay

/-- The caller sees no end as long as the sender is there. -/
theorem Flow.not_ended (held : Flow exchange relay) (sender : relay.phase.senderDropped = false)
    (how : Ending) : relay.caller ≠ .ended how := by
  intro ended
  have dropped := (held.ended how ended).2.2
  rw [sender] at dropped
  cases dropped

/-- Without a receiver or after the notification the body is dropped. -/
theorem Flow.dropped (held : Flow exchange relay)
    (gone : relay.receiver = false ∨ relay.clientGone = true) : relay.caller = .dropped := by
  by_contra kept
  obtain ⟨receiver, notified⟩ := held.kept kept
  rw [receiver, notified] at gone
  rcases gone with gone | gone <;> cases gone

theorem flow_start (exchange : Exchange F) (audit : AuditQueue) :
    Flow exchange (start exchange audit) where
  pulled := rfl
  flow := fun _ => rfl
  kept := fun _ => ⟨rfl, rfl⟩
  left := nofun
  ended := nofun

/-- Every step keeps the chunks in their order. -/
theorem flow_step (taken : step exchange relay action = some next)
    (held : Flow exchange relay) : Flow exchange next := by
  cases moves_of_step taken with
  | @pull chunk rest polling more =>
      exact { held with
        pulled := by
          rw [← held.pulled, more]
          exact List.append_assoc relay.pulled [chunk] rest
        flow := fun kept => by
          have flow := held.flow kept
          rw [polling, Phase.waiting, List.append_nil] at flow
          exact congrArg (· ++ [chunk]) flow
        left := nofun
        ended := fun how ended => absurd ended (held.not_ended (by rw [polling]; rfl) how) }
  | finish polling done =>
      exact { held with
        flow := fun kept => by
          have flow := held.flow kept
          rw [polling] at flow
          exact flow
        left := fun pumped same => .inr ⟨(Option.some.inj same).symm, done⟩
        ended := fun how ended => absurd ended (held.not_ended (by rw [polling]; rfl) how) }
  | @send chunk channel sending receiver room =>
      exact { held with
        flow := fun kept => by
          have flow := held.flow kept
          have queued : channel.items.map Item.chunk = relay.queued ++ [chunk] := by
            rw [room, List.map_append]
            rfl
          rw [sending, Phase.waiting, List.append_assoc, ← queued] at flow
          exact (List.append_nil _).trans flow
        left := nofun
        ended := fun how ended => absurd ended (held.not_ended (by rw [sending]; rfl) how) }
  | refuse sending released =>
      have dropped := held.dropped (.inl released)
      exact { held with
        flow := fun kept => absurd dropped kept
        left := fun pumped same => .inl ⟨(Option.some.inj same).symm, dropped⟩
        ended := fun how ended => nomatch dropped.symm.trans ended }
  | cancel pumping gone =>
      have dropped := held.dropped (.inr gone)
      exact {
        pulled := held.pulled
        flow := fun kept => absurd dropped kept
        kept := fun kept => absurd dropped kept
        left := fun pumped same => .inl ⟨(Option.some.inj same).symm, dropped⟩
        ended := fun how ended => nomatch dropped.symm.trans ended }
  | close left =>
      exact { held with
        flow := fun kept => by
          have flow := held.flow kept
          rw [left] at flow
          exact flow
        left := fun pumped same => held.left pumped (by rw [left]; exact same)
        ended := fun how ended => ⟨(held.ended how ended).1, (held.ended how ended).2.1, rfl⟩ }
  | record closed | panic closed =>
      exact {
        pulled := held.pulled
        flow := fun kept => by
          have flow := held.flow kept
          rw [closed] at flow
          exact flow
        kept := held.kept
        left := fun pumped same => held.left pumped (by rw [closed]; exact same)
        ended := fun how ended => ⟨(held.ended how ended).1, (held.ended how ended).2.1, rfl⟩ }
  | @read item channel reading queued =>
      exact { held with
        flow := fun kept => by
          have flow := held.flow kept
          rw [Relay.queued, queued, List.map_cons, List.append_cons] at flow
          exact flow
        ended := fun how ended => nomatch reading.symm.trans ended }
  | readEnd reading empty dropped =>
      have kept : relay.caller ≠ .dropped := by
        rw [reading]
        exact nofun
      exact { held with
        flow := fun _ => held.flow kept
        kept := fun _ => held.kept kept
        left := fun pumped same =>
          (held.left pumped same).imp (fun both => absurd both.2 kept) id
        ended := fun how ended => by
          cases ended
          exact ⟨rfl, congrArg (List.map Item.chunk) empty, dropped⟩ }
  | drop kept =>
      exact {
        pulled := held.pulled
        flow := fun kept => absurd rfl kept
        kept := fun kept => absurd rfl kept
        left := fun pumped same => (held.left pumped same).imp (fun both => ⟨both.1, rfl⟩) id
        ended := nofun }
  | release dropped =>
      exact { held with
        flow := fun kept => absurd dropped kept
        kept := fun kept => absurd dropped kept
        ended := fun how ended => nomatch dropped.symm.trans ended }
  | drain | submit | disconnect => exact { held with }

theorem flow (reached : Reachable (step exchange) (start exchange audit) relay) :
    Flow exchange relay := by
  obtain ⟨actions, ran⟩ := reached
  exact invariant (Flow exchange) flow_step ran (flow_start exchange audit)

/-- The record a lifecycle comes to. -/
def auditOf (exchange : Exchange F) (pulled : List Bytes) (pumped : Pumped) : Option AuditRecord :=
  exchange.operation.map fun operation =>
    (Upstream.response exchange.status exchange.openaiModel pulled pumped).record exchange.readers
      exchange.stamp exchange.machineId operation exchange.reasoningEffort

/-- The records a phase has offered. -/
def offers (exchange : Exchange F) (pulled : List Bytes) : Phase → List AuditRecord
  | .recorded pumped => (auditOf exchange pulled pumped).toList
  | .polling | .sending _ | .left _ | .closed _ | .panicked _ => []

/-- The observer in a phase. -/
def observer (exchange : Exchange F) (pulled : List Bytes) : Phase → Option StreamUsageParser
  | .recorded _ => exchange.operation.map fun _ =>
      (pulled.foldl StreamUsageParser.push (.new exchange.openaiModel)).finalize exchange.readers
  | .polling | .sending _ | .left _ | .closed _ | .panicked _ => exchange.operation.map fun _ =>
      pulled.foldl StreamUsageParser.push (.new exchange.openaiModel)

/-- The task of the pump panics at the end of what was pulled. -/
def unreadable (exchange : Exchange F) (pulled : List Bytes) : Bool :=
  exchange.operation.isSome && exchange.readers.panics pulled.flatten

/-- What a phase says of the end of the task. -/
def EndsAs (unreadable : Bool) : Phase → Prop
  | .recorded _ => unreadable = false
  | .panicked _ => unreadable = true
  | .polling | .sending _ | .left _ | .closed _ => True

/-- The observer has mirrored what was pulled, and its record is offered at the
end, unless reading it panics. -/
structure Observed (exchange : Exchange F) (relay : Relay) : Prop where
  parser : relay.parser = observer exchange relay.pulled relay.phase
  offered : relay.offered = offers exchange relay.pulled relay.phase
  ends : EndsAs (unreadable exchange relay.pulled) relay.phase

/-- What is mirrored is what was pulled. -/
theorem Observed.mirror (held : Observed exchange relay) :
    relay.parser.map StreamUsageParser.mirror =
      exchange.operation.map fun _ => relay.pulled.flatten := by
  rw [held.parser]
  cases relay.phase with
  | recorded pumped =>
      simp only [observer, StreamUsageParser.finalize_foldl_push, Option.map_map]
      rfl
  | polling | sending | left | closed | panicked =>
      simp only [observer, StreamUsageParser.foldl_push, Option.map_map]
      rfl

/-- Whether finalizing the observer panics is a matter of what was pulled. -/
theorem Observed.panics (held : Observed exchange relay) :
    relay.panics exchange = unreadable exchange relay.pulled := by
  have mirror := congrArg (Option.any exchange.readers.panics) held.mirror
  rw [Option.any_map, Option.any_map] at mirror
  rw [Relay.panics, unreadable]
  refine mirror.trans ?_
  cases exchange.operation <;> rfl

/-- Every step keeps the mirror. -/
theorem observed_step (taken : step exchange relay action = some next)
    (held : Observed exchange relay) : Observed exchange next := by
  have unread := held.panics
  obtain ⟨parser, offered, ends⟩ := held
  cases moves_of_step taken with
  | @pull chunk rest polling more =>
      rw [polling] at parser offered
      refine ⟨?_, offered, trivial⟩
      change relay.parser.map (·.push chunk) =
        observer exchange (relay.pulled ++ [chunk]) (.sending chunk)
      rw [parser, observer, observer, Option.map_map, List.foldl_append]
      rfl
  | finish polling done =>
      rw [polling] at parser offered
      exact ⟨parser, offered, trivial⟩
  | send sending receiver room =>
      rw [sending] at parser offered
      exact ⟨parser, offered, trivial⟩
  | refuse sending released =>
      rw [sending] at parser offered
      exact ⟨parser, offered, trivial⟩
  | cancel pumping gone =>
      cases phase : relay.phase with
      | polling =>
          rw [phase] at parser offered
          exact ⟨parser, offered, trivial⟩
      | sending chunk =>
          rw [phase] at parser offered
          exact ⟨parser, offered, trivial⟩
      | left | closed | recorded | panicked =>
          rw [phase] at pumping
          cases pumping
  | close left =>
      rw [left] at parser offered
      exact ⟨parser, offered, trivial⟩
  | @record pumped closed reads =>
      have readable := unread.symm.trans reads
      rw [closed] at parser offered
      have finalized : relay.parser.map (StreamUsageParser.finalize exchange.readers) =
          observer exchange relay.pulled (.recorded pumped) := by
        rw [parser, observer, observer, Option.map_map]
        rfl
      refine ⟨finalized, ?_, readable⟩
      change relay.offered ++ (Option.map₂ (auditRecord exchange pumped)
        (relay.parser.map (StreamUsageParser.finalize exchange.readers))
        exchange.operation).toList = (auditOf exchange relay.pulled pumped).toList
      rw [offered, finalized, observer, offers, auditOf, List.nil_append]
      cases exchange.operation <;> rfl
  | panic closed panics =>
      have unreadable := unread.symm.trans panics
      rw [closed] at parser offered
      exact ⟨parser, offered, unreadable⟩
  | read | readEnd | drop | release | drain | submit | disconnect => exact ⟨parser, offered, ends⟩

theorem observed (reached : Reachable (step exchange) (start exchange audit) relay) :
    Observed exchange relay := by
  obtain ⟨actions, ran⟩ := reached
  exact invariant (Observed exchange) observed_step ran ⟨rfl, rfl, trivial⟩

/-- The steps by which pump and caller bring the body to its end. -/
def progresses : Action → Bool
  | .pull | .finish | .send | .close | .read | .readEnd => true
  | .refuse | .cancel | .record | .drop | .release | .drain | .submit _ | .disconnect => false

/-- Pump and caller have nothing left to do. -/
def Settled (exchange : Exchange F) (relay : Relay) : Prop :=
  ∀ action, progresses action → step exchange relay action = none

/-- What pump and caller have left to do at most. -/
def due (relay : Relay) : Nat :=
  5 * relay.upstream.length + relay.channel.items.length +
    match relay.phase, relay.caller with
    | .sending _, _ => 5
    | .polling, _ => 3
    | .left _, _ => 2
    | .closed _, .reading | .recorded _, .reading | .panicked _, .reading => 1
    | .closed _, _ | .recorded _, _ | .panicked _, _ => 0

/-- The pump gets on with the upstream. -/
theorem step_of_polling (exchange : Exchange F) (polling : relay.phase = .polling) :
    ∃ action, progresses action ∧ (step exchange relay action).isSome := by
  cases upstream : relay.upstream with
  | nil =>
      refine ⟨.finish, rfl, ?_⟩
      simp only [step, polling, upstream, Option.isSome_some]
  | cons chunk rest =>
      refine ⟨.pull, rfl, ?_⟩
      simp only [step, polling, upstream, Option.isSome_some]

/-- The pump drops its sender. -/
theorem step_of_left (exchange : Exchange F) {pumped : Pumped} (left : relay.phase = .left pumped) :
    (step exchange relay .close).isSome := by
  simp only [step, left, Option.isSome_some]

theorem step_of_queued (exchange : Exchange F) (reading : relay.caller = .reading)
    (queued : relay.channel.items ≠ []) : (step exchange relay .read).isSome := by
  obtain ⟨item, rest, popped⟩ := BoundedQueue.pop_of_ne_nil queued
  simp only [step, reading, popped, Option.isSome_some]

/-- The caller reads on until the end. -/
theorem step_of_senderDropped (exchange : Exchange F) (reading : relay.caller = .reading)
    (dropped : relay.phase.senderDropped = true) :
    ∃ action, progresses action ∧ (step exchange relay action).isSome := by
  by_cases queued : relay.channel.items = []
  · refine ⟨.readEnd, rfl, ?_⟩
    rw [step, if_pos ⟨reading, queued, dropped⟩, Option.isSome_some]
  · exact ⟨.read, rfl, step_of_queued exchange reading queued⟩

/-- A caller that keeps reading is never stuck. -/
theorem step_of_reading (exchange : Exchange F) (reading : relay.caller = .reading)
    (receiver : relay.receiver = true) :
    ∃ action, progresses action ∧ (step exchange relay action).isSome := by
  cases phase : relay.phase with
  | polling => exact step_of_polling exchange phase
  | sending chunk =>
      by_cases room : relay.channel.items.length < responseCapacity
      · obtain ⟨channel, pushed⟩ := BoundedQueue.push_of_lt room (.ok chunk)
        refine ⟨.send, rfl, ?_⟩
        simp only [step, phase, receiver, pushed, Option.map_some, Option.isSome_some]
      · -- The pump waits for the caller.
        refine ⟨.read, rfl, step_of_queued exchange reading fun empty => room ?_⟩
        rw [empty]
        exact Nat.zero_lt_succ _
  | left pumped => exact ⟨.close, rfl, step_of_left exchange phase⟩
  | closed pumped | recorded pumped | panicked pumped =>
      exact step_of_senderDropped exchange reading (by rw [phase]; rfl)

/-- Each of these steps leaves less to do. -/
theorem due_lt (taken : step exchange relay action = some next) (own : progresses action) :
    next.due < relay.due := by
  cases moves_of_step taken with
  | @pull chunk rest polling more =>
      simp only [due, polling, more, List.length_cons]
      omega
  | finish polling done =>
      simp only [due, polling]
      omega
  | send sending receiver room =>
      simp only [due, sending, room, List.length_append, List.length_singleton]
      omega
  | close left =>
      cases caller : relay.caller <;> simp only [due, left, caller] <;> omega
  | read reading queued =>
      simp only [due, queued, List.length_cons]
      omega
  | readEnd reading empty dropped =>
      cases phase : relay.phase with
      | polling | sending | left =>
          rw [phase] at dropped
          cases dropped
      | closed | recorded | panicked =>
          simp only [due, phase, reading]
          omega
  | refuse | cancel | record | panic | drop | release | drain | submit | disconnect => cases own

/-- None of these steps drops the body. -/
theorem kept_of_progress (taken : step exchange relay action = some next)
    (own : progresses action) (kept : relay.caller ≠ .dropped) : next.caller ≠ .dropped := by
  cases moves_of_step taken with
  | readEnd => exact nofun
  | drop => cases own
  | pull | finish | send | refuse | cancel | close | record | panic | read | release | drain |
      submit | disconnect => exact kept

/-- A body that is not dropped can be read to its end, which is a clean one. -/
theorem completes (held : Flow exchange relay) (kept : relay.caller ≠ .dropped) :
    ∃ actions final, (∀ action ∈ actions, progresses action) ∧
      run (step exchange) relay actions = some final ∧ final.caller = .ended .clean := by
  apply exists_run_of_lessens (fun relay => Flow exchange relay ∧ relay.caller ≠ .dropped)
    (fun relay => relay.caller = .ended .clean) (fun action => progresses action) due ?_
    ⟨held, kept⟩
  intro relay ⟨held, kept⟩ pending
  cases caller : relay.caller with
  | dropped => exact absurd caller kept
  | ended how =>
      obtain ⟨rfl, -, -⟩ := held.ended how caller
      exact absurd caller pending
  | reading =>
      obtain ⟨action, own, possible⟩ := step_of_reading exchange caller (held.kept kept).1
      obtain ⟨next, taken⟩ := Option.isSome_iff_exists.mp possible
      exact ⟨action, next, own, taken, ⟨flow_step taken held, kept_of_progress taken own kept⟩,
        due_lt taken own⟩

/-- What a caller sees of a response body. -/
inductive Seen
  | chunk (bytes : Bytes)
  | ended (how : Ending)
  | dropped
  deriving DecidableEq, Repr

/-- What a step shows to the caller. -/
def shows (relay : Relay) : Action → Option Seen
  | .read => relay.channel.pop.map fun popped => .chunk popped.1.chunk
  | .readEnd => some (.ended .clean)
  | .drop => some .dropped
  | _ => none

/-- A phase, whatever has ended the task of the pump. -/
def forgetEnd : Phase → Phase
  | .panicked pumped => .recorded pumped
  | phase => phase

theorem pumping_forgetEnd (phase : Phase) : (forgetEnd phase).pumping = phase.pumping := by
  cases phase <;> rfl

theorem senderDropped_forgetEnd (phase : Phase) :
    (forgetEnd phase).senderDropped = phase.senderDropped := by
  cases phase <;> rfl

theorem forgetEnd_forgetEnd (phase : Phase) : forgetEnd (forgetEnd phase) = forgetEnd phase := by
  cases phase <;> rfl

/-- All of a relay but what only the metering knows. -/
def forget (relay : Relay) : Relay :=
  { relay with
    parser := none
    phase := forgetEnd relay.phase
    audit := ⟨.empty, false⟩
    offered := [] }

/-- What a step does to the rest does not depend on the metering. -/
theorem step_forget {exchange' : Exchange F} (ending : exchange'.ending = exchange.ending)
    (relay : Relay) (action : Action) :
    (step exchange relay action).map forget = (step exchange' relay.forget action).map forget := by
  cases action with
  | pull =>
      cases phase : relay.phase <;> cases upstream : relay.upstream <;>
        simp only [step, forget, forgetEnd, phase, upstream]
      all_goals rfl
  | finish =>
      cases phase : relay.phase <;> cases upstream : relay.upstream <;>
        simp only [step, forget, forgetEnd, phase, upstream, ending]
      all_goals rfl
  | send =>
      cases phase : relay.phase <;> cases receiver : relay.receiver <;>
        simp only [step, forget, forgetEnd, phase, receiver, Option.map_map, Option.map_none]
      rfl
  | refuse =>
      cases phase : relay.phase <;> cases receiver : relay.receiver <;>
        simp only [step, forget, forgetEnd, phase, receiver]
      all_goals rfl
  | cancel | readEnd | drop | release =>
      simp only [step, apply_ite (Option.map forget), Option.map_some, Option.map_none]
      simp only [forget, pumping_forgetEnd, senderDropped_forgetEnd, forgetEnd_forgetEnd]
  | close =>
      cases phase : relay.phase <;> simp only [step, forget, forgetEnd, phase]
      all_goals rfl
  | record =>
      cases phase : relay.phase <;> simp only [step, forget, forgetEnd, phase]
      split <;> split <;> rfl
  | read =>
      cases caller : relay.caller <;> cases popped : relay.channel.pop <;>
        simp only [step, forget, caller, popped, Option.map_some, forgetEnd_forgetEnd]
  | drain | submit | disconnect =>
      simp only [step, Option.map_some, forget, forgetEnd_forgetEnd]

/-- Exchanges with the same body are followed step by step. -/
theorem follows {exchange' : Exchange F} (ending : exchange'.ending = exchange.ending) :
    Follows (step exchange) shows (step exchange') shows
      fun relay relay' => relay.forget = relay'.forget := by
  constructor
  intro relay action next relay' taken same
  have answer : (step exchange' relay' action).map forget = some next.forget := by
    calc (step exchange' relay' action).map forget
        = (step exchange relay'.forget action).map forget := step_forget ending.symm relay' action
      _ = (step exchange relay.forget action).map forget := by rw [same]
      _ = (step exchange relay action).map forget := (step_forget rfl relay action).symm
      _ = some next.forget := by rw [taken, Option.map_some]
  obtain ⟨next', answered, forgets⟩ := Option.map_eq_some_iff.mp answer
  refine ⟨[action], next', run_cons_eq_some.mpr ⟨next', answered, rfl⟩, ?_, forgets.symm⟩
  rw [trace_cons answered, trace, List.append_nil]
  change (shows relay'.forget action).toList = (shows relay.forget action).toList
  rw [same]

/-- Nothing the caller sees depends on the metering or the audit writer. -/
theorem traces_eq (exchange exchange' : Exchange F) (body : exchange'.body = exchange.body)
    (ending : exchange'.ending = exchange.ending) (audit audit' : AuditQueue) :
    traces (step exchange') shows (start exchange' audit') =
      traces (step exchange) shows (start exchange audit) := by
  have same : (start exchange audit).forget = (start exchange' audit').forget := by
    simp only [forget, start, body]
  exact Set.Subset.antisymm ((follows ending.symm).traces_subset same.symm)
    ((follows ending).traces_subset same)

/-- What a caller can rely on at any time. -/
structure Transparent (exchange : Exchange F) (relay : Relay) : Prop where
  conserved : relay.caller ≠ .dropped →
    relay.received.flatten ++ relay.queued.flatten ++ relay.phase.waiting.flatten =
      relay.pulled.flatten
  mirrored : relay.parser.map StreamUsageParser.mirror =
    exchange.operation.map fun _ => relay.pulled.flatten
  pulled : relay.pulled.flatten <+: exchange.body.flatten
  ended : ∀ how, relay.caller = .ended how → relay.received.flatten = relay.pulled.flatten
  settled : relay.caller ≠ .dropped → Settled exchange relay → ∃ how, relay.caller = .ended how
  complete : ∀ how, relay.caller = .ended how →
    relay.received.flatten = exchange.body.flatten ∧
      relay.parser.map StreamUsageParser.mirror =
        exchange.operation.map fun _ => exchange.body.flatten

/-- At its end the caller has read what was pulled. -/
theorem Flow.received_of_ended (held : Flow exchange relay) {how : Ending}
    (ended : relay.caller = .ended how) : relay.received = relay.pulled := by
  obtain ⟨-, queued, dropped⟩ := held.ended how ended
  have flow := held.flow (by rw [ended]; exact nofun)
  have waiting : relay.phase.waiting = [] := by
    cases phase : relay.phase with
    | sending chunk =>
        rw [phase] at dropped
        cases dropped
    | polling | left | closed | recorded | panicked => rfl
  rwa [queued, waiting, List.append_nil, List.append_nil] at flow

/-- At its end the caller has the whole body. -/
theorem Flow.pulled_of_ended (held : Flow exchange relay) {how : Ending}
    (ended : relay.caller = .ended how) : relay.pulled = exchange.body := by
  have dropped := (held.ended how ended).2.2
  have left : ∃ pumped, relay.phase.pumped = some pumped := by
    cases phase : relay.phase with
    | polling | sending | left =>
        rw [phase] at dropped
        cases dropped
    | closed pumped | recorded pumped | panicked pumped => exact ⟨pumped, rfl⟩
  obtain ⟨pumped, left⟩ := left
  rcases held.left pumped left with ⟨-, gone⟩ | ⟨-, upstream⟩
  · exact nomatch ended.symm.trans gone
  · rw [← held.pulled, upstream, List.append_nil]

theorem transparent (reached : Reachable (step exchange) (start exchange audit) relay) :
    Transparent exchange relay where
  conserved := fun kept => by
    rw [← List.flatten_append, ← List.flatten_append, (flow reached).flow kept]
  mirrored := (observed reached).mirror
  pulled := ⟨relay.upstream.flatten, by rw [← List.flatten_append, (flow reached).pulled]⟩
  ended := fun how ended => by rw [(flow reached).received_of_ended ended]
  settled := fun kept settled => by
    cases caller : relay.caller with
    | dropped => exact absurd caller kept
    | ended how => exact ⟨how, rfl⟩
    | reading =>
        obtain ⟨action, own, possible⟩ := step_of_reading exchange caller
          ((flow reached).kept kept).1
        rw [settled action own] at possible
        cases possible
  complete := fun how ended => by
    have whole := (flow reached).pulled_of_ended ended
    rw [(flow reached).received_of_ended ended, (observed reached).mirror, whole]
    exact ⟨rfl, rfl⟩

end Relay

/-- **The relay is transparent**: whatever order the steps come in, what the
caller has read, what is queued and what waits is what was pulled and mirrored, a
first part of the body; the body ends for the caller when all of it is
delivered, and what the caller can see is the same with the metering on or off
and whatever state the audit queue is in. -/
theorem relay_transparent (exchange : Exchange F) (audit : AuditQueue) :
    (∀ relay, Reachable (Relay.step exchange) (.start exchange audit) relay →
        relay.Transparent exchange) ∧
      ∀ operation audit',
        traces (Relay.step { exchange with operation }) Relay.shows
            (.start { exchange with operation } audit') =
          traces (Relay.step exchange) Relay.shows (.start exchange audit) :=
  ⟨fun _ reached => Relay.transparent reached,
    fun operation audit' =>
      Relay.traces_eq exchange { exchange with operation } rfl rfl audit audit'⟩

/-- A body that ends for the caller ends as the upstream's did. -/
def EndsAlike (exchange : Exchange F) (audit : AuditQueue) : Prop :=
  ∀ relay how, Reachable (Relay.step exchange) (.start exchange audit) relay →
    relay.caller = .ended how → (how = .clean ↔ exchange.ending = .clean)

/-- **A body ends for the caller as it ended upstream if and only if it ended
cleanly**: the items of the channel carry no error, so every end is a clean one,
and every body can be read to its end. -/
theorem endsAlike_iff (exchange : Exchange F) (audit : AuditQueue) :
    EndsAlike exchange audit ↔ exchange.ending = .clean := by
  constructor
  · intro alike
    obtain ⟨actions, final, -, ran, ended⟩ :=
      Relay.completes (Relay.flow_start exchange audit) nofun
    exact (alike final .clean ⟨actions, ran⟩ ended).mp rfl
  · intro clean relay how reached ended
    obtain ⟨rfl, -, -⟩ := (Relay.flow reached).ended how ended
    exact ⟨fun _ => clean, fun _ => rfl⟩

/-- An event stream that breaks off inside its first event. -/
def brokenOff : Exchange Empty where
  readers := standardReaders
  stamp := ⟨"0", "2026-01-01T00:00:00Z"⟩
  machineId := "laptop"
  operation := some .response
  status := 200
  openaiModel := none
  reasoningEffort := none
  body := [utf8 "data: "]
  ending := .error

/-- The broken off stream is handed to the caller as a complete one. -/
theorem not_endsAlike_brokenOff : ¬ EndsAlike brokenOff ⟨.empty, true⟩ := by
  intro alike
  have ended : ∃ relay,
      run (Relay.step brokenOff) (.start brokenOff ⟨.empty, true⟩)
        [.pull, .send, .read, .finish, .close, .readEnd] = some relay ∧
      relay.caller = .ended .clean := ⟨_, rfl, rfl⟩
  obtain ⟨relay, ran, ended⟩ := ended
  exact nomatch (alike relay .clean ⟨_, ran⟩ ended).mp rfl

end Debitmetre
