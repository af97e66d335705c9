import Debitmetre.Gateway.Progress

/-!
# One record for each request

A metered request comes to its end in every run that goes on for long enough, and
then it has offered one record, unless its caller disconnected while the head of
the response was awaited, or the pump panicked on what it had mirrored.  Both
leave nothing behind.
-/

namespace Debitmetre

open Wire Transition

variable {F : Type} {arrival : Arrival F} {lifecycle next final : Lifecycle F} {event : Event}

/-- The caller of a metered request does not disconnect before the head of the
response is there, and the pump does not panic at its end. -/
def Attended (arrival : Arrival F) (lifecycle : Lifecycle F) (event : Event) : Prop :=
  arrival.metered.isSome →
    event ≠ .disconnect ∧ (event = .relay .record → lifecycle.panics = false)

/-- A lifecycle that is over has offered one record if the request is metered, and
none otherwise. -/
def AuditedOnce (arrival : Arrival F) (lifecycle : Lifecycle F) : Prop :=
  lifecycle.offered.length = if arrival.metered.isSome then 1 else 0

namespace Lifecycle

/-- Nothing has kept the request from offering a record so far. -/
def Kept (lifecycle : Lifecycle F) : Prop :=
  lifecycle.isAbandoned = false ∧ lifecycle.isPanicked = false

/-- A relay panics at its end, or not at all. -/
theorem isPanicked_of_step {exchange : Exchange F} {relay next : Relay} {action : Action}
    (taken : Relay.step exchange relay action = some next) :
    next.phase.isPanicked = false ↔
      relay.phase.isPanicked = false ∧ (action = .record → relay.panics exchange = false) := by
  cases Relay.moves_of_step taken with
  | pull polling | finish polling =>
      rw [polling]
      exact ⟨fun _ => ⟨rfl, nofun⟩, fun _ => rfl⟩
  | send sending | refuse sending =>
      rw [sending]
      exact ⟨fun _ => ⟨rfl, nofun⟩, fun _ => rfl⟩
  | close left =>
      rw [left]
      exact ⟨fun _ => ⟨rfl, nofun⟩, fun _ => rfl⟩
  | cancel pumping =>
      cases phase : relay.phase with
      | polling | sending => exact ⟨fun _ => ⟨rfl, nofun⟩, fun _ => rfl⟩
      | left | closed | recorded | panicked =>
          rw [phase] at pumping
          cases pumping
  | record closed reads =>
      rw [closed]
      exact ⟨fun _ => ⟨rfl, fun _ => reads⟩, fun _ => rfl⟩
  | panic closed panics =>
      refine ⟨nofun, fun both => ?_⟩
      rw [both.2 rfl] at panics
      cases panics
  | read | readEnd | drop | release | drain | submit | disconnect =>
      exact ⟨fun sound => ⟨sound, nofun⟩, And.left⟩

/-- The head of a response is attended. -/
theorem attended_head : Attended arrival lifecycle .head := by
  refine fun _ => ⟨fun same => ?_, fun same => ?_⟩
  · cases same
  · cases same

/-- A step of a relay is attended if it is not one on which the pump panics. -/
theorem attended_relay {action : Action} (reads : action = .record → lifecycle.panics = false) :
    Attended arrival lifecycle (.relay action) := by
  refine fun _ => ⟨fun same => ?_, fun same => reads (Event.relay.inj same)⟩
  cases same

/-- What keeps a metered request from offering a record is a step that is not
attended, and nothing else. -/
theorem kept_step (metered : arrival.metered.isSome)
    (taken : step arrival lifecycle event = some next) :
    next.Kept ↔ lifecycle.Kept ∧ Attended arrival lifecycle event := by
  cases lifecycle with
  | rejected | failed | abandoned => cases taken
  | awaiting machineId operation audit =>
      cases event with
      | head =>
          cases taken
          have kept : (answer arrival audit machineId operation).Kept := by
            cases replied : arrival.reply <;> cases operation <;>
              simp only [answer, replied] <;> exact ⟨rfl, rfl⟩
          exact iff_of_true kept ⟨⟨rfl, rfl⟩, attended_head⟩
      | disconnect =>
          cases taken
          exact iff_of_false (fun kept => Bool.false_ne_true kept.1.symm) fun both =>
            (both.2 metered).1 rfl
      | relay action =>
          cases action with
          | drain | submit | disconnect =>
              cases taken
              refine iff_of_true ⟨rfl, rfl⟩ ⟨⟨rfl, rfl⟩, attended_relay fun same => ?_⟩
              cases same
          | pull | finish | send | refuse | cancel | close | record | read | readEnd | drop |
              release => cases taken
  | relaying exchange relay =>
      cases event with
      | head | disconnect => cases taken
      | relay action =>
          obtain ⟨relay', moved, rfl⟩ := Option.map_eq_some_iff.mp taken
          have sound := isPanicked_of_step moved
          constructor
          · intro kept
            obtain ⟨before, reads⟩ := sound.mp kept.2
            exact ⟨⟨rfl, before⟩, attended_relay reads⟩
          · intro both
            refine ⟨rfl, sound.mpr ⟨both.1.2, fun same => ?_⟩⟩
            exact (both.2 metered).2 (congrArg Event.relay same)

/-- A run is attended if and only if nothing has kept the metered request from
offering a record. -/
theorem kept_iff_along (metered : arrival.metered.isSome) {audit : AuditQueue}
    {events : List Event} (ran : run (step arrival) (start arrival audit) events = some final) :
    final.Kept ↔ Along (step arrival) (Attended arrival) (start arrival audit) events := by
  have first : (start arrival audit).Kept := by
    rw [start]
    cases arrival.accepted <;> exact ⟨rfl, rfl⟩
  exact (along_iff (fun _ => True) Kept (fun _ _ => trivial)
    (fun taken _ => kept_step metered taken) ran trivial).trans (and_iff_right first)

theorem along_of_unmetered (unmetered : ¬ arrival.metered.isSome) (events : List Event) :
    Along (step arrival) (Attended arrival) lifecycle events := by
  induction events generalizing lifecycle with
  | nil => trivial
  | cons event events ih => exact ⟨fun metered => absurd metered unmetered, fun _ _ => ih⟩

/-- A metered request that is over has offered one record if nothing has kept it
from that, and none otherwise. -/
theorem auditedOnce_iff_kept (comes : Comes arrival final) (metered : arrival.metered.isSome)
    (ended : final.isOver = true) : AuditedOnce arrival final ↔ final.Kept := by
  rw [AuditedOnce, Service.length_offered comes, metered, Bool.true_and, if_pos rfl, isConcluded,
    ended, Bool.true_and]
  cases abandoned : final.isAbandoned <;> cases panicked : final.isPanicked <;>
    simp [Kept, abandoned, panicked]

/-- **Every lifecycle can come to its end**, and without a disconnect. -/
theorem exists_run_over (comes : Comes arrival lifecycle) :
    ∃ events final, (∀ event ∈ events, event.goesOn = true) ∧
      run (step arrival) lifecycle events = some final ∧ final.isOver = true := by
  apply exists_run_of_lessens (Comes arrival) (fun lifecycle => lifecycle.isOver = true)
    (fun event : Event => event.goesOn = true) (toGo arrival) ?_ comes
  intro lifecycle comes pending
  obtain ⟨event, next, goes, taken⟩ := proceeds comes (Bool.eq_false_of_not_eq_true pending)
  exact ⟨event, next, goes, taken, comes_step taken comes,
    toGo_lt taken (Event.isOwn_of_goesOn goes)⟩

end Lifecycle

/-- **A request is audited once if and only if its caller does not disconnect
while the head of the response is awaited and the pump does not panic at its
end**, in every run that has come to the end of the lifecycle, and every run can;
a request that is not metered is not audited at all. -/
theorem auditedOnce_iff (arrival : Arrival F) (audit : AuditQueue) (events : List Event)
    (final : Lifecycle F)
    (ran : run (Lifecycle.step arrival) (.start arrival audit) events = some final) :
    (final.isOver = true → (AuditedOnce arrival final ↔
        Along (Lifecycle.step arrival) (Attended arrival) (.start arrival audit) events)) ∧
      ∃ more last, (∀ event ∈ more, event.goesOn = true) ∧
        run (Lifecycle.step arrival) final more = some last ∧ last.isOver = true := by
  have comes : Lifecycle.Comes arrival final := invariant (Lifecycle.Comes arrival)
    Lifecycle.comes_step ran (Lifecycle.comes_start arrival audit)
  refine ⟨fun ended => ?_, Lifecycle.exists_run_over comes⟩
  by_cases metered : arrival.metered.isSome
  · exact (Lifecycle.auditedOnce_iff_kept comes metered ended).trans
      (Lifecycle.kept_iff_along metered ran)
  · have silent := Lifecycle.offered_of_unmetered comes (Option.not_isSome_iff_eq_none.mp metered)
    refine iff_of_true ?_ (Lifecycle.along_of_unmetered metered events)
    rw [AuditedOnce, silent, if_neg metered, List.length_nil]

/-- A response that is relayed to its end is audited once, with its usage. -/
theorem auditedOnce_iff_answered :
    ∃ final, run (Lifecycle.step answered) (.start answered ⟨.empty, true⟩)
        (relaying ++ [.relay .record]) = some final ∧ AuditedOnce answered final ∧
      final.offered.map AuditRecord.usage =
        [some (canonicalize ⟨some 7, none, none, none, none, none⟩).1] := by
  have ran : ∃ exchange relay, run (Lifecycle.step answered) (.start answered ⟨.empty, true⟩)
      (relaying ++ [.relay .record]) = some (.relaying exchange relay) ∧
      relay.phase = .recorded .ended ∧ relay.offered.map AuditRecord.usage =
        [some (canonicalize ⟨some 7, none, none, none, none, none⟩).1] := by
    rw [start_answered]
    exact ⟨_, _, rfl, rfl, rfl⟩
  have metered : answered.metered.isSome := by
    have same : answered.metered = responses.metered := rfl
    rw [same, metered_responses, Option.isSome_some]
  obtain ⟨exchange, relay, ran, recorded, usage⟩ := ran
  refine ⟨_, ran, ((auditedOnce_iff answered _ _ _ ran).1 ?_).mpr ?_, usage⟩
  · rw [Lifecycle.isOver, recorded]
    rfl
  · apply (Lifecycle.kept_iff_along metered ran).mp
    rw [Lifecycle.Kept, Lifecycle.isPanicked, recorded]
    exact ⟨rfl, rfl⟩

/-- The same request, answered by a stream that starts with a byte order mark. -/
def marked : Arrival Empty :=
  { responses with reply := some ⟨200, none, [utf8 "\uFEFFdata: \x7b\x7d\n\n"], .clean⟩ }

/-- A metered request whose caller leaves before the head of the response is there
is not audited, and neither is one whose response starts with a byte order mark. -/
theorem not_auditedOnce_responses :
    responses.metered = some ("laptop", .response) ∧
      (¬ ∀ events final, run (Lifecycle.step responses) (.start responses ⟨.empty, true⟩) events =
        some final → final.isOver = true → AuditedOnce responses final) ∧
      marked.metered = some ("laptop", .response) ∧
        ¬ ∀ events final, run (Lifecycle.step marked) (.start marked ⟨.empty, true⟩) events =
          some final → final.isOver = true → AuditedOnce marked final := by
  have same : marked.metered = some ("laptop", .response) := metered_responses
  refine ⟨metered_responses, fun audited => ?_, same, fun audited => ?_⟩
  · have once := audited [.disconnect] (.abandoned ⟨.empty, true⟩)
      (by rw [start_responses]; rfl) rfl
    rw [AuditedOnce, metered_responses] at once
    cases once
  · have started : Lifecycle.start marked ⟨.empty, true⟩ =
        .awaiting "laptop" (some .response) ⟨.empty, true⟩ := start_responses _
    have panicked : ∃ final, run (Lifecycle.step marked) (.start marked ⟨.empty, true⟩)
        (relaying ++ [.relay .record]) = some final ∧ final.isOver = true ∧
        final.offered = [] := by
      rw [started]
      exact ⟨_, rfl, rfl, rfl⟩
    obtain ⟨final, ran, ended, silent⟩ := panicked
    have once := audited _ final ran ended
    rw [AuditedOnce, same, silent] at once
    cases once

end Debitmetre
