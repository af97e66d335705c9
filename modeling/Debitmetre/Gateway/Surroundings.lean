import Debitmetre.Gateway.Service

/-!
# The surroundings of a request

A request of a service is one of the lifecycles whose audit queue is fed, drained
and abandoned by others at any time: the others are the requests that are served
beside it and the writer they share.
-/

namespace Debitmetre

open Wire Transition

namespace Service

variable {F : Type} {service : Service F} {file : Option Bytes} {incidents : List (Incident F)}
  {arrival : Arrival F} {lifecycle next : Lifecycle F} {event : Event}

/-- The queue that a request still has to do with. -/
def queue : Lifecycle F → Option AuditQueue
  | .awaiting _ _ audit => some audit
  | .relaying _ relay => some relay.audit
  | .rejected | .failed _ _ | .abandoned _ => none

/-- A lifecycle is known from its queue and what it is without one. -/
theorem attach_of_queue {final : Lifecycle F} {audit : AuditQueue}
    (attached : queue final = some audit) (same : final.attach .detached = lifecycle) :
    final = lifecycle.attach audit := by
  rw [← same, attach_attach]
  cases final with
  | awaiting machineId operation audit' =>
      cases attached
      rfl
  | relaying exchange relay =>
      cases attached
      rfl
  | rejected | failed | abandoned => cases attached

/-- What another request offers. -/
theorem step_submit {audit : AuditQueue} (attached : queue lifecycle = some audit)
    (record : AuditRecord) :
    lifecycle.step arrival (.relay (.submit record)) =
      some (lifecycle.attach (audit.tryRecord record)) := by
  cases lifecycle with
  | awaiting | relaying =>
      cases attached
      rfl
  | rejected | failed | abandoned => cases attached

/-- The queue of a lifecycle can be drained. -/
theorem step_drain {audit : AuditQueue} (attached : queue lifecycle = some audit) :
    lifecycle.step arrival (.relay .drain) = some (lifecycle.attach audit.drain) := by
  cases lifecycle with
  | awaiting | relaying =>
      cases attached
      rfl
  | rejected | failed | abandoned => cases attached

/-- The queue of a lifecycle can be disconnected. -/
theorem step_disconnect {audit : AuditQueue} (attached : queue lifecycle = some audit) :
    lifecycle.step arrival (.relay .disconnect) =
      some (lifecycle.attach { audit with connected := false }) := by
  cases lifecycle with
  | awaiting | relaying =>
      cases attached
      rfl
  | rejected | failed | abandoned => cases attached

theorem queue_attach {audit audit' : AuditQueue}
    (attached : queue (lifecycle.attach audit) = some audit') : audit' = audit := by
  cases lifecycle with
  | awaiting | relaying =>
      cases attached
      rfl
  | rejected | failed | abandoned => cases attached

/-- A request is what becomes of a lifecycle whose surroundings are the other
requests and the writer of a service. -/
def Surrounded (arrival : Arrival F) (lifecycle : Lifecycle F) (own : List Event)
    (audit : AuditQueue) : Prop :=
  ∃ first events final, run (Lifecycle.step arrival) (.start arrival first) events = some final ∧
    events.filter Event.isOwn = own ∧ final.attach .detached = lifecycle ∧
    ∀ audit', queue final = some audit' → audit' = audit

/-- The surroundings do something to the queue. -/
theorem Surrounded.stir {own : List Event} {audit audit' : AuditQueue}
    (surrounded : Surrounded arrival lifecycle own audit) (event : Event)
    (foreign : event.isOwn = false)
    (stirs : ∀ {final : Lifecycle F}, queue final = some audit →
      final.step arrival event = some (final.attach audit')) :
    Surrounded arrival lifecycle own audit' := by
  obtain ⟨first, events, final, ran, owned, same, current⟩ := surrounded
  cases attached : queue final with
  | none =>
      refine ⟨first, events, final, ran, owned, same, ?_⟩
      intro other there
      rw [attached] at there
      cases there
  | some audit₀ =>
      cases current audit₀ attached
      refine ⟨first, events ++ [event], final.attach audit', ?_, ?_, ?_, ?_⟩
      · exact run_concat_eq_some.mpr ⟨final, ran, stirs attached⟩
      · rw [List.filter_append, owned, List.filter_cons_of_neg (by rw [foreign]; exact nofun),
          List.filter_nil, List.append_nil]
      · rw [attach_attach, same]
      · exact fun _ there => queue_attach there

/-- A request that offers to a queue that takes nothing goes on to do so. -/
theorem detached_step (detached : lifecycle.attach .detached = lifecycle)
    {output : Option AuditRecord}
    (taken : requests.step arrival lifecycle event = some (next, output)) :
    next.attach .detached = next := by
  obtain ⟨-, moved, -, follows⟩ := requests_step taken
  have quiet : output.elim AuditQueue.detached AuditQueue.detached.tryRecord = .detached := by
    cases output <;> rfl
  have again := follows .detached
  rw [detached, moved, quiet] at again
  exact (Option.some.inj again).symm

/-- The request itself does something. -/
theorem Surrounded.step {own : List Event} {audit : AuditQueue}
    (surrounded : Surrounded arrival lifecycle own audit)
    (detached : lifecycle.attach .detached = lifecycle) {output : Option AuditRecord}
    (taken : requests.step arrival lifecycle event = some (next, output)) :
    Surrounded arrival next (own ++ [event]) (output.elim audit audit.tryRecord) := by
  obtain ⟨first, events, final, ran, owned, same, current⟩ := surrounded
  obtain ⟨mine, moved, -, follows⟩ := requests_step taken
  have attached : queue final = some audit := by
    cases there : queue final with
    | some audit₀ => rw [current audit₀ there]
    | none =>
        -- A request that has nothing to do with the queue any more is over.
        subst same
        cases final with
        | awaiting | relaying => cases there
        | rejected | failed | abandoned => cases moved
  have after := detached_step detached taken
  refine ⟨first, events ++ [event], next.attach (output.elim audit audit.tryRecord), ?_, ?_, ?_,
    fun _ there => queue_attach there⟩
  · refine run_concat_eq_some.mpr ⟨final, ran, ?_⟩
    rw [attach_of_queue attached same]
    exact follows audit
  · rw [List.filter_append, owned, List.filter_cons_of_pos mine, List.filter_nil]
  · rw [attach_attach, after]

/-- Every request of a service is surrounded by the others. -/
def AllSurrounded (past : List (Incident F)) (service : Service F) : Prop :=
  ∀ {index arrival lifecycle}, service.members[index]? = some (arrival, lifecycle) →
    lifecycle.attach .detached = lifecycle ∧
      Surrounded arrival lifecycle (Pool.actionsOf index past) service.sink.audit

/-- A lifecycle that has done nothing is surrounded by nothing. -/
theorem surrounded_start (arrival : Arrival F) (audit : AuditQueue) :
    Surrounded arrival (.start arrival .detached) [] audit := by
  refine ⟨audit, [], .start arrival audit, rfl, rfl, start_attach arrival audit .detached, ?_⟩
  intro audit' there
  rw [← start_attach arrival audit audit] at there
  exact queue_attach there

theorem allSurrounded_step {past : List (Incident F)} {service next : Service F}
    {incident : Incident F} (ran : run step (.start file) past = some service)
    (taken : step service incident = some next) (all : AllSurrounded past service) :
    AllSurrounded (past ++ [incident]) next := by
  have sender := (kept ran).sender
  intro index arrival lifecycle there
  cases Pool.moves_of_step taken with
  | join arrival' =>
      rw [Pool.actionsOf_join]
      rcases Nat.lt_or_ge index service.members.length with old | new
      · rw [List.getElem?_append_left old] at there
        exact all there
      · rw [List.getElem?_append_right new, List.getElem?_singleton] at there
        obtain ⟨-, same⟩ := Option.ite_none_right_eq_some.mp there
        cases same
        rw [(Pool.alone_of_run ran).idle new]
        exact ⟨start_attach _ _ _, surrounded_start arrival _⟩
  | @member other arrival' before after action output there' moved =>
      have audit : (output.elim service.sink (auditWriter.take service.sink)).audit =
          output.elim service.sink.audit service.sink.audit.tryRecord := by
        cases output with
        | none => rfl
        | some record => exact AuditWriter.audit_tryRecord sender record
      change _ ∧ Surrounded arrival lifecycle _
        (output.elim service.sink (auditWriter.take service.sink)).audit
      rw [audit]
      by_cases same : other = index
      · subst same
        have bound := (List.getElem?_eq_some_iff.mp there').1
        rw [List.getElem?_set_self bound] at there
        cases there
        obtain ⟨detached, surrounded⟩ := all there'
        rw [Pool.actionsOf_self]
        exact ⟨detached_step detached moved, surrounded.step detached moved⟩
      · rw [List.getElem?_set_ne same] at there
        rw [Pool.actionsOf_other same]
        obtain ⟨detached, surrounded⟩ := all there
        refine ⟨detached, ?_⟩
        cases output with
        | none => exact surrounded
        | some record =>
            exact surrounded.stir (.relay (.submit record)) rfl fun attached =>
              step_submit attached record
  | @sink action after served =>
      rw [Pool.actionsOf_sink]
      obtain ⟨detached, surrounded⟩ := all there
      refine ⟨detached, ?_⟩
      change Surrounded arrival lifecycle _ after.audit
      obtain ⟨-, served⟩ := auditWriter_step served
      rcases AuditWriter.audit_step served with drained | gone | same
      · rw [drained]
        exact surrounded.stir (.relay .drain) rfl step_drain
      · rw [gone]
        exact surrounded.stir (.relay .disconnect) rfl step_disconnect
      · rw [same]
        exact surrounded

end Service

open Service

/-- **Each request of a service is a lifecycle among others**: it runs with some
events of the queue's between its own, and as long as it has to do with the queue
that is the queue of the service's writer. -/
theorem Service.surrounded {F : Type} {file : Option Bytes} {incidents : List (Incident F)}
    {service : Service F} (ran : run Service.step (.start file) incidents = some service)
    {index : Nat} {arrival : Arrival F} {lifecycle : Lifecycle F}
    (there : service.members[index]? = some (arrival, lifecycle)) :
    ∃ first events final,
      run (Lifecycle.step arrival) (.start arrival first) events = some final ∧
        events.filter Event.isOwn = Pool.actionsOf index incidents ∧
        final.attach .detached = lifecycle ∧
        ∀ audit, queue final = some audit → audit = service.sink.audit := by
  have all : AllSurrounded incidents service := by
    refine history AllSurrounded ?_ allSurrounded_step ran
    intro index arrival lifecycle there
    cases there
  exact (all there).2

/-- The response that is relayed among another request and the writer is relayed by a
lifecycle alone whose queue is drained between its steps. -/
theorem Service.surrounded_torn :
    ∃ first events final,
      run (Lifecycle.step answered) (.start answered first) events = some final ∧
        events.filter Event.isOwn = relaying ++ [.relay .record] ∧
        final.attach .detached = afterAnswered ∧
        ∀ audit, queue final = some audit → audit = afterTorn.sink.audit := by
  have there : afterTorn.members[0]? = some (answered, afterAnswered) := rfl
  exact Service.surrounded run_torn there

end Debitmetre
