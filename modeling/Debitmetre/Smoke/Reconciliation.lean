import Debitmetre.Smoke.CountAudit
import Debitmetre.Smoke.LoadReport
import Debitmetre.Smoke.Upstream
import Debitmetre.Summary.Service

/-!
# What a smoke run passes for

A smoke run passes if the load generator reports that all requests succeeded and the
usage file of the gateway, read once it has been killed, has as many metered records.
Of a gateway whose writes did not fail that is so if and only if every request was
answered with the whole response of the mock upstream and its record has reached the
file: nothing was dropped, none was cut off, and the writer was not behind.
-/

namespace Debitmetre

open Wire Wire.Json Wire.Ascii Transition

/-- What is counted in the start of a file that was written. -/
theorem countAudit_of_take {F : Type} (f64 : NumLit → Option F) (path : String)
    {entries : List Submission} {n : Nat} {file : Bytes} (cut : file = (written entries).take n)
    (accepted metered : Nat) :
    countAudit f64 path file = .ok (accepted, metered) ↔
      IsUtf8 file ∧ (counted file).length = accepted ∧
        (usages (counted file)).length = metered := by
  rw [← isSome_utf8?, countAudit]
  cases decodes : utf8? file with
  | none =>
      refine iff_of_false (fun same => ?_) fun both => ?_
      · cases same
      · cases both.1
  | some content =>
      have octets := utf8_of_utf8? decodes
      simp only [foldl_countLine f64 (octets.trans cut), octets, Except.ok.injEq, Prod.mk.injEq,
        Option.isSome_some, true_and]

namespace AuditWriter

variable {writer : AuditWriter}

/-- The file of a writer whose writes did not fail is the start of some lines. -/
theorem Held.exists_take (held : Held [] writer)
    (canonical : ∀ record ∈ writer.accepted, record.Canonical)
    (whole : writer.settled.any isTorn = false) :
    ∃ entries n, writer.file = (written entries).take n := by
  obtain ⟨lines, -, same⟩ := held.exists_lines canonical whole
  rw [held.file, List.nil_append, List.flatMap_append, same]
  cases writing : writer.writing with
  | none =>
      refine ⟨lines, (written lines).length, ?_⟩
      rw [List.take_length]
      exact List.append_nil _
  | some entry =>
      let last : Submission := ⟨entry.1, held.canonical_writing canonical writing⟩
      refine ⟨lines ++ [last], (written lines).length + entry.2, ?_⟩
      have lined : written (lines ++ [last]) = written lines ++ entry.1.line := by
        rw [written, List.flatMap_append, List.flatMap_singleton, ← written]
      rw [lined, List.take_length_add_append, Option.toList_some, List.flatMap_singleton, piece]

/-- When all that was accepted can be read, the file is a text. -/
theorem Held.isUtf8_file (held : Held [] writer)
    (canonical : ∀ record ∈ writer.accepted, record.Canonical)
    (whole : writer.settled.any isTorn = false)
    (all : writer.readable = writer.accepted.length) : IsUtf8 writer.file := by
  obtain ⟨lines, -, same⟩ := held.exists_lines canonical whole
  have accepted := congrArg List.length held.accepted
  rw [← all, readable, List.length_append, List.length_map, List.length_append] at accepted
  rw [held.file, List.nil_append, List.flatMap_append, same]
  refine (isUtf8_written lines).append ?_
  cases writing : writer.writing with
  | none => exact isUtf8_of_all rfl
  | some entry =>
      rw [writing, Option.any_some, Option.toList_some, List.length_singleton] at accepted
      have text : entry.2 = entry.1.toVec.length := by
        by_contra part
        rw [decide_eq_false part, if_neg Bool.false_ne_true] at accepted
        omega
      rw [Option.toList_some, List.flatMap_singleton, piece, text, AuditRecord.line,
        List.take_left]
      exact isUtf8_toVec entry.1

theorem Held.readable_le {old : Bytes} (held : Held old writer) :
    writer.readable ≤ writer.accepted.length := by
  rw [held.accepted, readable, List.length_append, List.length_map, List.length_append]
  cases writer.writing with
  | none => simp only [Option.any_none, Bool.false_eq_true, ↓reduceIte]; omega
  | some entry => simp only [Option.toList_some, List.length_singleton]; split_ifs <;> omega

end AuditWriter

theorem length_flatMap_le {α β : Type} {items : α → List β} {l : List α}
    (each : ∀ a ∈ l, (items a).length ≤ 1) : (l.flatMap items).length ≤ l.length := by
  induction l with
  | nil => exact Nat.le_refl 0
  | cons a l ih =>
      obtain ⟨first, rest⟩ := List.forall_mem_cons.mp each
      rw [List.flatMap_cons, List.length_append, List.length_cons, Nat.add_comm]
      exact Nat.add_le_add (ih rest) first

/-- There are as many items as places if and only if there is one in every place. -/
theorem length_flatMap_eq_iff {α β : Type} {items : α → List β} {l : List α}
    (each : ∀ a ∈ l, (items a).length ≤ 1) :
    (l.flatMap items).length = l.length ↔ ∀ a ∈ l, (items a).length = 1 := by
  induction l with
  | nil => exact iff_of_true rfl (List.forall_mem_nil _)
  | cons a l ih =>
      obtain ⟨first, rest⟩ := List.forall_mem_cons.mp each
      have bounded := length_flatMap_le rest
      rw [List.flatMap_cons, List.length_append, List.length_cons, List.forall_mem_cons, ← ih rest]
      omega

namespace Smoke

variable {F : Type} {service : Service F} {file : Option Bytes} {incidents : List (Incident F)}
  {responseBytes : UInt64}

/-- What a request of a service has offered tells whether it was served. -/
theorem usages_of_member (ran : run Service.step (.start file) incidents = some service)
    (mocked : ∀ member ∈ service.members, Mocked responseBytes member.1)
    {member : Arrival F × Lifecycle F} (there : member ∈ service.members) :
    member.2.offered.length ≤ 1 ∧ (usages member.2.offered).length ≤ 1 ∧
      ((usages member.2.offered).length = 1 ↔ IsServed responseBytes member.2) := by
  obtain ⟨arrival, lifecycle⟩ := member
  obtain ⟨index, placed⟩ := List.mem_iff_getElem?.mp there
  have alone := (Service.run_alone_iff.mp ((Pool.alone_of_run ran).ran placed)).2
  obtain ⟨served, unserved⟩ := offered_of_run (mocked _ there) alone
  by_cases all : IsServed responseBytes lifecycle
  · obtain ⟨record, offered, tells⟩ := served all
    have told : usages [record] = [mockUsage] := List.filterMap_cons_some tells.usage
    change lifecycle.offered.length ≤ 1 ∧ (usages lifecycle.offered).length ≤ 1 ∧ _
    rw [offered, told]
    exact ⟨Nat.le_refl 1, Nat.le_refl 1, iff_of_true rfl all⟩
  · obtain ⟨single, missing⟩ := unserved all
    have none : usages lifecycle.offered = [] := List.filterMap_eq_nil_iff.mpr missing
    change lifecycle.offered.length ≤ 1 ∧ (usages lifecycle.offered).length ≤ 1 ∧
      ((usages lifecycle.offered).length = 1 ↔ IsServed responseBytes lifecycle)
    rw [none]
    exact ⟨single, Nat.zero_le 1, iff_of_false Nat.zero_ne_one all⟩

theorem length_offered_le (ran : run Service.step (.start file) incidents = some service)
    (mocked : ∀ member ∈ service.members, Mocked responseBytes member.1) :
    service.offered.length ≤ service.members.length :=
  length_flatMap_le fun _ there => (usages_of_member ran mocked there).1

/-- As much usage is offered as there are requests if and only if all are served. -/
theorem length_usages_eq_iff (ran : run Service.step (.start file) incidents = some service)
    (mocked : ∀ member ∈ service.members, Mocked responseBytes member.1) :
    (usages service.offered).length = service.members.length ↔
      ∀ member ∈ service.members, IsServed responseBytes member.2 := by
  have each := length_flatMap_eq_iff fun member there => (usages_of_member ran mocked there).2.1
  rw [usages, Service.offered, List.filterMap_flatMap]
  exact each.trans (forall₂_congr fun _ there => (usages_of_member ran mocked there).2.2)

/-- Without drops the usage that was offered is the usage that was accepted. -/
theorem usages_perm (ran : run Service.step (.start file) incidents = some service)
    (kept : service.sink.dropped = []) :
    (usages service.offered).Perm (usages service.sink.accepted) := by
  have same := Service.conserved ran
  rw [kept, List.append_nil] at same
  exact same.filterMap _

/-- **The audit of a smoke run counts every request** if and only if every one was served,
and its record was neither dropped nor held back. -/
theorem countAudit_file_iff (ran : run Service.step (.start none) incidents = some service)
    (mocked : ∀ member ∈ service.members, Mocked responseBytes member.1)
    (whole : service.sink.settled.any AuditWriter.isTorn = false) {n : Nat}
    (made : service.members.length = n) {E : Type} (f64 : NumLit → Option E) (path : String) :
    countAudit f64 path service.sink.file = .ok (n, n) ↔
      (∀ member ∈ service.members, IsServed responseBytes member.2) ∧
        service.sink.dropped = [] ∧ service.sink.readable = n := by
  have held := (Service.kept ran).held
  have canonical : ∀ record ∈ service.sink.accepted, record.Canonical :=
    fun record accepted => Service.canonical_of_accepted ran accepted
  obtain ⟨entries, m, cut⟩ := held.exists_take canonical whole
  have read : counted service.sink.file =
      service.sink.accepted.take service.sink.readable := by
    rw [held.counted_file canonical Service.terminated_start whole]
    rfl
  have conserved := (Service.conserved ran).length_eq
  rw [List.length_append] at conserved
  have offered := length_offered_le ran mocked
  have readable := held.readable_le
  rw [countAudit_of_take f64 path cut, read, List.length_take, ← length_usages_eq_iff ran mocked,
    made]
  rw [made] at offered
  constructor
  · intro counts
    obtain ⟨-, accepted, metered⟩ := counts
    have all : service.sink.readable = service.sink.accepted.length := by omega
    have kept : service.sink.dropped = [] := List.length_eq_zero_iff.mp (by omega)
    rw [all, List.take_length] at metered
    exact ⟨(usages_perm ran kept).length_eq.trans metered, kept, by omega⟩
  · intro counts
    obtain ⟨metered, kept, reached⟩ := counts
    have total : n ≤ service.offered.length := metered ▸ List.length_filterMap_le _ _
    rw [kept, List.length_nil] at conserved
    have all : service.sink.readable = service.sink.accepted.length := by omega
    refine ⟨held.isUtf8_file canonical whole all, by omega, ?_⟩
    rw [all, List.take_length, ← metered]
    exact (usages_perm ran kept).length_eq.symm

section Verdict

variable (floats : F64 F) (describe : String → String) (path : String)

/-- `wait_audit_count`, of the contents of the file at each poll. -/
def waitAuditCount (expected : UInt64) (polls : List Bytes) : Option (Nat × Nat) :=
  polls.findSome? fun file =>
    match countAudit floats.ofLit path file with
    | .ok counts => if expected.toNat ≤ counts.1 then some counts else none
    | .error _ => none

/-- What `run` makes of the audit: the contents of the file are polled until the gateway is
killed, and read again afterwards. -/
def reconcile (result : OhaResult F) (polls : List Bytes) (file : Bytes) :
    Except String (Nat × Nat) :=
  match waitAuditCount floats path result.completed polls with
  | none => .error "audit records fell short of completed requests; metering was lost"
  | some _ =>
      (countAudit floats.ofLit path file).bind fun counts =>
        if counts.1 ≠ result.completed.toNat then
          .error ("audit accepted=" ++ toString counts.1 ++ " != oha completed=" ++
            toString result.completed ++ " (mismatch)")
        else if counts.2 ≠ counts.1 then
          .error ("audit metered=" ++ toString counts.2 ++ " != accepted=" ++
            toString counts.1 ++ " (unexpected metering loss)")
        else .ok counts

/-- The verdict of `run`, once the gateway was ready: what is reported, or why the run failed. -/
def run (count : UInt64) (output : String) (polls : List Bytes) (file : Bytes) :
    Except String (OhaResult F × Nat × Nat) :=
  (loadReport floats describe count output).bind fun result =>
    (reconcile floats path result polls file).map fun counts => (result, counts)

variable {floats describe path} {count : UInt64} {output : String} {result : OhaResult F}
  {polls : List Bytes} {file : Bytes}

theorem isSome_waitAuditCount {expected : UInt64} :
    (waitAuditCount floats path expected polls).isSome ↔
      ∃ poll ∈ polls, ∃ counts, countAudit floats.ofLit path poll = .ok counts ∧
        expected.toNat ≤ counts.1 := by
  rw [waitAuditCount, List.findSome?_isSome_iff]
  refine exists_congr fun poll => and_congr_right fun _ => ?_
  cases countAudit floats.ofLit path poll with
  | error message => exact ⟨nofun, fun ⟨_, same, _⟩ => nomatch same⟩
  | ok counts =>
      by_cases enough : expected.toNat ≤ counts.1
      · simp only [enough, ↓reduceIte, Option.isSome_some, true_iff]
        exact ⟨counts, rfl, enough⟩
      · simp only [enough, ↓reduceIte, Option.isSome_none, Bool.false_eq_true, false_iff]
        rintro ⟨_, ⟨⟩, more⟩
        exact enough more

theorem reconcile_eq_ok_iff {counts : Nat × Nat} :
    reconcile floats path result polls file = .ok counts ↔
      (waitAuditCount floats path result.completed polls).isSome ∧
        countAudit floats.ofLit path file = .ok counts ∧
        counts = (result.completed.toNat, result.completed.toNat) := by
  rw [reconcile]
  cases waitAuditCount floats path result.completed polls with
  | none => exact ⟨nofun, fun both => by cases both.1⟩
  | some seen =>
      cases countAudit floats.ofLit path file with
      | error message => exact ⟨nofun, fun both => by cases both.2.1⟩
      | ok final =>
          obtain ⟨accepted, metered⟩ := final
          simp only [Except.bind, ne_eq, Option.isSome_some, Except.ok.injEq, true_and]
          by_cases same : accepted = result.completed.toNat
          · by_cases all : metered = accepted
            · rw [if_neg (not_not_intro same), if_neg (not_not_intro all), all, same]
              exact ⟨fun ok => ⟨Except.ok.inj ok, (Except.ok.inj ok).symm⟩,
                fun both => congrArg Except.ok both.1⟩
            · rw [if_neg (not_not_intro same), if_pos all]
              refine ⟨nofun, ?_⟩
              rintro ⟨rfl, whole⟩
              cases whole
              exact (all rfl).elim
          · rw [if_pos same]
            refine ⟨nofun, ?_⟩
            rintro ⟨rfl, whole⟩
            cases whole
            exact (same rfl).elim

/-- A report that is accepted is one of as many requests as were asked for. -/
theorem completed_of_loadReport
    (accepted : loadReport floats describe count output = .ok result) :
    result.completed = count := by
  obtain ⟨root, read, sums⟩ := accounting_of_loadReport floats accepted
  have parsed : parseOha floats describe output = .ok (ohaResult floats root) := by
    rw [parseOha, read]
  have same : checkOha count (ohaResult floats root) = .ok result := by
    rw [loadReport, parsed] at accepted
    exact accepted
  have own : ohaResult floats root = result := by
    unfold checkOha at same
    split_ifs at same
    exact Except.ok.inj same
  rw [← own]
  exact congrArg Prod.fst sums

/-- **A smoke run passes if and only if nothing was lost.** Of a gateway whose writes did
not fail and which was sent as many requests as were asked for, the run passes exactly if
the load generator reports that they all succeeded, the polls see as many records, and
every request was answered with the whole response, nothing was dropped, and every record
has reached the file. -/
theorem passes_iff {E : Type} {service : Service E} {incidents : List (Incident E)}
    (ran : Transition.run Service.step (.start none) incidents = some service)
    (mocked : ∀ member ∈ service.members, Mocked responseBytes member.1)
    (whole : service.sink.settled.any AuditWriter.isTorn = false)
    (made : service.members.length = count.toNat) :
    (∃ report, run floats describe path count output polls service.sink.file = .ok report) ↔
      (∃ result, loadReport floats describe count output = .ok result) ∧
        (waitAuditCount floats path count polls).isSome ∧
        (∀ member ∈ service.members, IsServed responseBytes member.2) ∧
        service.sink.dropped = [] ∧ service.sink.readable = count.toNat := by
  rw [← countAudit_file_iff ran mocked whole made floats.ofLit path]
  cases loaded : loadReport floats describe count output with
  | error message =>
      refine iff_of_false ?_ ?_
      · rintro ⟨report, passed⟩
        rw [run, loaded] at passed
        cases passed
      · rintro ⟨⟨result, accepted⟩, -⟩
        cases accepted
  | ok result =>
      have completed := completed_of_loadReport loaded
      have outcome : run floats describe path count output polls service.sink.file =
          (reconcile floats path result polls service.sink.file).map (result, ·) := by
        rw [run, loaded]
        rfl
      rw [outcome, ← completed]
      constructor
      · rintro ⟨report, passed⟩
        obtain ⟨counts, reconciled, -⟩ := Except.map_eq_ok_iff.mp passed
        obtain ⟨seen, counted, rfl⟩ := reconcile_eq_ok_iff.mp reconciled
        exact ⟨⟨result, rfl⟩, seen, counted⟩
      · rintro ⟨-, seen, counted⟩
        exact ⟨_, Except.map_eq_ok_iff.mpr ⟨_, reconcile_eq_ok_iff.mpr ⟨seen, counted, rfl⟩, rfl⟩⟩

end Verdict

/-- A report of a request that succeeded. -/
def oneSucceeded : String :=
  "\x7b\"summary\":\x7b\"successRate\":1\x7d,\"statusCodeDistribution\":\x7b\"200\":1\x7d," ++
    "\"errorDistribution\":\x7b\x7d\x7d"

/-- A request that is answered, and whose record is taken up. -/
def delivered : List (Incident Empty) :=
  .join mockRequest :: relaying.map (.member 0) ++ [.member 0 (.relay .record), .sink .recv]

theorem exists_run_delivered : ∃ lifecycle record,
    Transition.run Service.step (.start none) delivered =
      some ⟨[(mockRequest, lifecycle)], Service.received [] record⟩ ∧ IsServed 0 lifecycle := by
  have before : ∃ exchange relay, Transition.run Service.step (.start none)
      (.join mockRequest :: relaying.map (.member 0)) =
        some ⟨[(mockRequest, .relaying exchange relay)], .spawn []⟩ ∧
      relay.pulled = [mockBody 0] ∧ relay.phase = .closed .ended ∧ relay.offered = [] ∧
      relay.panics exchange = startsMarked (mockBody 0) ∧
      ∃ record, (relay.record exchange .ended).offered = [record] := by
    have started : Transition.run Service.step (.start none)
        (.join mockRequest :: relaying.map (.member 0)) = Transition.run Service.step
          ⟨[(mockRequest, .awaiting "laptop" (some .response) .detached)], .spawn []⟩
          (relaying.map (.member 0)) := by
      rw [← start_mockRequest]
      rfl
    rw [started]
    exact ⟨_, _, rfl, rfl, rfl, rfl, rfl, _, rfl⟩
  obtain ⟨exchange, relay, ran, pulled, closed, silent, panics, record, offered⟩ := before
  have taken : Relay.step exchange relay .record = some (relay.record exchange .ended) := by
    simp only [Relay.step, closed, panics, readable_mockBody, Bool.false_eq_true, if_false]
  have moved : requests.step mockRequest (.relaying exchange relay) (.relay .record) =
      some (.relaying exchange (relay.record exchange .ended), some record) := by
    change Option.map _ (Option.map _ (Relay.step exchange relay .record)) = _
    rw [taken, Option.map_some, Option.map_some]
    simp only [Lifecycle.offered, offered, silent]
    rfl
  refine ⟨.relaying exchange (relay.record exchange .ended), record, ?_, ⟨.ended, rfl⟩, ?_⟩
  · refine Transition.run_append ran (Transition.run_cons_eq_some.mpr
      ⟨⟨[(mockRequest, .relaying exchange (relay.record exchange .ended))],
        (AuditWriter.spawn []).tryRecord record⟩, ?_, rfl⟩)
    change Option.map _ (requests.step mockRequest (.relaying exchange relay) (.relay .record)) = _
    rw [moved]
    rfl
  · change relay.pulled.flatten = _
    rw [pulled, List.flatten_singleton]

/-- A run of one request that is served passes. -/
theorem passes_iff_delivered : ∃ record : AuditRecord, ∃ report,
    run rationals id "usage.jsonl" 1 oneSucceeded [record.line] record.line = .ok report := by
  obtain ⟨lifecycle, record, ran, served⟩ := exists_run_delivered
  have final : Transition.run Service.step (.start none)
      (delivered ++ [.sink (.write record.line.length)]) =
        some ⟨[(mockRequest, lifecycle)], Service.wrote [] record⟩ :=
    run_concat_eq_some.mpr ⟨_, ran, Service.step_write_line _ [] record⟩
  have mocked : ∀ member ∈ [(mockRequest, lifecycle)], Mocked 0 member.1 :=
    List.forall_mem_singleton.mpr mocked_mockRequest
  have all : ∀ member ∈ [(mockRequest, lifecycle)], IsServed 0 member.2 :=
    List.forall_mem_singleton.mpr served
  have whole : (Service.wrote [] record).settled.any AuditWriter.isTorn = false := by
    change (AuditWriter.isTorn (record, record.line.length) || false) = false
    rw [AuditWriter.isTorn, decide_eq_false (Nat.lt_irrefl _), Bool.or_false]
  have loaded : ∃ result, loadReport rationals id 1 oneSucceeded = .ok result :=
    Except.failure_eq_none_iff.mp (by decide +kernel)
  have seen : (waitAuditCount rationals "usage.jsonl" 1 [record.line]).isSome := by
    refine isSome_waitAuditCount.mpr ⟨record.line, List.mem_singleton_self _, (1, 1), ?_,
      Nat.le_refl 1⟩
    exact (countAudit_file_iff final mocked whole rfl rationals.ofLit _).mpr ⟨all, rfl, rfl⟩
  exact ⟨record, (passes_iff final mocked whole rfl).mpr ⟨loaded, seen, all, rfl, rfl⟩⟩

end Smoke

end Debitmetre
