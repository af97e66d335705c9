import Debitmetre.Foundation.Restart
import Debitmetre.Gateway.Service
import Mathlib.Algebra.GroupWithZero.Nat

/-!
# The gateway process

A process opens the usage file, serves requests, and drops its last handle of the audit
writer when it shuts down.  It does not wait for the writer, so that it can end at any
moment, in the middle of a line too, and is then started again on the same file.  A
start that fails after the file was opened has created it if it was not there.
-/

namespace Debitmetre

open Wire Transition AuditWriter

variable {F : Type}

/-- A process that serves requests, or one that has dropped its last handle of the
writer. -/
inductive Process (F : Type)
  | serving (service : Service F)
  | closing (service : Service F) (writer : AuditWriter)

/-- What was written of the lines of the records that were taken, in their order. -/
def AuditWriter.entries (writer : AuditWriter) : List (AuditRecord × Nat) :=
  writer.settled ++ writer.writing.toList

namespace Process

/-- The requests of a process, and its writer as long as it serves. -/
def service : Process F → Service F
  | serving service => service
  | closing service _ => service

/-- The writer of a process. -/
def writer : Process F → AuditWriter
  | serving service => service.sink
  | closing _ writer => writer

/-- A process that has just been started on a file. -/
def start (file : Option Bytes) : Process F := .serving (.start file)

/-- What a process does. -/
inductive Event (F : Type)
  | serve (incident : Incident F)
  /-- The last handle of the writer is dropped. -/
  | close
  | drain (action : AuditWriter.Act)

/-- One step of a process. -/
def step : Process F → Event F → Option (Process F)
  | serving service, .serve incident => (service.step incident).map .serving
  | serving service, .close => some (.closing service { service.sink with tx := false })
  | closing service writer, .drain action => (writer.step action).map (.closing service)
  | _, _ => none

/-- The records that its requests have offered. -/
def offered (process : Process F) : List AuditRecord := process.service.offered

/-- What was written of the lines of its records, in the order of the file. -/
def written (process : Process F) : List (AuditRecord × Nat) := process.writer.entries

/-- The records of which nothing was written: those that are still queued, and those that
were dropped. -/
def unwritten (process : Process F) : List AuditRecord :=
  process.writer.audit.queue.items ++ process.writer.dropped

/-- What has become of a process that was started on a file. -/
inductive Lived (file : Option Bytes) : Process F → Prop
  | serving {incidents : List (Incident F)} {service : Service F}
      (ran : run Service.step (.start file) incidents = some service) :
      Lived file (.serving service)
  | closing {incidents : List (Incident F)} {service : Service F} {writer : AuditWriter}
      (ran : run Service.step (.start file) incidents = some service)
      (closed : Closed (AuditWriter.start file) service.sink.accepted service.sink.dropped writer) :
      Lived file (.closing service writer)

variable {file : Option Bytes} {process : Process F}

theorem lived_start (file : Option Bytes) : Lived file (start file : Process F) := by
  have started : run Service.step (.start file) [] = some (.start file : Service F) := rfl
  exact .serving started

/-- Every step keeps to the life of a process. -/
theorem lived_step {next : Process F} {event : Event F} (taken : step process event = some next)
    (lived : Lived file process) : Lived file next := by
  cases lived with
  | @serving incidents service ran =>
      cases event with
      | serve incident =>
          obtain ⟨service, served, rfl⟩ := Option.map_eq_some_iff.mp taken
          exact .serving (run_concat_eq_some.mpr ⟨_, ran, served⟩)
      | close =>
          cases taken
          exact .closing ran (Service.closed_of_kept (Service.kept ran))
      | drain action => cases taken
  | closing ran closed =>
      cases event with
      | serve | close => cases taken
      | drain action =>
          obtain ⟨writer, drained, rfl⟩ := Option.map_eq_some_iff.mp taken
          exact .closing ran (closed_step drained closed)

/-- A process that serves runs as its service does. -/
theorem run_serving {incidents : List (Incident F)} {service next : Service F}
    (ran : run Service.step service incidents = some next) :
    run step (.serving service) (incidents.map .serve) = some (.serving next) := by
  induction incidents generalizing service with
  | nil =>
      cases ran
      rfl
  | cons incident rest ih =>
      obtain ⟨middle, served, ran⟩ := run_cons_eq_some.mp ran
      refine run_cons_eq_some.mpr ⟨.serving middle, ?_, ih ran⟩
      rw [step, served, Option.map_some]

theorem lived_of_run {events : List (Event F)}
    (ran : run step (start file) events = some process) : Lived file process :=
  invariant (Lived file) lived_step ran (lived_start file)

namespace Lived

theorem held (lived : Lived file process) : Held (AuditWriter.start file) process.writer := by
  cases lived with
  | serving ran => exact (Service.kept ran).held
  | closing ran closed => exact closed.held

/-- What was offered was accepted or dropped. -/
theorem conserved (lived : Lived file process) :
    process.offered.Perm (process.writer.accepted ++ process.writer.dropped) := by
  cases lived with
  | serving ran => exact Service.conserved ran
  | closing ran closed =>
      rw [offered, service, writer, closed.accepted, closed.dropped]
      exact Service.conserved ran

/-- Accepted records are canonical. -/
theorem canonical (lived : Lived file process) {record : AuditRecord}
    (accepted : record ∈ process.writer.accepted) : record.Canonical := by
  cases lived with
  | serving ran => exact Service.canonical_of_accepted ran accepted
  | closing ran closed =>
      rw [writer, closed.accepted] at accepted
      exact Service.canonical_of_accepted ran accepted

/-- One record was offered for each request that is over. -/
theorem length_offered (lived : Lived file process) :
    process.offered.length = process.service.audited := by
  cases lived with
  | serving ran | closing ran => exact Service.length_offered_eq ran

/-- What was offered was written, at least in part, or not at all. -/
theorem offered_perm (lived : Lived file process) :
    process.offered.Perm (process.written.map Prod.fst ++ process.unwritten) := by
  have conserved := lived.conserved
  rwa [lived.held.accepted, List.append_assoc] at conserved

/-- So are the records of which something was written. -/
theorem canonical_written (lived : Lived file process) :
    ∀ entry ∈ process.written, entry.1.Canonical := by
  intro entry member
  apply lived.canonical
  rw [lived.held.accepted]
  exact List.mem_append_left _ (List.mem_map_of_mem member)

/-- The file of a process is the one before and the pieces that were written. -/
theorem file_eq (lived : Lived file process) :
    process.writer.file = AuditWriter.start file ++ process.written.flatMap piece :=
  lived.held.file

end Lived

end Process

/-- The gateway, with the usage file as what it keeps. -/
def gateway : Restart.Machine (Option Bytes) (Process F) (Process.Event F) where
  boot := Process.start
  step := Process.step
  kept process := some process.writer.file
  abort file := some (AuditWriter.start file)

/-- A place where the gateway is run, again and again, on one usage file. -/
abbrev Installation (F : Type) := Restart.Host (Option Bytes) (Process F)

abbrev Installation.Happening (F : Type) := Restart.Happening (Process.Event F)

namespace Installation

def start (file : Option Bytes) : Installation F := .idle file

def step (installation : Installation F) (happening : Happening F) : Option (Installation F) :=
  Restart.step gateway installation happening

/-- The records that were offered in all its lives. -/
def offered (installation : Installation F) : List AuditRecord :=
  installation.lives.flatMap Process.offered

/-- What was written of the lines of records in all its lives. -/
def written (installation : Installation F) : List (AuditRecord × Nat) :=
  installation.lives.flatMap Process.written

/-- The records of which nothing was written. -/
def unwritten (installation : Installation F) : List AuditRecord :=
  installation.lives.flatMap Process.unwritten

/-- The requests that were audited in all its lives. -/
def audited (installation : Installation F) : Nat :=
  (installation.lives.map fun process => process.service.audited).sum

/-- What all lives of an installation have left in the file. -/
structure Sound (first : Option Bytes) (lives : List (Process F)) (disk : Option Bytes) : Prop where
  file : AuditWriter.start disk =
    AuditWriter.start first ++ (lives.flatMap Process.written).flatMap piece
  lived : ∀ process ∈ lives, ∃ file, Process.Lived file process

theorem sound_of_lives {first disk : Option Bytes} {lives : List (Process F)}
    (lived : Restart.Lives gateway first lives disk) : Sound first lives disk := by
  induction lived with
  | start => exact ⟨(List.append_nil _).symm, fun process member => by cases member⟩
  | abort past ih => exact ⟨ih.file, ih.lived⟩
  | @life lives disk events process past ran ih =>
      have lived : Process.Lived disk process := Process.lived_of_run ran
      refine ⟨?_, List.forall_mem_append.mpr ⟨ih.lived, ?_⟩⟩
      · change process.writer.file = _
        rw [lived.file_eq, ih.file, List.flatMap_append, List.flatMap_singleton,
          List.flatMap_append, List.append_assoc]
      · intro other member
        rw [List.mem_singleton.mp member]
        exact ⟨disk, lived⟩

variable {first : Option Bytes} {happenings : List (Happening F)} {installation : Installation F}

/-- In every run of an installation its lives are sound. -/
theorem sound (ran : run step (start first) happenings = some installation) :
    Sound first installation.lives installation.disk :=
  sound_of_lives (Restart.lives_of_run ran)

theorem canonical_written (ran : run step (start first) happenings = some installation) :
    ∀ entry ∈ installation.written, entry.1.Canonical := by
  intro entry member
  obtain ⟨process, alive, member⟩ := List.mem_flatMap.mp member
  obtain ⟨file, lived⟩ := (sound ran).lived process alive
  exact lived.canonical_written entry member

/-- What was offered in all lives was written, at least in part, or not at all. -/
theorem offered_perm (ran : run step (start first) happenings = some installation) :
    installation.offered.Perm (installation.written.map Prod.fst ++ installation.unwritten) := by
  have each : ∀ process ∈ installation.lives, process.offered.Perm
      (process.written.map Prod.fst ++ process.unwritten) := by
    intro process alive
    obtain ⟨file, lived⟩ := (sound ran).lived process alive
    exact lived.offered_perm
  rw [offered, written, unwritten, List.map_flatMap]
  exact (List.Perm.flatMap_left _ each).trans (List.flatMap_append_perm _ _ _).symm

theorem length_offered (ran : run step (start first) happenings = some installation) :
    installation.offered.length = installation.audited := by
  rw [offered, audited, List.length_flatMap]
  congr 1
  refine List.map_congr_left fun process alive => ?_
  obtain ⟨file, lived⟩ := (sound ran).lived process alive
  exact lived.length_offered

end Installation

end Debitmetre
