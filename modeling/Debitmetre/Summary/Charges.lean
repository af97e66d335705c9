import Debitmetre.Gateway.Attribution
import Debitmetre.Summary.Installation

/-!
# Who is charged

The rows of a machine in the summary tell of its own requests and of no others: what they
add up to comes from records that requests with the machine's key have offered, each at
most once, in whatever order the requests of different machines were served and however
often the gateway was started again.
-/

namespace Debitmetre

open Wire Transition

variable {F : Type} {file : Option Bytes}

/-- The records that tell of a machine. -/
def ofMachine (machineId : String) (records : List AuditRecord) : List AuditRecord :=
  records.filter fun record => record.machineId = machineId

/-- The rows of a machine in the table by machine and model. -/
def Reading.rowsOf (machineId : String) (reading : Reading) : List GroupTotals :=
  (reading.groups.toList.filter fun row => row.1.1 = machineId).map Prod.snd

/-- A request that has the key of a machine and was audited. -/
def isAuditedOf (machineId : String) (member : Arrival F × Lifecycle F) : Bool :=
  member.1.metered.map Prod.fst = some machineId ∧ member.2.isConcluded

namespace Service

/-- The requests with the key of a machine that were audited. -/
def auditedOf (machineId : String) (service : Service F) : Nat :=
  service.members.countP (isAuditedOf machineId)

theorem accepted_of_metered {arrival : Arrival F} {machineId : String} {operation : Operation}
    (metered : arrival.metered = some (machineId, operation)) :
    arrival.accepted = some (machineId, some operation) := by
  obtain ⟨⟨own, found⟩, accepted, same⟩ := Option.bind_eq_some_iff.mp metered
  obtain ⟨other, rfl, pair⟩ := Option.map_eq_some_iff.mp same
  cases pair
  exact accepted

/-- A request offers a record of its own machine when it is audited, and no other. -/
theorem length_ofMachine_offered {arrival : Arrival F} {lifecycle : Lifecycle F}
    (comes : Lifecycle.Comes arrival lifecycle) (machineId : String) :
    (ofMachine machineId lifecycle.offered).length =
      if isAuditedOf machineId (arrival, lifecycle) then 1 else 0 := by
  have length := length_offered comes
  cases metered : arrival.metered with
  | none =>
      rw [metered, Option.isSome_none, Bool.false_and, if_neg Bool.false_ne_true] at length
      have other : isAuditedOf machineId (arrival, lifecycle) = false := by
        rw [isAuditedOf, metered]
        exact decide_eq_false fun both => by cases both.1
      rw [List.length_eq_zero_iff.mp length, other]
      rfl
  | some request =>
      obtain ⟨own, operation⟩ := request
      rw [metered, Option.isSome_some, Bool.true_and] at length
      cases audited : lifecycle.isConcluded with
      | false =>
          rw [audited, if_neg Bool.false_ne_true] at length
          have other : isAuditedOf machineId (arrival, lifecycle) = false := by
            refine decide_eq_false fun both => ?_
            rw [both.2] at audited
            cases audited
          rw [List.length_eq_zero_iff.mp length, other]
          rfl
      | true =>
          rw [audited, if_pos rfl] at length
          obtain ⟨record, offered⟩ := List.length_eq_one_iff.mp length
          have member : record ∈ lifecycle.offered := offered ▸ List.mem_singleton_self record
          obtain ⟨found, accepted⟩ := Lifecycle.offered_machineId comes record member
          rw [accepted_of_metered metered] at accepted
          have same : record.machineId = own :=
            (Prod.mk.inj (Option.some.inj accepted)).1.symm
          rw [offered, ofMachine, List.filter_singleton, same, isAuditedOf, metered]
          by_cases mine : own = machineId
          · rw [decide_eq_true mine, if_pos (decide_eq_true ⟨congrArg some mine, audited⟩)]
            rfl
          · rw [decide_eq_false mine, if_neg]
            · rfl
            · intro both
              exact mine (Option.some.inj (of_decide_eq_true both).1)

variable {incidents : List (Incident F)} {service : Service F}

theorem length_ofMachine (ran : run step (.start file) incidents = some service)
    (machineId : String) :
    (ofMachine machineId service.offered).length = service.auditedOf machineId := by
  have each : ∀ member ∈ service.members, (ofMachine machineId member.2.offered).length =
      if isAuditedOf machineId member then 1 else 0 :=
    fun member there => length_ofMachine_offered (comes ran there) machineId
  rw [offered, auditedOf]
  generalize service.members = members at each
  induction members with
  | nil => rfl
  | cons member members ih =>
      obtain ⟨first, others⟩ := List.forall_mem_cons.mp each
      rw [ofMachine, List.flatMap_cons, List.filter_append, List.length_append, ← ofMachine,
        ← ofMachine, first, ih others, List.countP_cons, Nat.add_comm]

end Service

theorem Process.Lived.length_ofMachine {process : Process F} (lived : Process.Lived file process)
    (machineId : String) :
    (ofMachine machineId process.offered).length = process.service.auditedOf machineId := by
  cases lived with
  | serving ran | closing ran => exact Service.length_ofMachine ran machineId

namespace Installation

variable {first : Option Bytes} {happenings : List (Happening F)} {installation : Installation F}

/-- The requests with the key of a machine that were audited, in all lives. -/
def auditedOf (machineId : String) (installation : Installation F) : Nat :=
  (installation.lives.map fun process => process.service.auditedOf machineId).sum

theorem length_ofMachine (ran : run step (start first) happenings = some installation)
    (machineId : String) :
    (ofMachine machineId installation.offered).length = installation.auditedOf machineId := by
  rw [ofMachine, offered, auditedOf, List.filter_flatMap, List.length_flatMap]
  congr 1
  refine List.map_congr_left fun process alive => ?_
  obtain ⟨file, lived⟩ := (sound ran).lived process alive
  exact lived.length_ofMachine machineId

end Installation

/-- The rows of a machine's records are those under its keys. -/
theorem filter_rowsBy (machineId : String) (records : List AuditRecord) :
    ((rowsBy AuditRecord.groupKey records).filter fun row => row.1.1 = machineId) =
      rowsBy AuditRecord.groupKey (ofMachine machineId records) := by
  rw [rowsBy, rowsBy, ofMachine, List.filter_filterMap, List.filterMap_filter]
  refine List.filterMap_congr fun record _ => ?_
  cases used : record.usage with
  | none => rw [Option.map_none, Option.filter_none, ite_self]
  | some usage =>
      rw [Option.map_some]
      by_cases mine : record.machineId = machineId
      · rw [if_pos (decide_eq_true mine)]
        exact Option.filter_some_pos (decide_eq_true mine)
      · rw [if_neg fun own => mine (of_decide_eq_true own)]
        exact Option.filter_some_neg (decide_eq_false mine)

/-- The rows of a machine add up to what its records tell. -/
theorem sum_rowsOf (machineId : String) (records : List AuditRecord) (warnings : ReadWarnings) :
    (((Reading.accounted records).warned warnings).rowsOf machineId).sum =
      ((usages (ofMachine machineId records)).map GroupTotals.ofUsage).sum := by
  rw [Reading.accounted_eq, Reading.rowsOf, ← rowsBy_map_snd AuditRecord.groupKey, ← filter_rowsBy]
  exact Tally.sum_tally_filter GroupKey.cmp (fun key => key.1 = machineId) _

/-- The rows of a machine in the summary of a file. -/
theorem sum_rowsOf_readUsageFile (machineId : String) (file : Bytes) :
    ((readUsageFile file).rowsOf machineId).sum =
      ((usages (ofMachine machineId (counted file))).map GroupTotals.ofUsage).sum := by
  rw [readUsageFile_eq]
  exact sum_rowsOf machineId (counted file) (warningsOf file)

/-- **A machine is charged for its own requests**: what its rows grow by in all lives of an
installation comes from records that its requests have offered, each at most once, and
from as many as its audited requests but for those that were dropped, left in a queue, cut
short or glued. -/
theorem Installation.charged {first : Option Bytes} {happenings : List (Happening F)}
    {installation : Installation F}
    (ran : run Installation.step (.start first) happenings = some installation)
    (terminated : Terminated (AuditWriter.start first)) (machineId : String) :
    ∃ charged lost, ((readUsageFile installation.file).rowsOf machineId).sum =
        ((readUsageFile (AuditWriter.start first)).rowsOf machineId).sum +
          ((usages charged).map GroupTotals.ofUsage).sum ∧
      (ofMachine machineId installation.offered).Perm (charged ++ lost) ∧
      charged.length + lost.length = installation.auditedOf machineId ∧
        lost.length ≤
          2 * (cutShort installation.written).length + installation.unwritten.length := by
  obtain ⟨others, perm, few⟩ := offered_perm_read ran
  have own : (ofMachine machineId installation.offered).Perm
      (ofMachine machineId installation.remains.read ++ ofMachine machineId others) := by
    rw [ofMachine, ofMachine, ofMachine, ← List.filter_append]
    exact perm.filter _
  refine ⟨ofMachine machineId installation.remains.read, ofMachine machineId others, ?_, own, ?_,
    (List.length_filter_le _ _).trans few⟩
  · rw [readUsageFile_file ran terminated, sum_rowsOf, sum_rowsOf_readUsageFile, ofMachine,
      List.filter_append, usages, List.filterMap_append, List.map_append, List.sum_append]
    rfl
  · rw [← List.length_append, ← own.length_eq, length_ofMachine ran]

/-- Of the three requests of a machine in two lives, of which one was cut short and one
glued, at least one is charged. -/
theorem Installation.charged_glued : ∃ charged lost : List AuditRecord,
    ((readUsageFile afterGlued.file).rowsOf "laptop").sum =
        ((readUsageFile (AuditWriter.start none)).rowsOf "laptop").sum +
          ((usages charged).map GroupTotals.ofUsage).sum ∧
      [Service.success, Service.failure, Service.success].Perm (charged ++ lost) ∧
      charged.length + lost.length = 3 ∧ lost.length ≤ 2 := by
  obtain ⟨charged, lost, rows, perm, lengths, few⟩ :=
    Installation.charged run_glued Service.terminated_start "laptop"
  rw [cutShort_glued] at few
  exact ⟨charged, lost, rows, perm, lengths, few⟩

end Debitmetre
