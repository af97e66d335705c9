import Debitmetre.Foundation.Transition

/-!
# Restarting a machine

A machine that may stop at any moment keeps only part of its state, and is started again
from that part.  Its lives follow each other: each of them starts from what the ones
before it have kept, whatever they were doing when they stopped.
-/

namespace Restart

open Transition

variable {δ σ ι : Type}

/-- A machine, and what it keeps when it stops. -/
structure Machine (δ σ ι : Type) where
  boot : δ → σ
  step : σ → ι → Option σ
  kept : σ → δ
  /-- What a start that does not succeed makes of what was kept. -/
  abort : δ → δ

/-- A place where a machine is started again and again, with the states in which its
lives ended. -/
structure Host (δ σ : Type) where
  disk : δ
  running : Option σ
  ended : List σ

/-- What happens at a host. -/
inductive Happening (ι : Type)
  | boot
  | abort
  | act (action : ι)
  /-- The machine stops, whatever it is doing. -/
  | halt

def step (machine : Machine δ σ ι) (host : Host δ σ) : Happening ι → Option (Host δ σ)
  | .boot =>
      match host.running with
      | none =>
          let state := machine.boot host.disk
          some { host with disk := machine.kept state, running := some state }
      | some _ => none
  | .abort =>
      match host.running with
      | none => some { host with disk := machine.abort host.disk }
      | some _ => none
  | .act action =>
      match host.running with
      | none => none
      | some state =>
          (machine.step state action).map fun next =>
            { host with disk := machine.kept next, running := some next }
  | .halt =>
      match host.running with
      | none => none
      | some state => some { host with running := none, ended := host.ended ++ [state] }

/-- All lives so far. -/
def Host.lives (host : Host δ σ) : List σ := host.ended ++ host.running.toList

/-- A host before its machine is started for the first time. -/
def Host.idle (disk : δ) : Host δ σ := ⟨disk, none, []⟩

/-- Lives that follow each other, and what they have kept at last. -/
inductive Lives (machine : Machine δ σ ι) (first : δ) : List σ → δ → Prop
  | start : Lives machine first [] first
  | abort {lives : List σ} {disk : δ} (past : Lives machine first lives disk) :
      Lives machine first lives (machine.abort disk)
  | life {lives : List σ} {disk : δ} {actions : List ι} {state : σ}
      (past : Lives machine first lives disk)
      (ran : run machine.step (machine.boot disk) actions = some state) :
      Lives machine first (lives ++ [state]) (machine.kept state)

/-- A host is between two lives of its machine, or in the middle of one. -/
inductive Housed (machine : Machine δ σ ι) (first : δ) : Host δ σ → Prop
  | idle {disk : δ} {ended : List σ} (past : Lives machine first ended disk) :
      Housed machine first ⟨disk, none, ended⟩
  | busy {disk : δ} {actions : List ι} {state : σ} {ended : List σ}
      (past : Lives machine first ended disk)
      (ran : run machine.step (machine.boot disk) actions = some state) :
      Housed machine first ⟨machine.kept state, some state, ended⟩

variable {machine : Machine δ σ ι} {first : δ}

theorem housed_step {host next : Host δ σ} {happening : Happening ι}
    (taken : step machine host happening = some next) (housed : Housed machine first host) :
    Housed machine first next := by
  cases housed with
  | @idle disk ended past =>
      cases happening with
      | boot =>
          cases taken
          have started : run machine.step (machine.boot disk) [] = some (machine.boot disk) := rfl
          exact .busy past started
      | abort =>
          cases taken
          exact .idle past.abort
      | act | halt => cases taken
  | busy past ran =>
      cases happening with
      | boot | abort => cases taken
      | act action =>
          obtain ⟨state, acted, rfl⟩ := Option.map_eq_some_iff.mp taken
          exact .busy past (run_concat_eq_some.mpr ⟨_, ran, acted⟩)
      | halt =>
          cases taken
          exact .idle (past.life ran)

/-- A host whose machine is running runs as the machine does. -/
theorem run_act (machine : Machine δ σ ι) (ended : List σ) {actions : List ι} {state next : σ}
    (ran : run machine.step state actions = some next) :
    run (step machine) ⟨machine.kept state, some state, ended⟩ (actions.map .act) =
      some ⟨machine.kept next, some next, ended⟩ := by
  induction actions generalizing state with
  | nil =>
      cases ran
      rfl
  | cons action rest ih =>
      obtain ⟨middle, acted, ran⟩ := run_cons_eq_some.mp ran
      refine run_cons_eq_some.mpr ⟨_, ?_, ih ran⟩
      change (machine.step state action).map _ = _
      rw [acted, Option.map_some]

/-- **Whatever happens at a host is a sequence of lives** of its machine, each started
from what the ones before it have kept. -/
theorem lives_of_run {happenings : List (Happening ι)} {host : Host δ σ}
    (ran : run (step machine) (.idle first) happenings = some host) :
    Lives machine first host.lives host.disk := by
  have housed := invariant (Housed machine first) housed_step ran (.idle .start)
  cases housed with
  | idle past =>
      rw [Host.lives, Option.toList_none, List.append_nil]
      exact past
  | busy past lived => exact past.life lived

end Restart
