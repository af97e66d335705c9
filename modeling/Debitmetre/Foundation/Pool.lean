import Debitmetre.Foundation.Transition
import Mathlib.Data.List.Perm.Basic
import Mathlib.Data.Sum.Basic

/-!
# Pools

Machines that join one after another take their steps in any order, and what they
put out is taken by a sink that takes steps of its own.  No machine looks at the
sink or at another machine, so each of them runs as it would alone; and nothing
gets to the sink that a machine did not put out.
-/

open Transition

namespace Pool

/-- Machines of one kind, each of which starts from a seed. -/
structure Machine (α σ ι ω : Type) where
  start : α → σ
  step : α → σ → ι → Option (σ × Option ω)

/-- What takes the output of machines. -/
structure Sink (ρ κ ω : Type) where
  take : ρ → ω → ρ
  step : ρ → κ → Option ρ

end Pool

/-- The machines that have joined, with their seeds, and the sink. -/
@[ext]
structure Pool (α σ ρ : Type) where
  members : List (α × σ)
  sink : ρ

namespace Pool

variable {α σ ι ω ρ κ : Type}

/-- A machine joins, or one of them or the sink takes a step. -/
inductive Act (α ι κ : Type)
  | join (seed : α)
  | member (index : Nat) (action : ι)
  | sink (action : κ)

/-- The action one machine takes. -/
def Act.of (index : Nat) : Act α ι κ → Option ι
  | .member other action => if other = index then some action else none
  | .join _ | .sink _ => none

/-- The actions of one machine. -/
def actionsOf (index : Nat) (acts : List (Act α ι κ)) : List ι := acts.filterMap (Act.of index)

/-- A machine by itself. -/
def Machine.alone (machine : Machine α σ ι ω) (seed : α) (state : σ) (action : ι) : Option σ :=
  (machine.step seed state action).map Prod.fst

variable (machine : Machine α σ ι ω) (sink : Sink ρ κ ω)

/-- One machine takes a step. -/
def act (pool : Pool α σ ρ) (index : Nat) (action : ι) (member : α × σ) : Option (Pool α σ ρ) :=
  (machine.step member.1 member.2 action).map fun (next, output) =>
    ⟨pool.members.set index (member.1, next), output.elim pool.sink (sink.take pool.sink)⟩

/-- One step of a pool. -/
def step (pool : Pool α σ ρ) : Act α ι κ → Option (Pool α σ ρ)
  | .join seed => some { pool with members := pool.members ++ [(seed, machine.start seed)] }
  | .member index action => pool.members[index]?.bind (pool.act machine sink index action)
  | .sink action => (sink.step pool.sink action).map fun next => { pool with sink := next }

/-- What the steps can do. -/
inductive Moves (pool : Pool α σ ρ) : Act α ι κ → Pool α σ ρ → Prop
  | join (seed : α) :
      Moves pool (.join seed) { pool with members := pool.members ++ [(seed, machine.start seed)] }
  | member {index : Nat} {seed : α} {state next : σ} {action : ι} {output : Option ω}
      (there : pool.members[index]? = some (seed, state))
      (taken : machine.step seed state action = some (next, output)) :
      Moves pool (.member index action)
        ⟨pool.members.set index (seed, next), output.elim pool.sink (sink.take pool.sink)⟩
  | sink {action : κ} {next : ρ} (taken : sink.step pool.sink action = some next) :
      Moves pool (.sink action) { pool with sink := next }

variable {machine sink} {pool next final : Pool α σ ρ}

theorem moves_of_step {action : Act α ι κ} (taken : step machine sink pool action = some next) :
    Moves machine sink pool action next := by
  cases action with
  | join seed =>
      cases taken
      exact .join seed
  | member index action =>
      obtain ⟨⟨seed, state⟩, there, acted⟩ := Option.bind_eq_some_iff.mp taken
      obtain ⟨⟨after, output⟩, moved, rfl⟩ := Option.map_eq_some_iff.mp acted
      exact .member there moved
  | sink action =>
      obtain ⟨after, served, rfl⟩ := Option.map_eq_some_iff.mp taken
      exact .sink served

theorem actionsOf_concat (index : Nat) (past : List (Act α ι κ)) (action : Act α ι κ) :
    actionsOf index (past ++ [action]) = actionsOf index past ++ actionsOf index [action] :=
  List.filterMap_append

theorem actionsOf_join (index : Nat) (past : List (Act α ι κ)) (seed : α) :
    actionsOf index (past ++ [.join seed]) = actionsOf index past := by
  rw [actionsOf_concat]
  exact List.append_nil _

theorem actionsOf_sink (index : Nat) (past : List (Act α ι κ)) (action : κ) :
    actionsOf index (past ++ [.sink action]) = actionsOf index past := by
  rw [actionsOf_concat]
  exact List.append_nil _

theorem actionsOf_self (index : Nat) (past : List (Act α ι κ)) (action : ι) :
    actionsOf index (past ++ [.member index action]) = actionsOf index past ++ [action] := by
  have own : Act.of index (.member index action : Act α ι κ) = some action := if_pos rfl
  rw [actionsOf_concat, actionsOf, actionsOf, List.filterMap_cons_some own, List.filterMap_nil]

theorem actionsOf_other {index other : Nat} (different : other ≠ index) (past : List (Act α ι κ))
    (action : ι) : actionsOf index (past ++ [.member other action]) = actionsOf index past := by
  have own : Act.of index (.member other action : Act α ι κ) = none := if_neg different
  rw [actionsOf_concat, actionsOf, actionsOf, List.filterMap_cons_none own, List.filterMap_nil,
    List.append_nil]

/-- What a machine has done, it has done alone, and those that have yet to join
have done nothing. -/
structure Alone (machine : Machine α σ ι ω) (past : List (Act α ι κ)) (pool : Pool α σ ρ) :
    Prop where
  ran : ∀ {index seed state}, pool.members[index]? = some (seed, state) →
    run (machine.alone seed) (machine.start seed) (actionsOf index past) = some state
  idle : ∀ {index}, pool.members.length ≤ index → actionsOf index past = []

theorem alone_nil (machine : Machine α σ ι ω) (start : ρ) :
    Alone machine ([] : List (Act α ι κ)) ⟨[], start⟩ where
  ran := by
    intro index seed state there
    cases there
  idle := fun _ => rfl

/-- Every step leaves each machine what it would be alone. -/
theorem alone_step {past : List (Act α ι κ)} {action : Act α ι κ}
    (taken : step machine sink pool action = some next) (alone : Alone machine past pool) :
    Alone machine (past ++ [action]) next := by
  cases moves_of_step taken with
  | join seed =>
      refine ⟨fun {index other state} there => ?_, fun {index} beyond => ?_⟩
      · rw [actionsOf_join]
        rcases Nat.lt_or_ge index pool.members.length with old | new
        · rw [List.getElem?_append_left old] at there
          exact alone.ran there
        · rw [List.getElem?_append_right new, List.getElem?_singleton] at there
          obtain ⟨-, same⟩ := Option.ite_none_right_eq_some.mp there
          cases same
          rw [alone.idle new]
          rfl
      · rw [actionsOf_join]
        rw [List.length_append] at beyond
        exact alone.idle (Nat.le_of_add_right_le beyond)
  | @member index seed state after action output there moved =>
      have bound := (List.getElem?_eq_some_iff.mp there).1
      refine ⟨fun {other seed' state'} there' => ?_, fun {other} beyond => ?_⟩
      · by_cases same : index = other
        · subst same
          rw [List.getElem?_set_self bound] at there'
          cases there'
          rw [actionsOf_self, run_concat_eq_some]
          refine ⟨state, alone.ran there, ?_⟩
          rw [Machine.alone, moved, Option.map_some]
        · rw [List.getElem?_set_ne same] at there'
          rw [actionsOf_other same]
          exact alone.ran there'
      · rw [List.length_set] at beyond
        have other : index ≠ other := fun same => Nat.not_lt_of_le beyond (same ▸ bound)
        rw [actionsOf_other other]
        exact alone.idle beyond
  | sink served =>
      refine ⟨fun there => ?_, fun beyond => ?_⟩
      · rw [actionsOf_sink]
        exact alone.ran there
      · rw [actionsOf_sink]
        exact alone.idle beyond

/-- **Each machine runs as it would alone.** -/
theorem alone_of_run {start : ρ} {acts : List (Act α ι κ)}
    (ran : run (step machine sink) ⟨[], start⟩ acts = some final) : Alone machine acts final :=
  history (Alone machine) (alone_nil machine start) (fun _ taken alone => alone_step taken alone)
    ran

/-- What a machine can do depends on nothing but what it has done. -/
theorem isSome_step_iff {start : ρ} {acts : List (Act α ι κ)}
    (ran : run (step machine sink) ⟨[], start⟩ acts = some final) {index : Nat} {seed : α}
    {state : σ} (there : final.members[index]? = some (seed, state)) (action : ι) :
    (step machine sink final (.member index action)).isSome ↔
      (run (machine.alone seed) (machine.start seed)
        (actionsOf index acts ++ [action])).isSome := by
  have alone := (alone_of_run ran).ran there
  have first : step machine sink final (.member index action) =
      final.act machine sink index action (seed, state) := by
    rw [step, there, Option.bind_some]
  rw [first, act, Option.isSome_map, Option.isSome_iff_exists, Option.isSome_iff_exists]
  constructor
  · intro ⟨⟨after, output⟩, moved⟩
    refine ⟨after, run_concat_eq_some.mpr ⟨state, alone, ?_⟩⟩
    rw [Machine.alone, moved, Option.map_some]
  · intro ⟨after, both⟩
    obtain ⟨before, earlier, moved⟩ := run_concat_eq_some.mp both
    cases Option.some.inj (alone.symm.trans earlier)
    obtain ⟨moved', same, -⟩ := Option.map_eq_some_iff.mp moved
    exact ⟨moved', same⟩

/-- What holds of a sink whatever it takes and does, holds of the sink of a
pool. -/
theorem sink_invariant (holds : ρ → Prop) (takes : ∀ {state} output, holds state →
      holds (sink.take state output))
    (serves : ∀ {state action next}, sink.step state action = some next → holds state → holds next)
    {acts : List (Act α ι κ)} (ran : run (step machine sink) pool acts = some final)
    (first : holds pool.sink) : holds final.sink := by
  refine invariant (fun pool : Pool α σ ρ => holds pool.sink) ?_ ran first
  intro pool action next taken held
  cases moves_of_step taken with
  | join seed => exact held
  | @member index seed state after action output there moved =>
      cases output with
      | none => exact held
      | some output => exact takes output held
  | sink served => exact serves served held

/-- What one machine puts out is added to what all have put out. -/
theorem perm_flatMap_set {members : List (α × σ)} (out : α × σ → List ω) {index : Nat}
    {member member' : α × σ} {more : List ω} (there : members[index]? = some member)
    (grown : out member' = out member ++ more) :
    ((members.set index member').flatMap out).Perm (members.flatMap out ++ more) := by
  induction members generalizing index with
  | nil => cases there
  | cons head rest ih =>
      cases index with
      | zero =>
          cases there
          rw [List.set_cons_zero, List.flatMap_cons, List.flatMap_cons, grown, List.append_assoc,
            List.append_assoc]
          exact List.perm_append_comm.append_left _
      | succ index =>
          rw [List.set_cons_succ, List.flatMap_cons, List.flatMap_cons, List.append_assoc]
          exact (ih there).append_left _

/-- A machine shows what it has put out, and a sink what it has taken. -/
structure Shows (machine : Machine α σ ι ω) (sink : Sink ρ κ ω) (out : α × σ → List ω)
    (taken : ρ → List ω) : Prop where
  start : ∀ seed, out (seed, machine.start seed) = []
  step : ∀ {seed state action next output},
    machine.step seed state action = some (next, output) →
      out (seed, next) = out (seed, state) ++ output.toList
  take : ∀ state output, (taken (sink.take state output)).Perm (taken state ++ [output])
  serve : ∀ {state action next}, sink.step state action = some next → taken next = taken state

/-- **Nothing is lost on the way to the sink and nothing is made up**: what the
machines have put out is what the sink has taken, but for the order. -/
theorem Shows.conserves {out : α × σ → List ω} {taken : ρ → List ω}
    (shows : Shows machine sink out taken) {start : ρ} (nothing : taken start = [])
    {acts : List (Act α ι κ)} (ran : run (Pool.step machine sink) ⟨[], start⟩ acts = some final) :
    (final.members.flatMap out).Perm (taken final.sink) := by
  refine invariant (fun pool : Pool α σ ρ => (pool.members.flatMap out).Perm (taken pool.sink))
    ?_ ran (nothing ▸ List.Perm.nil)
  intro pool action next stepped same
  cases moves_of_step stepped with
  | join seed =>
      rw [List.flatMap_append, List.flatMap_singleton, shows.start, List.append_nil]
      exact same
  | @member index seed state after action output there moved =>
      have grown := perm_flatMap_set out there (shows.step moved)
      cases output with
      | none => exact grown.trans ((List.append_nil _).symm ▸ same)
      | some output =>
          exact grown.trans ((same.append_right _).trans (shows.take pool.sink output).symm)
  | sink served => exact (shows.serve served).symm ▸ same

end Pool
