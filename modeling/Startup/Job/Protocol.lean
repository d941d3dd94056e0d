import Startup.Job.Machine

/-!
# The protocol of a job

What a job shows of itself are the processes that it spawns and the events that it
emits.  `Phase` is a protocol for these: each time that a job is started, the
processes of its class are spawned in their order, and `started` is emitted when
none of them is missing; `stopping` ends this at any point; then `post-stop` is
spawned, and the job starts again or is `stopped` for good.

* `Phase.next`: the protocol.
* `Phase.fits`: where a job in some state may be in the protocol.
* `Phase.spawns_fits`, `Phase.noSpawn_fits`: how the states around a process agree
  with the protocol.
-/

namespace Startup

open Lib

/-! ## The protocol -/

/-- What a job shows of itself. -/
inductive Sign where
  | spawns (process : ProcessType)
  | emits (event : String)
  deriving DecidableEq, Repr

/-- How far a job has come: the last sign that it has left. -/
inductive Phase where
  | new
  | starting
  | spawned (process : ProcessType)
  | started
  | stopping
  | stopped
  deriving DecidableEq, Repr

/-- The place of a process among those that are spawned while the job starts. -/
def ProcessType.place : ProcessType → Option Nat
  | security => some 1
  | preStart => some 2
  | main => some 3
  | postStart => some 4
  | preStop | postStop => none

namespace Phase

/-- The place of a job that is being started. -/
def place : Phase → Option Nat
  | starting => some 0
  | spawned p => p.place
  | _ => none

/-- The job is being started, has not come to the place `n`, and has no process that
ought to be spawned first.  The security process may be left out. -/
def upTo (cls : JobClass) (n : Nat) (phase : Phase) : Bool :=
  match phase.place with
  | none => false
  | some m => m < n && [ProcessType.preStart, .main, .postStart].all fun p =>
      (cls.process p).isNone || p.place.all fun k => k ≤ m || n ≤ k

/-- The job runs: it has started, and has perhaps been asked to stop before. -/
def up (phase : Phase) : Bool :=
  phase = started || phase = spawned .preStop

/-- The job is down, its `post-stop` process included. -/
def down (cls : JobClass) (phase : Phase) : Bool :=
  if (cls.process .postStop).isSome then phase = spawned .postStop else phase = stopping

/-- The sign that may be left next, and where it leads. -/
def next (cls : JobClass) (phase : Phase) : Sign → Option Phase
  | .spawns p =>
    let ok := match p.place with
      | some n => phase.upTo cls n
      | none => if p = .preStop then phase.up else phase = stopping
    if (cls.process p).isSome && ok then some (spawned p) else none
  | .emits name =>
    if name = "starting" then if phase = new || phase.down cls then some starting else none
    else if name = "started" then if phase.upTo cls 5 then some started else none
    else if name = "stopping" then
      if phase.place.isSome || phase.up then some stopping else none
    else if name = "stopped" then if phase.down cls then some stopped else none
    else none

/-- The signs follow the protocol from one phase to another. -/
def walk (cls : JobClass) (phase : Phase) (signs : List Sign) : Option Phase :=
  signs.foldlM (next cls) phase

/-- Where a job is in the protocol that has entered a state. -/
def fits (cls : JobClass) (state : JobState) (phase : Phase) : Prop :=
  match state with
  | .waiting => phase = new
  | .starting => phase = starting
  | .securitySpawning | .security => phase.upTo cls 2 = true
  | .preStarting | .preStart => phase.upTo cls 3 = true
  | .spawning | .spawned => phase.upTo cls 4 = true
  | .postStarting | .postStart => phase.upTo cls 5 = true
  | .running => phase.up = true
  | .preStopping | .preStop =>
    phase.up = true ∧ ((cls.process .preStop).isSome = true → phase = spawned .preStop)
  | .stopping | .killed => phase = stopping
  | .postStopping | .postStop => phase.down cls = true

instance (cls : JobClass) (state : JobState) (phase : Phase) : Decidable (phase.fits cls state) := by
  unfold fits
  cases state <;> infer_instance

end Phase

/-- Where a job is in the protocol: one that has been freed has stopped. -/
def JobRef.fits (cls : JobClass) : JobRef → Phase → Prop
  | .live job, phase => phase.fits cls job.state
  | .freed _, phase => phase = .stopped

/-- A start of a job with `pre-start`, main and `post-stop` processes, in which
`pre-start` fails. -/
example : Phase.walk (plainClass [.preStart, .main, .postStop]) .new
    [.emits "starting", .spawns .preStart, .emits "stopping", .spawns .postStop,
      .emits "stopped"] = some .stopped := by
  decide

/-- No `started` without the main process. -/
example : Phase.walk (plainClass [.preStart, .main, .postStop]) .new
    [.emits "starting", .spawns .preStart, .emits "started"] = none := by
  decide

/-! ### Steps of the protocol -/

section

variable {cls : JobClass} {phase : Phase} {p : ProcessType} {n : Nat}

namespace Phase

theorem upTo_place (h : phase.upTo cls n = true) : phase.place.isSome = true := by
  unfold upTo at h
  split at h <;> simp_all

theorem starting_upTo (cls : JobClass) : starting.upTo cls 1 = true := by
  simp [upTo, place, ProcessType.place]

theorem spawned_upTo (cls : JobClass) (hp : p.place = some n) :
    (spawned p).upTo cls (n + 1) = true := by
  cases p <;> cases hp <;> simp [upTo, place, ProcessType.place]

/-- A process that the class does not have, or that may be left out, is skipped. -/
theorem upTo_skip (hp : p.place = some n) (hskip : cls.process p = none ∨ p = .security)
    (h : phase.upTo cls n = true) : phase.upTo cls (n + 1) = true := by
  obtain ⟨m, hm⟩ := Option.isSome_iff_exists.mp (upTo_place h)
  simp only [upTo, hm, List.all_cons, List.all_nil, ProcessType.place, Option.all_some,
    Bool.and_eq_true, Bool.or_eq_true, decide_eq_true_eq, Bool.and_true] at h ⊢
  cases p <;> cases hp <;> rcases hskip with hskip | hskip <;> simp_all <;> omega

theorem next_spawns (hhas : (cls.process p).isSome = true) (hp : p.place = some n)
    (h : phase.upTo cls n = true) : phase.next cls (.spawns p) = some (spawned p) := by
  simp [next, hhas, hp, h]

theorem next_starting (h : phase = new ∨ phase.down cls = true) :
    phase.next cls (.emits "starting") = some starting := by
  rcases h with rfl | h
  · simp [next]
  · simp [next, h]

theorem next_started (h : phase.upTo cls 5 = true) :
    phase.next cls (.emits "started") = some started := by
  simp [next, h]

theorem next_stopping (h : phase.place.isSome = true ∨ phase.up = true) :
    phase.next cls (.emits "stopping") = some stopping := by
  rcases h with h | h <;> simp [next, h]

theorem next_stopped (h : phase.down cls = true) :
    phase.next cls (.emits "stopped") = some stopped := by
  simp [next, h]

theorem walk_append {phase' : Phase} {l : List Sign} (l' : List Sign)
    (h : phase.walk cls l = some phase') : phase.walk cls (l ++ l') = phase'.walk cls l' := by
  unfold walk at h ⊢
  rw [List.foldlM_append, h]
  rfl

/-! ### Where the protocol and the states agree -/

theorem fits_fromState (hp : p.place = some n) (h : phase.fits cls p.fromState) :
    phase.upTo cls n = true := by
  cases p <;> cases hp
  case security =>
    cases (show phase = starting from h)
    exact starting_upTo cls
  all_goals exact h

theorem fits_spawnState : phase.fits cls p.spawnState ↔ phase.fits cls p.waitState := by
  cases p <;> exact Iff.rfl

theorem fits_waitState (hp : p.place = some n) :
    phase.fits cls p.waitState ↔ phase.upTo cls (n + 1) = true := by
  cases p <;> cases hp <;> exact Iff.rfl

/-- A job may stop in every state that `stopping` may be entered from. -/
theorem fits_mayStop {old : JobState} (hold : old = .starting ∨ old = .preStarting ∨
      old = .preStart ∨ old = .security ∨ old = .spawned ∨ old = .postStart ∨
      old = .running ∨ old = .preStop) (h : phase.fits cls old) :
    phase.place.isSome = true ∨ phase.up = true := by
  rcases hold with rfl | rfl | rfl | rfl | rfl | rfl | rfl | rfl
  · cases (show phase = starting from h)
    exact .inl rfl
  · exact .inl (upTo_place (n := 3) h)
  · exact .inl (upTo_place (n := 3) h)
  · exact .inl (upTo_place (n := 2) h)
  · exact .inl (upTo_place (n := 4) h)
  · exact .inl (upTo_place (n := 5) h)
  · exact .inr h
  · exact .inr h.1

/-- The process of a state is spawned where its turn has come. -/
theorem spawns_fits (hhas : (cls.process p).isSome = true) (h : phase.fits cls p.fromState) :
    phase.next cls (.spawns p) = some (spawned p) ∧ (spawned p).fits cls p.spawnState := by
  cases hp : p.place with
  | some n =>
    exact ⟨next_spawns hhas hp (fits_fromState hp h),
      fits_spawnState.mpr ((fits_waitState hp).mpr (spawned_upTo cls hp))⟩
  | none =>
    cases p with
    | preStop =>
      have h : phase.up = true := h
      exact ⟨by simp [next, hhas, ProcessType.place, h], rfl, fun _ => rfl⟩
    | postStop =>
      cases (show phase = stopping from h)
      refine ⟨by simp [next, hhas, ProcessType.place], ?_⟩
      show (spawned .postStop).down cls = true
      simp [down, hhas]
    | _ => cases hp

/-- A state whose process is not spawned is passed through. -/
theorem noSpawn_fits (hskip : cls.process p = none ∨ p = .security)
    (h : phase.fits cls p.fromState) : phase.fits cls p.spawnState := by
  cases hp : p.place with
  | some n =>
    exact fits_spawnState.mpr ((fits_waitState hp).mpr (upTo_skip hp hskip (fits_fromState hp h)))
  | none =>
    cases p with
    | preStop =>
      have hnone : cls.process .preStop = none := by simpa using hskip
      exact ⟨h, by simp [hnone]⟩
    | postStop =>
      have hnone : cls.process .postStop = none := by simpa using hskip
      cases (show phase = stopping from h)
      show stopping.down cls = true
      simp [down, hnone]
    | _ => cases hp

end Phase

end

end Startup
