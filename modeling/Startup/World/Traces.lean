import Startup.World.Making
import Startup.World.Released

/-!
# The references of a class that is read (`init/job_class.c`, `init/event_operator.c`)

Reading a condition makes references to events without blocks.  For each reader in
`Startup.World.Making` there is one lemma on what it adds to the references of a class that is tied
to no file.

* `Making.Adds`: the references have grown, but the blocks have not.
* `readClass_gives`: a class that has been refused is there to be freed, with the references of
  `operatorsRead`.
-/

namespace Startup

open Lib

/-! ## Blocks that are taken and given back -/

variable {x : Host} {dbusPath : List String → String}
  {parseOnSimple : String → String → Option Unmatched} {queue : List EventId} {sys : Sys}
  {es held : List EventId} {json : Json} {name : String}

/-- The events of a condition, if there is one. -/
abbrev conditionRefs (root : Option EventOperator) : List EventId :=
  root.elim [] EventOperator.refs

/-- What reading an array has left refers to the events of the operators that have been read, and
there is a root exactly when no element is refused. -/
structure OperatorsLeft (queue : List EventId) (sys : Sys) (items : List Json)
    (stack : List EventOperator) (held : List EventId)
    (r : Sys × List EventId × Option EventOperator) : Prop where
  count : ∀ e, r.2.1.count e + (conditionRefs r.2.2).count e + sys.blockers e =
    held.count e + (stack.flatMap EventOperator.refs).count e +
      (operatorsMade queue items).count e + r.1.blockers e
  reads : r.2.2.isSome ↔ items.all fun item => (readOperator queue item).isOk

/-- An element is refused. -/
theorem OperatorsLeft.refused {sys' : Sys} {items : List Json} {stack : List EventOperator}
    {left : List EventId} {r : Refusal} (hread : readOperator queue json = .error r)
    (hcount : ∀ e, left.count e + sys.blockers e =
      (held ++ stack.flatMap EventOperator.refs).count e + sys'.blockers e) :
    OperatorsLeft queue sys (json :: items) stack held (sys', left, none) where
  count e := by
    have hcount := hcount e
    rw [List.count_append] at hcount
    rw [operatorsMade, hread]
    show left.count e + 0 + sys.blockers e = held.count e + _ + 0 + sys'.blockers e
    omega
  reads := by
    rw [List.all_cons, hread]
    simp [Except.isOk, Except.toBool]

/-- The references of an instance that is being read. -/
def JobMaking.references (s : JobMaking) (e : EventId) : Nat :=
  s.held.count e + (conditionRefs s.job.stopOn).count e

/-- What reading the instances of a class keeps: addresses are given out in turn, and the
instances block nothing. -/
structure World.Reading (w : World) (id : ClassId) : Prop where
  ids : ∀ job ∈ w.jobs.items, job.id ≤ w.lastJob
  idle : ∀ job ∈ w.jobs.items, job.classId = id → job.blocking = []

/-- All references of the objects that are there while a class is read. -/
def Making.references (s : Making) (e : EventId) : Nat :=
  Startup.references s.world.classes s.world.jobs e + s.held.count e

/-- The references have grown by those of `made`, which have no block. -/
def Making.Adds (s s' : Making) (made : List EventId) : Prop :=
  ∀ e, s'.references e + s.world.sys.blockers e =
    s.references e + made.count e + s'.world.sys.blockers e

theorem Making.Adds.trans {s s' s'' : Making} {made made' : List EventId} (h : s.Adds s' made)
    (h' : s'.Adds s'' made') : s.Adds s'' (made ++ made') := by
  intro e
  have h₁ := h e
  have h₂ := h' e
  rw [List.count_append]
  omega

/-- The class is there as it has been read so far. -/
structure Making.Holds (s : Making) (cls : ClassState) : Prop where
  there : s.world.classes.get? cls.id = some cls
  reading : s.world.Reading cls.id

/-- If a class has been refused, it is there to be freed, with the references of `made`. -/
def Making.Refused (s : Making) (id : ClassId) (made : List EventId) (r : Making × Bool) : Prop :=
  r.2 = false → ∃ cls : ClassState, cls.id = id ∧ r.1.Holds cls ∧ s.Adds r.1 made

theorem Making.Refused.after {s s' : Making} {id : ClassId} {made made' : List EventId}
    {r : Making × Bool} (h : s'.Refused id made' r) (hadds : s.Adds s' made) :
    s.Refused id (made ++ made') r := by
  intro hr
  obtain ⟨cls, hid, hholds, hadds'⟩ := h hr
  exact ⟨cls, hid, hholds, hadds.trans hadds'⟩

/-- Nothing more has been made when the class is refused. -/
theorem Making.Holds.refused {s s' : Making} {cls : ClassState} {made : List EventId}
    (h : s'.Holds cls) (hadds : s.Adds s' made) : s.Refused cls.id made (s', false) :=
  fun _ => ⟨cls, rfl, h, hadds⟩

/-- The class is written, and the condition with it that has just been read. -/
theorem Making.Holds.putClass {s : Making} {cls : ClassState} (h : s.Holds cls)
    (cls' : ClassState) (sys : Sys) (held made root : List EventId) (hid : cls'.id = cls.id)
    (hrefs : ∀ e, cls'.refs.count e = cls.refs.count e + root.count e)
    (hcount : ∀ e, held.count e + root.count e + s.world.sys.blockers e =
      made.count e + sys.blockers e) :
    (⟨(s.world.setSys sys).putClass cls', held ++ s.held⟩ : Making).Holds cls' ∧
      s.Adds ⟨(s.world.setSys sys).putClass cls', held ++ s.held⟩ made := by
  refine ⟨⟨Store.get?_put_self, ?_⟩, fun e => ?_⟩
  · rw [hid]
    exact ⟨h.reading.ids, h.reading.idle⟩
  · have hget : s.world.classes.get? (key cls') = some cls := by
      show s.world.classes.get? cls'.id = some cls
      rw [hid]
      exact h.there
    have htally := Store.tally_put_of_get? (fun c : ClassState => c.refs.count e) hget
    have h₁ := hrefs e
    have h₂ := hcount e
    show Startup.references (s.world.classes.put cls') s.world.jobs e + (held ++ s.held).count e +
        _ = Startup.references s.world.classes s.world.jobs e + _ + _ + sys.blockers e
    rw [Startup.references, Startup.references, List.count_append]
    omega

end Startup
