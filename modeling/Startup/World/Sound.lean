import Startup.Job.Spent
import Startup.Job.WakeUp
import Startup.World.Accounts
import Startup.World.Links
import Startup.World.Machine

/-!
# The invariant of init

`WorldSound` is what holds between any two steps of a run: the accounts of the queue,
the links between jobs and the events that they wait for, where the instances
live, and that each of them is settled.  This module has the functions on
classes and instances from which the steps are built; each of them keeps it.
-/

namespace Startup

open Lib

/-- Where the instances live: in registered classes. -/
structure Housing (classes : Store ClassState) (registered : Store Registration)
    (jobs : Store Job) : Prop where
  homes : ∀ job ∈ jobs.items, ∃ cls, classes.get? job.classId = some cls ∧
    (registered.get? cls.config.name).map Registration.cls = some job.classId
  known : ∀ r ∈ registered.items, ∃ cls, classes.get? r.cls = some cls ∧ cls.config.name = r.name

/-- The instances of a class have different names. -/
def OneName (jobs : Store Job) : Prop :=
  ∀ j ∈ jobs.items, ∀ j' ∈ jobs.items, j'.classId = j.classId → j'.name = j.name → j'.id = j.id

theorem OneName.put {jobs : Store Job} {job job' : Job} (h : OneName jobs)
    (hget : jobs.get? job.id = some job) (hid : job'.id = job.id)
    (hclass : job'.classId = job.classId) (hname : job'.name = job.name) :
    OneName (jobs.put job') := by
  have hold : ∀ j ∈ (jobs.put job').items, ∃ old ∈ jobs.items, old.id = j.id ∧
      old.classId = j.classId ∧ old.name = j.name := by
    intro j hj
    rcases Store.mem_put.mp hj with rfl | ⟨hj, -⟩
    · exact ⟨job, Store.mem_of_get? hget, hid.symm, hclass.symm, hname.symm⟩
    · exact ⟨j, hj, rfl, rfl, rfl⟩
  intro j hj j' hj' hc hn
  obtain ⟨old, hmem, hid, hclass, hname⟩ := hold j hj
  obtain ⟨old', hmem', hid', hclass', hname'⟩ := hold j' hj'
  rw [← hid, ← hid']
  exact h old hmem old' hmem' (hclass'.trans (hc.trans hclass.symm))
    (hname'.trans (hn.trans hname.symm))

theorem OneName.new {jobs : Store Job} {job : Job} (h : OneName jobs)
    (hfresh : ∀ j ∈ jobs.items, j.classId = job.classId → j.name ≠ job.name) :
    OneName (jobs.put job) := by
  intro j hj j' hj' hc hn
  rcases Store.mem_put.mp hj with hj | ⟨hj, -⟩
  · rcases Store.mem_put.mp hj' with hj' | ⟨hj', -⟩
    · rw [hj, hj']
    · rw [hj] at hc hn
      exact absurd hn (hfresh j' hj' hc)
  · rcases Store.mem_put.mp hj' with hj' | ⟨hj', -⟩
    · rw [hj'] at hc hn
      exact absurd hn.symm (hfresh j hj hc.symm)
    · exact h j hj j' hj' hc hn

/-- How far the state may be from what holds between two steps: `leak` is what
the blocker counts are too high by, `ending` the event that is being finished,
and `extra` are the entries of it that are on their way out. -/
structure Slack where
  leak : EventId → Nat
  ending : Option EventId := none
  extra : EventId → JobId → Nat := fun _ _ => 0

/-- The invariant of init. -/
structure SoundWith (k : Slack) (w : World) : Prop where
  accounts : Accounts k.leak w.sys w.classes w.jobs
  ties : Ties k.extra w.sys w.jobs
  housing : Housing w.classes w.registered w.jobs
  progress : ∀ ev ∈ w.sys.events, ev.progress = .finished → k.ending = some ev.id
  classIds : ∀ cls ∈ w.classes.items, cls.id ≤ w.lastClass
  jobIds : ∀ job ∈ w.jobs.items, job.id ≤ w.lastJob
  settled : ∀ job ∈ w.jobs.items, Settled (· ≠ .security) job
  names : OneName w.jobs

/-- The invariant between two steps. -/
abbrev WorldSound (leak : EventId → Nat) (w : World) : Prop := SoundWith ⟨leak, none, 0⟩ w

/-- What the functions of init keep: the invariant, and the events of the queue, but
for their counts, where new ones are those of a job. -/
structure Goes (k : Slack) (w w' : World) : Prop where
  sound : SoundWith k w'
  queue : ∃ new, Extends w.sys w'.sys new ∧ ∀ ev ∈ new, ev.ofJob

/-- The program keeps the invariant, and does not fail in the queue. -/
def Stays (k : Slack) (w : World) (m : Except Fault World) : Prop :=
  Sat m (Goes k w) (fun f => f.ofQueue = false)

/-- The same for a program that returns something else besides, which `P`
describes. -/
def StaysWith {α : Type} (k : Slack) (w : World) (P : World → α → Prop)
    (m : Except Fault (World × α)) : Prop :=
  Sat m (fun r => Goes k w r.1 ∧ P r.1 r.2) (fun f => f.ofQueue = false)

variable {k : Slack} {x : Host} {w w' w'' : World}

theorem Goes.trans (h : Goes k w w') (h' : Goes k w' w'') : Goes k w w'' := by
  obtain ⟨new, hext, hnamed⟩ := h.queue
  obtain ⟨new', hext', hnamed'⟩ := h'.queue
  refine ⟨h'.sound, _, hext.trans hext', fun ev hev => ?_⟩
  exact (List.mem_append.mp hev).elim (hnamed ev) (hnamed' ev)

theorem Goes.refl (h : SoundWith k w) : Goes k w w := ⟨h, [], .refl _, by simp⟩

theorem Stays.after {m : Except Fault World} (h : Stays k w' m) (hg : Goes k w w') :
    Stays k w m :=
  Sat.imp h fun _ h' => hg.trans h'

theorem StaysWith.bind {α : Type} {P : World → α → Prop} {m : Except Fault (World × α)}
    {f : World × α → Except Fault World} (h : StaysWith k w P m)
    (hf : ∀ w' a, SoundWith k w' → P w' a → Stays k w' (f (w', a))) : Stays k w (m >>= f) := by
  rw [Stays, sat_bind]
  exact Sat.imp h fun r hr => (hf r.1 r.2 hr.1.sound hr.2).after hr.1

/-! ## Accesses -/

theorem getClass_sat {fn : SourceFn} {c : ClassId} (hfn : (Fault.useAfterFree fn).ofQueue = false) :
    Sat (w.getClass fn c) (fun cls => w.classes.get? c = some cls ∧ cls.id = c)
      (fun f => f.ofQueue = false) := by
  unfold World.getClass
  cases h : w.classes.get? c with
  | none => exact hfn
  | some cls => exact ⟨rfl, Store.key_of_get? h⟩

namespace SoundWith

/-- Events do not end while the queue grows. -/
theorem unfinished (h : SoundWith k w) {sys : Sys} {new : List Event}
    (hext : Extends w.sys sys new) {ev : Event} (hev : ev ∈ sys.events)
    (hfin : ev.progress = .finished) : k.ending = some ev.id := by
  have hmem : ev.bare ∈ sys.events.map Event.bare := List.mem_map_of_mem hev
  rw [hext.events, List.mem_append] at hmem
  rcases hmem with hmem | hmem
  · obtain ⟨old, hold, heq⟩ := List.mem_map.mp hmem
    have hid : old.bare.id = ev.bare.id := by rw [heq]
    have hprogress : old.bare.progress = ev.bare.progress := by rw [heq]
    exact (h.progress old hold (hprogress.trans hfin)).trans (congrArg some hid)
  · have hpending : ev.bare.progress = .pending := hext.pending _ hmem
    rw [show ev.bare.progress = ev.progress from rfl, hfin] at hpending
    cases hpending

/-- Events are added to the queue, or only the log grows. -/
theorem extend (h : SoundWith k w) {sys : Sys} {new : List Event}
    (hext : Extends w.sys sys new) (hb : ∀ e, sys.blockers e = w.sys.blockers e)
    (hnew : ∀ ev ∈ new, ∀ b ∈ ev.blocking, ∃ m, b = .emitMethod m) :
    SoundWith k (w.setSys sys) :=
  ⟨h.accounts.of_blockers hb, h.ties.of_extends hext hnew, h.housing,
    fun _ => h.unfinished hext, h.classIds, h.jobIds, h.settled, h.names⟩

theorem act (h : SoundWith k w) (a : Action) : Goes k w (w.setSys (w.sys.act a)) :=
  ⟨h.extend (.act w.sys a) (fun _ => rfl) (by simp), [], .act w.sys a, by simp⟩

/-- A class is written where it is. -/
theorem putClass (h : SoundWith k w) {sys : Sys} {old : ClassState} (cls : ClassState)
    (hget : w.classes.get? cls.id = some old) (htouch : Touches w.sys sys)
    (hb : ∀ e, sys.blockers e + old.refs.count e = w.sys.blockers e + cls.refs.count e)
    (hlinked : cls.Linked) (hname : cls.config.name = old.config.name) :
    SoundWith k ((w.setSys sys).putClass cls) := by
  have hclasses : ∀ c c', w.classes.get? c = some c' →
      ∃ c₂, (w.classes.put cls).get? c = some c₂ ∧ c₂.config.name = c'.config.name := by
    intro c c' hc
    by_cases heq : c = cls.id
    · subst heq
      refine ⟨cls, Store.get?_put_self, ?_⟩
      rw [hget] at hc
      rw [hname, Option.some.inj hc]
    · exact ⟨c', (Store.get?_put_ne heq).trans hc, rfl⟩
  refine ⟨h.accounts.put_class (fun e => ?_) hlinked,
    h.ties.of_extends htouch.toExtends (by simp), ⟨fun job hj => ?_, fun r hr => ?_⟩,
    fun _ => h.unfinished htouch.toExtends, fun c hc => ?_, h.jobIds, h.settled, h.names⟩
  · rw [hget]
    exact hb e
  · obtain ⟨c, hc, hr⟩ := h.housing.homes job hj
    obtain ⟨c₂, hc₂, hname₂⟩ := hclasses _ c hc
    exact ⟨c₂, hc₂, hname₂ ▸ hr⟩
  · obtain ⟨c, hc, hn⟩ := h.housing.known r hr
    obtain ⟨c₂, hc₂, hname₂⟩ := hclasses _ c hc
    exact ⟨c₂, hc₂, hname₂.trans hn⟩
  · rcases Store.mem_put.mp hc with hc | ⟨hc, -⟩
    · rw [hc, ← show old.id = cls.id from Store.key_of_get? hget]
      exact h.classIds old (Store.mem_of_get? hget)
    · exact h.classIds c hc

/-- A new class, which has no matches. -/
theorem newClass (h : SoundWith k w) {cls : ClassState} (hid : cls.id = w.lastClass + 1)
    (hrefs : cls.refs = []) (hlinked : cls.Linked) :
    SoundWith k { w.putClass cls with lastClass := w.lastClass + 1 } := by
  have hnone : w.classes.get? cls.id = none := by
    refine Store.get?_eq_none.mpr fun c hc hkey => ?_
    have hle := h.classIds c hc
    have hkey : c.id = w.lastClass + 1 := hkey.trans hid
    rw [hkey] at hle
    exact absurd hle (Nat.not_succ_le_self _)
  have hkeep : ∀ c c', w.classes.get? c = some c' → (w.classes.put cls).get? c = some c' := by
    intro c c' hc
    refine (Store.get?_put_ne ?_).trans hc
    rintro rfl
    exact absurd (hnone.symm.trans hc) (by simp)
  refine ⟨h.accounts.put_class (fun e => ?_) hlinked, h.ties, ⟨fun job hj => ?_, fun r hr => ?_⟩,
    h.progress, fun c hc => ?_, h.jobIds, h.settled, h.names⟩
  · rw [hnone, hrefs]
    rfl
  · obtain ⟨c, hc, hr⟩ := h.housing.homes job hj
    exact ⟨c, hkeep _ c hc, hr⟩
  · obtain ⟨c, hc, hn⟩ := h.housing.known r hr
    exact ⟨c, hkeep _ c hc, hn⟩
  · rcases Store.mem_put.mp hc with rfl | ⟨hc, -⟩
    · exact hid.le
    · exact (h.classIds c hc).trans (Nat.le_succ _)

/-- A call on a job that keeps its frame and settles it. -/
theorem frameJob (h : SoundWith k w) {sys : Sys} {job job' : Job}
    (hget : w.jobs.get? job.id = some job) (hf : Frame w.sys job sys job')
    (hset : Settled (· ≠ .security) job') : SoundWith k ((w.setSys sys).putJob job') := by
  obtain ⟨new, hext, -⟩ := hf.queue
  refine ⟨h.accounts.frame_job hget hf, h.ties.frame_job hget hf, ⟨fun j hj => ?_, h.housing.known⟩,
    fun _ => h.unfinished hext, h.classIds, fun j hj => ?_, fun j hj => ?_,
    h.names.put hget hf.ident hf.classId hf.name⟩
  · rcases Store.mem_put.mp hj with rfl | ⟨hj, -⟩
    · rw [hf.classId]
      exact h.housing.homes job (Store.mem_of_get? hget)
    · exact h.housing.homes j hj
  · rcases Store.mem_put.mp hj with rfl | ⟨hj, -⟩
    · rw [hf.ident]
      exact h.jobIds job (Store.mem_of_get? hget)
    · exact h.jobIds j hj
  · rcases Store.mem_put.mp hj with rfl | ⟨hj, -⟩
    · exact hset
    · exact h.settled j hj

/-- A new job, which holds copies of the blocks of its condition. -/
theorem newJob (h : SoundWith k w) {sys : Sys} {cls : ClassState} {name : String}
    {stopOn : Option EventOperator} (hget : w.classes.get? cls.id = some cls)
    (hreg : w.getRegistered cls.config.name = some cls.id) (htouch : Touches w.sys sys)
    (hb : ∀ e, sys.blockers e =
      w.sys.blockers e + (stopOn.elim [] EventOperator.refs).count e)
    (hlinked : ∀ root, stopOn = some root → root.Linked)
    (hfresh : ∀ job ∈ w.jobs.items, job.classId = cls.id → job.name ≠ name) :
    SoundWith k { (w.setSys sys).putJob
      (jobNew (w.lastJob + 1) cls.id cls.config name stopOn) with lastJob := w.lastJob + 1 } := by
  have hnone : w.jobs.get? (w.lastJob + 1) = none := by
    refine Store.get?_eq_none.mpr fun j hj hkey => ?_
    have hle := h.jobIds j hj
    rw [show j.id = w.lastJob + 1 from hkey] at hle
    exact absurd hle (Nat.not_succ_le_self _)
  have hties : Ties k.extra sys w.jobs := h.ties.of_extends htouch.toExtends (by simp)
  refine ⟨h.accounts.put_job (fun e => ?_) (by simp [jobNew]) hlinked,
    hties.of_blockers fun id => ?_, ⟨fun j hj => ?_, h.housing.known⟩,
    fun _ => h.unfinished htouch.toExtends, h.classIds, fun j hj => ?_, fun j hj => ?_,
    h.names.new hfresh⟩
  · have hrefs : (jobNew (w.lastJob + 1) cls.id cls.config name stopOn).refs =
        stopOn.elim [] EventOperator.refs := List.append_nil _
    rw [show (jobNew (w.lastJob + 1) cls.id cls.config name stopOn).id = w.lastJob + 1 from rfl,
      hnone, hrefs]
    exact hb e
  · by_cases hid : id = w.lastJob + 1
    · have hnew : blockerOf w.jobs (w.lastJob + 1) = none := by rw [blockerOf, hnone]; rfl
      rw [hid, hnew]
      exact blockerOf_put_self
    · exact blockerOf_put_ne hid
  · rcases Store.mem_put.mp hj with rfl | ⟨hj, -⟩
    · exact ⟨cls, hget, hreg⟩
    · exact h.housing.homes j hj
  · rcases Store.mem_put.mp hj with rfl | ⟨hj, -⟩
    · exact le_refl _
    · exact (h.jobIds j hj).trans (Nat.le_succ _)
  · rcases Store.mem_put.mp hj with rfl | ⟨hj, -⟩
    · exact jobNew_settled _ _ _ _ _
    · exact h.settled j hj

/-- Blocks that nobody holds any more are given back. -/
theorem release (h : SoundWith k w) {sys : Sys} (es : List EventId) (leak : EventId → Nat)
    (hk : ∀ e, k.leak e = leak e + es.count e) (htouch : Touches w.sys sys)
    (hb : ∀ e, sys.blockers e + es.count e = w.sys.blockers e) :
    SoundWith { k with leak := leak } (w.setSys sys) := by
  refine ⟨⟨fun e => ?_, h.accounts.linked, h.accounts.entries, h.accounts.leaves⟩,
    h.ties.of_extends htouch.toExtends (by simp), h.housing,
    fun _ => h.unfinished htouch.toExtends, h.classIds, h.jobIds, h.settled, h.names⟩
  have h₁ := h.accounts.balance e
  have h₂ := hk e
  have h₃ := hb e
  show sys.blockers e = references w.classes w.jobs e + leak e
  omega

/-- A class that has no instance and is not registered is freed; its blocks are
still to be given back. -/
theorem eraseClass (h : SoundWith k w) (cls : ClassState)
    (hget : w.classes.get? cls.id = some cls)
    (hempty : ∀ job ∈ w.jobs.items, job.classId ≠ cls.id)
    (hreg : ∀ r ∈ w.registered.items, r.cls ≠ cls.id) :
    SoundWith { k with leak := fun e => k.leak e + cls.refs.count e }
      { w with classes := w.classes.erase cls.id } := by
  refine ⟨⟨fun e => ?_, fun c hc => h.accounts.linked c (Store.mem_erase.mp hc).1,
    h.accounts.entries, h.accounts.leaves⟩, h.ties, ⟨fun job hj => ?_, fun r hr => ?_⟩,
    h.progress, fun c hc => h.classIds c (Store.mem_erase.mp hc).1, h.jobIds, h.settled, h.names⟩
  · have h₁ := h.accounts.balance e
    have h₂ := w.classes.tally_erase (fun c => c.refs.count e) cls.id
    rw [hget, Option.map_some, Option.getD_some] at h₂
    change w.sys.blockers e =
      references (w.classes.erase cls.id) w.jobs e + (k.leak e + cls.refs.count e)
    rw [references] at h₁ ⊢
    omega
  · obtain ⟨c, hc, hr⟩ := h.housing.homes job hj
    exact ⟨c, (Store.get?_erase_ne (hempty job hj)).trans hc, hr⟩
  · obtain ⟨c, hc, hn⟩ := h.housing.known r hr
    exact ⟨c, (Store.get?_erase_ne (hreg r hr)).trans hc, hn⟩

/-- A job that waits for no event is freed; its blocks are still to be given
back. -/
theorem eraseJob (h : SoundWith k w) {job : Job} (hget : w.jobs.get? job.id = some job)
    (hblocker : job.blocker = none) :
    SoundWith { k with leak := fun e => k.leak e + job.refs.count e }
      { w with jobs := w.jobs.erase job.id } := by
  refine ⟨⟨fun e => ?_, h.accounts.linked,
    fun j hj => h.accounts.entries j (Store.mem_erase.mp hj).1,
    fun j hj => h.accounts.leaves j (Store.mem_erase.mp hj).1⟩,
    h.ties.of_blockers fun id => ?_,
    ⟨fun j hj => h.housing.homes j (Store.mem_erase.mp hj).1, h.housing.known⟩, h.progress,
    h.classIds, fun j hj => h.jobIds j (Store.mem_erase.mp hj).1,
    fun j hj => h.settled j (Store.mem_erase.mp hj).1,
    fun j hj j' hj' => h.names j (Store.mem_erase.mp hj).1 j' (Store.mem_erase.mp hj').1⟩
  · have h₁ := h.accounts.balance e
    have h₂ := w.jobs.tally_erase (fun j => j.refs.count e) job.id
    rw [hget, Option.map_some, Option.getD_some] at h₂
    change w.sys.blockers e =
      references w.classes (w.jobs.erase job.id) e + (k.leak e + job.refs.count e)
    rw [references] at h₁ ⊢
    omega
  · by_cases hid : id = job.id
    · subst hid
      rw [blockerOf, show job.id = key job from rfl, Store.get?_erase_self,
        blockerOf_of_get? (show w.jobs.get? (key job) = some job from hget), hblocker]
      rfl
    · rw [blockerOf, Store.get?_erase_ne hid]
      rfl

/-- The registered class of a name. -/
theorem getRegistered (h : SoundWith k w) {name : String} {c : ClassId}
    (hr : w.getRegistered name = some c) :
    ∃ cls, w.classes.get? c = some cls ∧ cls.config.name = name := by
  obtain ⟨r, hget, rfl⟩ := Option.map_eq_some_iff.mp hr
  obtain ⟨cls, hcls, hname⟩ := h.housing.known r (Store.mem_of_get? hget)
  exact ⟨cls, hcls, hname.trans (Store.key_of_get? hget)⟩

/-- A class that is not registered under its name is not registered at all, and
has no instances. -/
theorem unregistered (h : SoundWith k w) {c : ClassId} {cls : ClassState}
    (hget : w.classes.get? c = some cls) (hr : w.getRegistered cls.config.name ≠ some c) :
    (∀ job ∈ w.jobs.items, job.classId ≠ c) ∧ ∀ r ∈ w.registered.items, r.cls ≠ c := by
  constructor
  · rintro job hj rfl
    obtain ⟨cls', hcls', hreg⟩ := h.housing.homes job hj
    rw [hget] at hcls'
    cases hcls'
    exact hr hreg
  · rintro r hmem rfl
    obtain ⟨cls', hcls', hname⟩ := h.housing.known r hmem
    rw [hget] at hcls'
    cases hcls'
    refine hr ?_
    rw [World.getRegistered, hname, show r.name = key r from rfl, Store.get?_of_mem hmem]
    rfl

/-- Another class is registered under a name that no class has. -/
theorem register (h : SoundWith k w) {cls : ClassState}
    (hget : w.classes.get? cls.id = some cls) (hnone : w.registered.get? cls.config.name = none) :
    SoundWith k
      { w with registered := w.registered.put ⟨cls.config.name, cls.id⟩ } := by
  refine ⟨h.accounts, h.ties, ⟨fun job hj => ?_, fun r hr => ?_⟩, h.progress, h.classIds,
    h.jobIds, h.settled, h.names⟩
  · obtain ⟨c, hc, hreg⟩ := h.housing.homes job hj
    refine ⟨c, hc, ?_⟩
    rw [Store.get?_put_ne]
    · exact hreg
    · intro (heq : c.config.name = cls.config.name)
      rw [heq, hnone] at hreg
      simp at hreg
  · rcases Store.mem_put.mp hr with rfl | ⟨hr, -⟩
    · exact ⟨cls, hget, rfl⟩
    · exact h.housing.known r hr

/-- A class without instances is taken out of the hash table. -/
theorem unregister (h : SoundWith k w) {cls : ClassState}
    (hreg : w.getRegistered cls.config.name = some cls.id)
    (hempty : ∀ job ∈ w.jobs.items, job.classId ≠ cls.id) :
    SoundWith k { w with registered := w.registered.erase cls.config.name } := by
  refine ⟨h.accounts, h.ties, ⟨fun job hj => ?_, fun r hr => ?_⟩, h.progress, h.classIds,
    h.jobIds, h.settled, h.names⟩
  · obtain ⟨c, hc, hr⟩ := h.housing.homes job hj
    refine ⟨c, hc, ?_⟩
    rw [Store.get?_erase_ne]
    · exact hr
    · intro heq
      rw [heq] at hr
      exact hempty job hj (Option.some.inj (hr.symm.trans hreg))
  · exact h.housing.known r (Store.mem_erase.mp hr).1

end SoundWith

end Startup
