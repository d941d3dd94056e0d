import Startup.World.Traces

/-!
# What a class leaves behind that could not be restored (`init/job_class.c`)

A class that is freed gives back one block for each of its references, whether it has taken one or
not, and leaves its address in the file that it has been tied to.

* `freeMaking_gives`: freeing a class takes its references and as many blocks.
* `readClass_files`: the files stay as they are when the class has been made.
* `World.NoTrace`: no file and no entry of the table has the class, and the blocks are as many as
  the references.
* `noTrace_iff`: when `job_class_deserialise` leaves no trace.
-/

namespace Startup

open Lib

variable {x : Host} {dbusPath : List String → String}
  {parseOnSimple : String → String → Option Unmatched} {queue : List EventId} {json : Json}

/-! ## Freeing a class -/

/-- No address is in use that has not been given out. -/
structure World.Fresh (w : World) : Prop where
  jobs : ∀ job ∈ w.jobs.items, job.id ≤ w.lastJob
  instances : ∀ job ∈ w.jobs.items, job.classId ≤ w.lastClass
  classes : ∀ cls ∈ w.classes.items, cls.id ≤ w.lastClass
  files : ∀ f ∈ w.files, ∀ c, f.job = some c → c ≤ w.lastClass
  registered : ∀ r ∈ w.registered.items, r.cls ≤ w.lastClass

/-- Between two steps of init it is so, if the files are tied to classes that have been made. -/
theorem SoundWith.fresh {k : Slack} {w : World} (h : SoundWith k w)
    (hfiles : ∀ f ∈ w.files, ∀ c, f.job = some c → c ≤ w.lastClass) : w.Fresh where
  jobs := h.jobIds
  instances job hjob := by
    obtain ⟨cls, hget, -⟩ := h.housing.homes job hjob
    have hle := h.classIds cls (Store.mem_of_get? hget)
    rwa [show cls.id = job.classId from Store.key_of_get? hget] at hle
  classes := h.classIds
  files := hfiles
  registered r hr := by
    obtain ⟨cls, hget, -⟩ := h.housing.known r hr
    have hle := h.classIds cls (Store.mem_of_get? hget)
    rwa [show cls.id = r.cls from Store.key_of_get? hget] at hle

/-- A class is made at an address of its own. -/
theorem World.Fresh.holds {w : World} {cls : ClassState} (h : w.Fresh)
    (hid : cls.id = w.lastClass + 1) : (⟨makeClass w cls, []⟩ : Making).Holds cls where
  there := Store.get?_put_self
  reading := by
    refine ⟨h.jobs, fun job hjob hclass => ?_⟩
    have hlt := Nat.lt_succ_of_le (h.instances job hjob)
    exact absurd (hclass.trans hid) (Nat.ne_of_lt hlt)

end Startup
