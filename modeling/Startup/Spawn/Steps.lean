import Startup.Spawn.Child

/-!
# What each step of the child does

A step ends with the settings that it has made, or the child has told its parent of the first
call that failed.

* `Passed`: the calls that have been made went well.
* `Blames`: an error names the last call, which is the first that failed.
* `Told`: how a child may end before it executes the program.
* `Ready`: the error pipe is open, and no call has failed.

* `Step`: a step ends as described, or it has told what failed; with a rule for each way in which
  steps are put together.
-/

namespace Startup.Spawn

open Lib Lib.Descriptors ParseJob

/-! ## Calls that failed -/

/-- The error that the failure of a call is told as. -/
def Call.errorType : Call → JobProcessErrorType
  | .dup _ | .dup2 _ _ => .dup
  | .sigaction _ => .signal
  | .grantpt _ => .grantpt
  | .unlockpt _ => .unlockpt
  | .openSlave => .openptSlave
  | .openConsole _ => .console
  | .apparmor _ => .security
  | .setrlimit _ _ => .rlimit
  | .setpriority _ => .priority
  | .openOom _ | .writeOom _ => .oomAdj
  | .chroot _ => .chroot
  | .chdir _ => .chdir
  | .getpwnam _ => .getpwnam
  | .getgrnam _ => .getgrnam
  | .fchown _ _ _ => .chown
  | .getpwuid _ => .getpwuid
  | .getgrgid _ => .getgrgid
  | .initgroups _ _ => .initgroups
  | .managerConnect => .cgroupMgrConnect
  | .cgroup _ => .cgroupSetup
  | .removeOnEmpty _ _ => .cgroupClear
  | .setgid _ => .setgid
  | .setuid _ => .setuid
  | .movePid _ _ => .cgroupEnter
  | .traceMe => .ptrace
  | .exec _ => .exec

/-- The argument of that error. -/
def Call.errorArg : Call → Nat
  | .setrlimit resource _ => resource
  | _ => 0

/-- The calls of the cgroup manager raise errors of their own. -/
def Call.errorNumber (c : Call) (n : Nat) : ErrorNumber :=
  match c with
  | .managerConnect | .cgroup _ | .removeOnEmpty _ _ | .movePid _ _ => .cgroup
  | _ => .errno n

/-- The error for a call that failed. -/
def Call.error (c : Call) (n : Nat) : WireError := ⟨c.errorType, c.errorArg, c.errorNumber n⟩

/-- The failures that the child goes on after: an output console that cannot be opened, and a
file that older kernels do not have. -/
def Call.excused : Call → Nat → Bool
  | .openConsole .output, _ => true
  | .openOom false, n => n == enoent
  | _, _ => false

/-- The call is one for what the process is started with. -/
def Call.AskedFor (a : Args) : Call → Prop
  | .setrlimit resource limit => a.cls.limits resource = some limit
  | .setpriority nice => nice = a.cls.nice ∧ nice ≠ -21
  | .chroot path => a.cls.chroot = some path
  | .chdir path => path = a.cls.chdir.getD "/"
  | .getpwnam name => a.cls.setuid = some name
  | .getgrnam name => a.cls.setgid = some name
  | .traceMe => a.trace = true
  | .exec argv => argv = a.argv
  | _ => True

/-- No call failed, but for those that are excused. -/
inductive Passed (k : Kernel) (a : Args) : List Call → Prop
  | nil : Passed k a []
  | snoc {done : List Call} {c : Call} (h : Passed k a done) (asked : c.AskedFor a)
      (hc : ∀ n, k.fails done c = some n → c.excused n = true) : Passed k a (done ++ [c])

/-- The last call is one that was asked for, and it went well. -/
theorem Passed.of_getLast {k : Kernel} {a : Args} {calls : List Call} {c : Call}
    (h : Passed k a calls) (hlast : calls.getLast? = some c) :
    ∃ done, calls = done ++ [c] ∧ c.AskedFor a ∧
      ∀ n, k.fails done c = some n → c.excused n = true := by
  cases h with
  | nil => cases hlast
  | snoc h asked hc =>
    rw [List.getLast?_concat] at hlast
    cases hlast
    exact ⟨_, rfl, asked, hc⟩

/-- The error is that of the last call, which failed, or of what it found, while the calls before
it went well. -/
inductive Blames (k : Kernel) (a : Args) (s : Child) : WireError → Prop
  | failed {done : List Call} {c : Call} {n : Nat} (calls : s.calls = done ++ [c])
      (before : Passed k a done) (asked : c.AskedFor a) (fails : k.fails done c = some n) :
      Blames k a s (c.error n)
  | noUser {name : String} (asked : a.cls.setuid = some name)
      (last : s.calls.getLast? = some (.getpwnam name)) (before : Passed k a s.calls)
      (missing : k.getpwnam s.root name = none) : Blames k a s ⟨.badSetuid, 0, .invalidSetuid⟩
  | noGroup {name : String} (asked : a.cls.setgid = some name)
      (last : s.calls.getLast? = some (.getgrnam name)) (before : Passed k a s.calls)
      (missing : k.getgrnam s.root name = none) : Blames k a s ⟨.badSetgid, 0, .invalidSetgid⟩
  | badProfile {profile : String} {e : EnvironError} (asked : a.cls.apparmorSwitch = some profile)
      (before : Passed k a s.calls) (expanded : environExpand profile s.environ = .error e) :
      Blames k a s ⟨.security, 0, .environ e⟩
  | badGroup {group : String × CGroupName} {env : List String} {e : EnvironError}
      (asked : group ∈ groupNames a.cls.cgroups) (before : Passed k a s.calls)
      (expanded : environExpand group.2.name env = .error e) :
      Blames k a s ⟨.cgroupSetup, 0, .cgroup⟩

/-- How a child may end: it has told its parent what failed; or it is writing into the pipe that
it has closed for the debugger; or the security process of a class with control groups trips the
assertion that there is a connection to their manager. -/
def Told (k : Kernel) (a : Args) : Stop → Prop
  | .aborted s file e => file = .errorWriter ∧ s.paused = false ∧ Blames k a s e
  | .hung s e => a.cls.debug = true ∧ s.paused = true ∧ Blames k a s e
  | .crashed _ => a.process = .security ∧ a.cls.cgroups ≠ []

/-- No call has failed, and the error pipe is open at its number, unless the child has closed it
for the debugger. -/
structure Ready (k : Kernel) (a : Args) (err : Nat) (s : Child) : Prop where
  passed : Passed k a s.calls
  pipe : if s.paused then a.cls.debug = true ∧ s.fds.get err = none
    else ∃ c, s.fds.get err = some ⟨.errorWriter, c⟩

variable {k : Kernel} {a : Args} {err : Nat} {s : Child}

theorem Ready.of_same (h : Ready k a err s) {s' : Child} (hcalls : s'.calls = s.calls)
    (hfds : s'.fds = s.fds) (hpaused : s'.paused = s.paused) : Ready k a err s' where
  passed := hcalls ▸ h.passed
  pipe := by
    rw [hfds, hpaused]
    exact h.pipe

/-- An error reaches the parent, unless the pipe has been closed. -/
theorem jobProcessErrorAbort_sat {α : Type} {Q : α × Child → Prop} {type : JobProcessErrorType}
    {arg : Nat} {errnum : ErrorNumber}
    (hpipe : if s.paused then a.cls.debug = true ∧ s.fds.get err = none
      else ∃ c, s.fds.get err = some ⟨.errorWriter, c⟩)
    (hblames : Blames k a s ⟨type, arg, errnum⟩) :
    Sat (jobProcessErrorAbort err type arg errnum s) Q (Told k a) := by
  unfold jobProcessErrorAbort
  cases hpaused : s.paused with
  | true =>
    rw [hpaused] at hpipe
    obtain ⟨hdebug, hclosed⟩ := hpipe
    rw [hclosed]
    exact ⟨hdebug, hpaused, hblames⟩
  | false =>
    rw [hpaused] at hpipe
    obtain ⟨c, hopen⟩ := hpipe
    rw [hopen]
    exact ⟨rfl, hpaused, hblames⟩

/-- A call on a descriptor that is open fails when the kernel lets it fail. -/
theorem failure_eq {c : Call} (hfd : ∀ fd, c.descriptor = some fd → s.fds.get fd ≠ none) :
    k.failure s c = k.fails s.calls c := by
  unfold Kernel.failure
  split
  · rename_i fd hc
    rw [if_neg]
    simpa using hfd fd hc
  · rfl

theorem failure_eq_of_none {c : Call} (hc : c.descriptor = none) :
    k.failure s c = k.fails s.calls c :=
  failure_eq fun fd hfd => by rw [hc] at hfd; cases hfd

/-- A call that went well. -/
theorem Ready.made (h : Ready k a err s) {c : Call} (hasked : c.AskedFor a)
    (hc : ∀ n, k.fails s.calls c = some n → c.excused n = true) : Ready k a err (s.made c) where
  passed := h.passed.snoc hasked hc
  pipe := h.pipe

/-- A call. -/
theorem call_sat (h : Ready k a err s) {type : JobProcessErrorType} {arg : Nat} {c : Call}
    {effect : Child → Child} (hfd : ∀ fd, c.descriptor = some fd → s.fds.get fd ≠ none)
    (herror : ∀ n, c.error n = ⟨type, arg, .errno n⟩) (hasked : c.AskedFor a) :
    Sat (call k err type arg c effect s)
      (fun r => Ready k a err (s.made c) ∧ r.2 = effect (s.made c)) (Told k a) := by
  unfold call
  rw [failure_eq hfd]
  cases hc : k.fails s.calls c with
  | none => exact ⟨h.made hasked fun n hn => by simp [hc] at hn, rfl⟩
  | some n =>
    refine jobProcessErrorAbort_sat (s := s.made c) h.pipe ?_
    rw [← herror]
    exact .failed rfl h.passed hasked hc

/-- A request to the cgroup manager. -/
theorem ask_sat (h : Ready k a err s) {type : JobProcessErrorType} {c : Call}
    {effect : Child → Child} (hfd : c.descriptor = none)
    (herror : ∀ n, c.error n = ⟨type, 0, .cgroup⟩) (hasked : c.AskedFor a) :
    Sat (ask k err type c effect s)
      (fun r => Ready k a err (s.made c) ∧ r.2 = effect (s.made c)) (Told k a) := by
  unfold ask
  rw [failure_eq_of_none hfd]
  cases hc : k.fails s.calls c with
  | none => exact ⟨h.made hasked fun n hn => by simp [hc] at hn, rfl⟩
  | some n =>
    refine jobProcessErrorAbort_sat (s := s.made c) h.pipe ?_
    rw [← herror n]
    exact .failed rfl h.passed hasked hc

/-! ## From state to state -/

/-- A step that ends in a state as described, with no call failed. -/
def Step (k : Kernel) (a : Args) (err : Nat) {α : Type} (m : SetUp α) (s : Child)
    (Q : α → Child → Prop) : Prop :=
  Meets (fun s' => s' = s) m (fun x s' => Ready k a err s' ∧ Q x s') (Told k a)

variable {α β : Type} {m : SetUp α} {Q Q' : α → Child → Prop}

theorem Step.of_sat (h : Sat (m s) (fun r => Ready k a err r.2 ∧ Q r.1 r.2) (Told k a)) :
    Step k a err m s Q := by
  rintro _ rfl
  exact h

theorem Step.imp (h : Step k a err m s Q) (hQ : ∀ x s, Q x s → Q' x s) : Step k a err m s Q' :=
  h.post fun _ _ hr => ⟨hr.1, hQ _ _ hr.2⟩

theorem Step.pure {x : α} (h : Ready k a err s) (hQ : Q x s) : Step k a err (pure x) s Q :=
  .of_sat ⟨h, hQ⟩

theorem Step.bind {f : α → SetUp β} {R : β → Child → Prop} (hm : Step k a err m s Q)
    (hf : ∀ x s, Ready k a err s → Q x s → Step k a err (f x) s R) :
    Step k a err (m >>= f) s R :=
  Meets.bind hm fun x => .of_state fun s hs => hf x s hs.1 hs.2

/-- A step that reads the state. -/
theorem Step.get {f : Child → SetUp β} {R : β → Child → Prop} (hf : Step k a err (f s) s R) :
    Step k a err (get >>= f) s R := by
  rintro _ rfl
  exact hf _ rfl

/-- A loop, with an invariant for the elements that it has gone through. -/
theorem Step.forM {γ : Type} {f : γ → SetUp Unit} {l : List γ} {I : List γ → Child → Prop}
    (h : Ready k a err s) (hstart : I [] s)
    (hf : ∀ done x rest s, l = done ++ x :: rest → Ready k a err s → I done s →
      Step k a err (f x) s fun _ => I (done ++ [x])) :
    Step k a err (l.forM f) s fun _ => I l := by
  have hloop := Meets.forM (I := fun done s => Ready k a err s ∧ I done s) (E := Told k a) l
    fun done x rest hl => .of_state fun s hs => hf done x rest s hl hs.1 hs.2
  exact hloop.pre fun s' hs' => hs' ▸ ⟨h, hstart⟩

theorem Step.ite {c : Prop} [Decidable c] {m' : SetUp α} (ht : c → Step k a err m s Q)
    (hf : ¬ c → Step k a err m' s Q) : Step k a err (if c then m else m') s Q := by
  split
  · rename_i hc
    exact ht hc
  · rename_i hc
    exact hf hc

/-- A step that only runs under a condition. -/
theorem Step.when {c : Prop} [Decidable c] {m : SetUp Unit} {Q : Child → Prop}
    (h : Ready k a err s) (ht : c → Step k a err m s fun _ => Q) (hf : ¬ c → Q s) :
    Step k a err (onlyIf c m) s fun _ => Q :=
  .ite ht fun hc => .pure h (hf hc)

/-- A change that no call makes. -/
theorem Step.modify (h : Ready k a err s) {f : Child → Child} (hcalls : (f s).calls = s.calls)
    (hfds : (f s).fds = s.fds) (hpaused : (f s).paused = s.paused) :
    Step k a err (modify f) s fun _ s' => s' = f s :=
  .of_sat ⟨h.of_same hcalls hfds hpaused, rfl⟩

/-- A call whose failure the child looks at. -/
theorem Step.tryCall {c : Call} {effect : Child → Child} {f : Option Nat → SetUp β}
    {R : β → Child → Prop} (hfd : c.descriptor = none)
    (hnone : k.fails s.calls c = none → Step k a err (f none) (effect (s.made c)) R)
    (hsome : ∀ n, k.fails s.calls c = some n → Step k a err (f (some n)) (s.made c) R) :
    Step k a err (tryCall k c effect >>= f) s R := by
  rintro _ rfl
  show Sat (Spawn.tryCall k c effect _ >>= fun r => f r.1 r.2) _ _
  unfold Spawn.tryCall
  rw [failure_eq_of_none hfd]
  cases hc : k.fails _ c with
  | none => exact hnone hc _ rfl
  | some n => exact hsome n hc _ rfl

/-- A call that is given no descriptor and leaves the descriptors as they are. -/
theorem Step.call (h : Ready k a err s) {type : JobProcessErrorType} {arg : Nat} {c : Call}
    {effect : Child → Child} (hfd : c.descriptor = none)
    (herror : ∀ n, c.error n = ⟨type, arg, .errno n⟩) (hasked : c.AskedFor a)
    (hcalls : (effect (s.made c)).calls = (s.made c).calls)
    (hfds : (effect (s.made c)).fds = s.fds)
    (hpaused : (effect (s.made c)).paused = s.paused) :
    Step k a err (call k err type arg c effect) s fun _ s' => s' = effect (s.made c) := by
  refine .of_sat ((call_sat h (fun fd hc => ?_) herror hasked).imp fun r hr => ?_)
  · rw [hfd] at hc
    cases hc
  · rw [hr.2]
    exact ⟨hr.1.of_same hcalls hfds hpaused, rfl⟩

end Startup.Spawn
