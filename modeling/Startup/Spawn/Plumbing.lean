import Startup.Spawn.Steps

/-!
# The descriptors of the child

Every descriptor that the child has been given has a role.  `Holds` says where those in the roles
are open, beside what init has open; each step is described by what it does to the roles.

* `jobProcessRemapFd_step`: a descriptor is out of the way of the script.
* `arrangeDescriptors_step`: what is open at which number before the settings are made.
-/

namespace Startup.Spawn

open Lib Lib.Descriptors ParseJob

/-- What a descriptor is for. -/
inductive Role where
  | errorReader
  | errorWriter
  | scriptReader
  | scriptWriter
  | readyReader
  | readyWriter
  | ptyMaster
  | ptySlave
  | stdin
  | stdout
  | stderr
  deriving DecidableEq

/-- The number of each role and what it is open on. -/
abbrev Own := Role → Option (Nat × Entry File)

variable {k : Kernel} {a : Args} {err fd : Nat} {s : Child} {base : Table File} {own : Own}
  {r : Role} {e : Entry File}

/-- The error pipe is in its role. -/
theorem Ready.of_holds (hpassed : Passed k a s.calls) (hrunning : s.paused = false)
    (h : Holds base s.fds own) {c : Bool}
    (hpipe : own .errorWriter = some (err, ⟨.errorWriter, c⟩)) :
    Ready k a err s where
  passed := hpassed
  pipe := by
    rw [hrunning]
    exact ⟨c, h.held hpipe⟩

/-- The table changes, and the error pipe stays where it is. -/
theorem Ready.onTable (h : Ready k a err s) {f : Table File → Table File}
    (hf : (f s.fds).get err = s.fds.get err) : Ready k a err (onTable f s) where
  passed := h.passed
  pipe := by
    show if s.paused then _ ∧ (f s.fds).get err = none
      else ∃ c, (f s.fds).get err = some ⟨.errorWriter, c⟩
    rw [hf]
    exact h.pipe

/-- A call on descriptors that leaves the error pipe where it is. -/
theorem Step.callTable (h : Ready k a err s) {type : JobProcessErrorType} {c : Call}
    {f : Table File → Table File} (hfd : ∀ fd, c.descriptor = some fd → s.fds.get fd ≠ none)
    (herror : ∀ n, c.error n = ⟨type, 0, .errno n⟩) (hasked : c.AskedFor a)
    (hf : (f s.fds).get err = s.fds.get err) :
    Step k a err (Spawn.call k err type 0 c (onTable f)) s fun _ s' =>
      ∃ calls, s' = { s with calls := calls, fds := f s.fds } := by
  refine .of_sat ((call_sat h hfd herror hasked).imp ?_)
  rintro ⟨-, s'⟩ ⟨hready, rfl⟩
  exact ⟨hready.onTable hf, (s.made c).calls, rfl⟩

/-- A descriptor other than the error pipe is closed. -/
theorem closeFd_step (h : Ready k a err s) (hne : err ≠ fd) :
    Step k a err (closeFd fd) s fun _ s' => s' = { s with fds := s.fds.close fd } := by
  have hready : Ready k a err (onTable (·.close fd) s) := h.onTable (Table.get_set_ne _ _ hne)
  exact .of_sat ⟨hready, rfl⟩

/-- `dup` of an open descriptor. -/
theorem dup_sat (h : Ready k a err s) (hopen : s.fds.get fd = some e) :
    Sat (dup k err fd s) (fun x => Passed k a x.2.calls ∧ x.1 = s.fds.lowest ∧
      x.2 = { s with
        calls := x.2.calls, fds := (s.fds.alloc { e with cloexec := false }).1 }) (Told k a) := by
  show Sat ((call k err .dup 0 (.dup fd)
    (onTable fun t => ((t.dup fd).map Prod.fst).getD t) >>= fun _ => pure s.fds.lowest) s) _ _
  refine (call_sat h ?_ (fun _ => rfl) (by trivial)).bindState ?_
  · rintro _ ⟨⟩
    simp [hopen]
  · rintro - s' ⟨hready, rfl⟩
    refine ⟨hready.passed, rfl, ?_⟩
    show onTable _ (s.made (.dup fd)) = _
    rw [onTable]
    show ({ s.made (.dup fd) with fds := ((s.fds.dup fd).map Prod.fst).getD s.fds } : Child) = _
    rw [Table.dup, hopen]
    rfl

/-- The descriptor of a role gets out of the way of the script. -/
theorem jobProcessRemapFd_sat (h : Ready k a err s) (hh : Holds base s.fds own)
    (hr : own r = some (fd, e)) :
    Sat (jobProcessRemapFd k fd jobProcessScriptFd err s) (fun x =>
      Passed k a x.2.calls ∧ x.1 ≠ jobProcessScriptFd ∧ ∃ fds e',
        x.2 = { s with calls := x.2.calls, fds := fds } ∧ e'.file = e.file ∧
        (e.cloexec = false → e'.cloexec = false) ∧
        Holds base fds (Function.update own r (some (x.1, e')))) (Told k a) := by
  have hopen := hh.held hr
  unfold jobProcessRemapFd
  split
  · rename_i hfree
    refine ⟨h.passed, hfree, s.fds, e, rfl, rfl, id, ?_⟩
    show Holds base s.fds (Function.update own r (some (fd, e)))
    rw [← hr, Function.update_eq_self]
    exact hh
  · rename_i htaken
    have hlowest : s.fds.lowest ≠ fd := s.fds.lowest_ne (by simp [hopen])
    refine (dup_sat h hopen).bindState ?_
    rintro n s' ⟨hpassed, hn, hs'⟩
    dsimp only at hn hs'
    have hfds : s'.fds = (s.fds.alloc { e with cloexec := false }).1 := by rw [hs']
    refine ⟨hpassed, ?_, s'.fds.close fd, { e with cloexec := false }, ?_, rfl, fun _ => rfl, ?_⟩
    · show n ≠ jobProcessScriptFd
      rwa [hn, ← not_not.mp htaken]
    · show onTable (·.close fd) s' = _
      rw [hs']
      rfl
    · show Holds base (s'.fds.close fd) (Function.update own r (some (n, _)))
      rw [hfds, hn]
      exact hh.move hr

/-- The descriptor of a role other than the error pipe. -/
theorem jobProcessRemapFd_step (h : Ready k a err s) (hrunning : s.paused = false)
    (hh : Holds base s.fds own) {c : Bool}
    (hpipe : own .errorWriter = some (err, ⟨.errorWriter, c⟩))
    (hr : own r = some (fd, e)) (hrole : .errorWriter ≠ r) :
    Step k a err (jobProcessRemapFd k fd jobProcessScriptFd err) s fun n s' =>
      n ≠ jobProcessScriptFd ∧ ∃ fds e', s' = { s with calls := s'.calls, fds := fds } ∧
        e'.file = e.file ∧ (e.cloexec = false → e'.cloexec = false) ∧
        Holds base fds (Function.update own r (some (n, e'))) := by
  refine .of_sat ((jobProcessRemapFd_sat h hh hr).imp ?_)
  rintro ⟨n, s'⟩ ⟨hpassed, hn, fds, e', hs', hfile, hflag, hh'⟩
  dsimp only at hs'
  have hnow : Holds base s'.fds (Function.update own r (some (n, e'))) := by
    rw [hs']
    exact hh'
  refine ⟨.of_holds hpassed ?_ hnow ((Function.update_of_ne hrole _ _).trans hpipe), hn, fds, e',
    hs', hfile, hflag, hh'⟩
  show s'.paused = false
  rw [hs']
  exact hrunning

/-- The reading end of the error pipe is closed; the writing end is out of the way of the script,
and it is closed when the program is executed. -/
theorem keepErrorPipe_sat (hpassed : Passed k a s.calls) (hrunning : s.paused = false)
    (hh : Holds base s.fds own) {er : Entry File} {c : Bool}
    (hreader : own .errorReader = some (a.errorReader, er))
    (hpipe : own .errorWriter = some (a.errorWriter, ⟨.errorWriter, c⟩)) :
    Sat (keepErrorPipe k a s) (fun x =>
      Ready k a x.1 x.2 ∧ x.1 ≠ jobProcessScriptFd ∧ ∃ fds,
        x.2 = { s with calls := x.2.calls, fds := fds } ∧
        Holds base fds (Function.update (Function.update own .errorReader none) .errorWriter
          (some (x.1, ⟨.errorWriter, true⟩)))) (Told k a) := by
  have hclosed := hh.close hreader
  have hpipe' : Function.update own .errorReader none .errorWriter =
      some (a.errorWriter, ⟨.errorWriter, c⟩) := hpipe
  have h : Ready k a a.errorWriter { s with fds := s.fds.close a.errorReader } :=
    .of_holds hpassed hrunning hclosed hpipe'
  show Sat ((jobProcessRemapFd k a.errorWriter jobProcessScriptFd a.errorWriter >>= fun err => do
    setCloexec err
    pure err) { s with fds := s.fds.close a.errorReader }) _ _
  refine (jobProcessRemapFd_sat h hclosed hpipe').bindState ?_
  rintro n s' ⟨hpassed, hn, fds, e', hs', hfile, -, hh'⟩
  have hset := hh'.setCloexec (Function.update_self ..) true
  rw [Function.update_idem, hfile] at hset
  dsimp only at hs'
  have hnow : Holds base (onTable (·.setCloexec n true) s').fds
      (Function.update (Function.update own .errorReader none) .errorWriter
        (some (n, ⟨.errorWriter, true⟩))) := by
    rw [hs']
    exact hset
  refine ⟨.of_holds hpassed ?_ hnow (Function.update_self ..), hn, fds.setCloexec n true, ?_, hset⟩
  · show s'.paused = false
    rw [hs']
    exact hrunning
  · show onTable (·.setCloexec n true) s' = _
    rw [hs']
    rfl

/-- The environment with the number of the readiness pipe. -/
def readyEnv (a : Args) : Option Nat → List String
  | none => a.env
  | some n => environAdd a.getenv a.env true ("READY_FD=" ++ toString n)

/-- The readiness pipe is out of the way of the script, and the environment has its number. -/
theorem keepReadyPipe_step (h : Ready k a err s) (hrunning : s.paused = false)
    (hh : Holds base s.fds own) {c : Bool}
    (hpipe : own .errorWriter = some (err, ⟨.errorWriter, c⟩))
    (hready : own .readyWriter = a.readyfd.map fun n => (n, ⟨.readyWriter, false⟩)) :
    Step k a err (keepReadyPipe k a err) s fun env s' =>
      ∃ ready : Option Nat, env = readyEnv a ready ∧ ready.isSome = a.readyfd.isSome ∧
        (∀ n, ready = some n → n ≠ jobProcessScriptFd) ∧
        ∃ fds own', s' = { s with calls := s'.calls, fds := fds } ∧ Holds base fds own' ∧
          own' .readyWriter = (ready.map fun n => (n, ⟨.readyWriter, false⟩)) ∧
          ∀ r, r ≠ .readyWriter → own' r = own r := by
  unfold keepReadyPipe
  cases hfd : a.readyfd with
  | none =>
    rw [hfd] at hready
    exact .pure h ⟨none, rfl, rfl, nofun, _, own, rfl, hh, hready, fun _ _ => rfl⟩
  | some fd =>
    rw [hfd] at hready
    refine (jobProcessRemapFd_step h hrunning hh hpipe hready (by decide)).bind ?_
    rintro n s' h' ⟨hn, fds, e', hs', hfile, hflag, hh'⟩
    refine .pure h' ⟨some n, rfl, rfl, ?_, fds, _, hs', hh', ?_, fun r hr =>
      Function.update_of_ne hr _ _⟩
    · rintro _ ⟨⟩
      exact hn
    · obtain ⟨file, cloexec⟩ := e'
      cases hfile
      cases hflag rfl
      exact Function.update_self ..

/-- The master is closed when the program is executed. -/
theorem keepMaster_step (h : Ready k a err s) (hrunning : s.paused = false)
    (hh : Holds base s.fds own) {c : Bool}
    (hpipe : own .errorWriter = some (err, ⟨.errorWriter, c⟩))
    (hmaster : own .ptyMaster = some (a.ptyMaster, e)) :
    Step k a err (keepMaster k a err) s fun n s' =>
      n ≠ jobProcessScriptFd ∧ ∃ fds, s' = { s with calls := s'.calls, fds := fds } ∧
        Holds base fds (Function.update own .ptyMaster (some (n, ⟨e.file, true⟩))) := by
  refine (jobProcessRemapFd_step h hrunning hh hpipe hmaster (by decide)).bind ?_
  rintro n s' h' ⟨hn, fds, e', hs', hfile, -, hh'⟩
  have hset := hh'.setCloexec (Function.update_self ..) true
  rw [Function.update_idem, hfile] at hset
  have hs'' : onTable (·.setCloexec n true) s' =
      { s with calls := s'.calls, fds := fds.setCloexec n true } := by
    rw [hs']
    rfl
  have hnow : Holds base (onTable (·.setCloexec n true) s').fds
      (Function.update own .ptyMaster (some (n, ⟨e.file, true⟩))) := by
    rw [hs'']
    exact hset
  refine .of_sat ⟨.of_holds h'.passed ?_ hnow ((Function.update_of_ne (by decide) _ _).trans hpipe),
    hn, _, hs'', hset⟩
  show (onTable (·.setCloexec n true) s').paused = false
  rw [hs'']
  exact hrunning

/-- A call on the terminal. -/
theorem terminalCall_step (h : Ready k a err s) {type : JobProcessErrorType} {c : Call}
    (hfd : ∀ fd, c.descriptor = some fd → s.fds.get fd ≠ none)
    (herror : ∀ n, c.error n = ⟨type, 0, .errno n⟩) (hasked : c.AskedFor a) :
    Step k a err (call k err type 0 c id) s fun _ s' =>
      s' = { s with calls := s'.calls } := by
  refine .of_sat ((call_sat h hfd herror hasked).imp ?_)
  rintro ⟨-, s'⟩ ⟨hready, rfl⟩
  exact ⟨hready, rfl⟩

theorem unlockTerminal_step (h : Ready k a err s) {master : Nat}
    (hopen : s.fds.get master ≠ none) :
    Step k a err (unlockTerminal k err master) s fun _ s' =>
      s' = { s with calls := s'.calls } := by
  refine (terminalCall_step h (by rintro _ ⟨⟩) (fun _ => rfl) (by trivial)).bind ?_
  rintro - s₁ h₁ hs₁
  have hopen₁ : s₁.fds.get master ≠ none := by rwa [hs₁]
  refine (terminalCall_step h₁ (by rintro _ ⟨⟩; exact hopen₁) (fun _ => rfl) (by trivial)).bind ?_
  rintro - s₂ h₂ hs₂
  have hopen₂ : s₂.fds.get master ≠ none := by rwa [hs₂]
  refine (terminalCall_step h₂ (by rintro _ ⟨⟩) (fun _ => rfl) (by trivial)).bind ?_
  rintro - s₃ h₃ hs₃
  have hopen₃ : s₃.fds.get master ≠ none := by rwa [hs₃]
  refine (terminalCall_step h₃ (by rintro _ ⟨⟩; exact hopen₃) (fun _ => rfl) (by trivial)).imp ?_
  rintro - s₄ hs₄
  rw [hs₄, hs₃, hs₂, hs₁]

/-- The slave is open, out of the way of the script. -/
theorem openSlave_step (h : Ready k a err s) (hrunning : s.paused = false)
    (hh : Holds base s.fds own) {c : Bool}
    (hpipe : own .errorWriter = some (err, ⟨.errorWriter, c⟩))
    (hslave : own .ptySlave = none) :
    Step k a err (openSlave k err) s fun n s' =>
      n ≠ jobProcessScriptFd ∧ ∃ fds, s' = { s with calls := s'.calls, fds := fds } ∧
        Holds base fds (Function.update own .ptySlave (some (n, ⟨.ptySlave, false⟩))) := by
  have herr : s.fds.get err ≠ none := by simp [hh.held hpipe]
  have hne : err ≠ s.fds.lowest := (s.fds.lowest_ne herr).symm
  refine .get ((Step.callTable h (by rintro _ ⟨⟩) (fun _ => rfl) (by trivial)
    (Table.get_set_ne _ _ hne)).bind ?_)
  rintro - s₁ h₁ ⟨calls, hs₁⟩
  have hnow : Holds base s₁.fds (Function.update own .ptySlave
      (some (s.fds.lowest, ⟨.ptySlave, false⟩))) := by
    rw [hs₁]
    exact hh.alloc hslave ⟨.ptySlave, false⟩
  refine (jobProcessRemapFd_step h₁ (by rw [hs₁]; exact hrunning) hnow
    ((Function.update_of_ne (by decide) _ _).trans hpipe) (Function.update_self ..)
    (by decide)).imp ?_
  rintro n s₂ ⟨hn, fds, e', hs₂, hfile, hflag, hh₂⟩
  obtain ⟨file, cloexec⟩ := e'
  cases hfile
  cases hflag rfl
  rw [Function.update_idem] at hh₂
  exact ⟨hn, fds, by rw [hs₂, hs₁], hh₂⟩

/-- The slave of the terminal is open where the output is logged. -/
theorem openTerminal_step (h : Ready k a err s) (hrunning : s.paused = false)
    (hh : Holds base s.fds own) {c : Bool}
    (hpipe : own .errorWriter = some (err, ⟨.errorWriter, c⟩))
    (hmaster : own .ptyMaster = if a.console = .log then some (a.ptyMaster, ⟨.ptyMaster, true⟩)
      else none) (hslave : own .ptySlave = none) :
    Step k a err (openTerminal k a err) s fun slave s' =>
      (slave.isSome = true ↔ a.console = .log) ∧
        (∀ n, slave = some n → n ≠ jobProcessScriptFd) ∧
        ∃ fds own', s' = { s with calls := s'.calls, fds := fds } ∧ Holds base fds own' ∧
          own' .ptySlave = (slave.map fun n => (n, ⟨.ptySlave, false⟩)) ∧
          (∀ n e, own' .ptyMaster = some (n, e) → n ≠ jobProcessScriptFd ∧ e.cloexec = true) ∧
          ∀ r, r ≠ .ptyMaster → r ≠ .ptySlave → own' r = own r := by
  unfold openTerminal
  refine .ite (fun hlog => ?_) fun hnot => ?_
  · rw [if_pos hlog] at hmaster
    refine (keepMaster_step h hrunning hh hpipe hmaster).bind ?_
    rintro m s₁ h₁ ⟨hm, fds₁, hs₁, hh₁⟩
    have hopen : s₁.fds.get m ≠ none := by
      rw [hs₁]
      show fds₁.get m ≠ none
      simp [hh₁.held (Function.update_self ..)]
    refine (unlockTerminal_step h₁ hopen).bind ?_
    rintro - s₂ h₂ hs₂
    have hrunning₂ : s₂.paused = false := by
      rw [hs₂, hs₁]
      exact hrunning
    have hh₂ : Holds base s₂.fds (Function.update own .ptyMaster
        (some (m, ⟨.ptyMaster, true⟩))) := by
      rw [hs₂, hs₁]
      exact hh₁
    refine (openSlave_step h₂ hrunning₂ hh₂ ((Function.update_of_ne (by decide) _ _).trans hpipe)
      ((Function.update_of_ne (by decide) _ _).trans hslave)).bind ?_
    rintro n s₃ h₃ ⟨hn, fds₃, hs₃, hh₃⟩
    refine .pure h₃ ⟨iff_of_true rfl hlog, ?_, fds₃, _, by rw [hs₃, hs₂, hs₁], hh₃,
      Function.update_self .., ?_, ?_⟩
    · rintro _ ⟨⟩
      exact hn
    · intro n' e' hown
      rw [Function.update_of_ne (by decide), Function.update_self] at hown
      cases hown
      exact ⟨hm, rfl⟩
    · intro r hr hr'
      rw [Function.update_of_ne hr', Function.update_of_ne hr]
  · rw [if_neg hnot] at hmaster
    refine .pure h ⟨iff_of_false nofun hnot, nofun, _, own, rfl, hh, hslave, ?_, fun _ _ _ => rfl⟩
    rw [hmaster]
    nofun

end Startup.Spawn
