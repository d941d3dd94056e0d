import Startup.Spawn.Plumbing

/-!
# The numbers of the descriptors

The script and the standard descriptors go to numbers of their own, over what init has open
there.

* `arrangeDescriptors_sat`: what is open at which number before the settings are made.
* `Arranged.get_exec`: what the program finds open, whatever the numbers were that the pipes and
  the terminal had.
-/

namespace Startup.Spawn

open Lib Lib.Descriptors ParseJob

variable {k : Kernel} {a : Args} {err : Nat} {s : Child} {base : Table File} {own : Own}
  {r : Role} {e : Entry File}

/-! ## The script -/

/-- The script is at its number. -/
theorem moveScript_step (h : Ready k a err s)
    (hh : Holds base s.fds own) {c : Bool}
    (hpipe : own .errorWriter = some (err, ⟨.errorWriter, c⟩))
    (hscript : own .scriptReader = a.scriptFd.map fun n => (n, ⟨.scriptReader, false⟩))
    (hothers : ∀ r n e, r ≠ .scriptReader → own r = some (n, e) → n ≠ jobProcessScriptFd) :
    Step k a err (moveScript k a err) s fun script s' =>
      script = (a.scriptFd.map fun _ => jobProcessScriptFd) ∧
        ∃ fds own', s' = { s with calls := s'.calls, fds := fds } ∧
          Holds (if a.scriptFd.isSome then base.close jobProcessScriptFd else base) fds own' ∧
          own' .scriptReader = (script.map fun n => (n, ⟨.scriptReader, false⟩)) ∧
          ∀ r, r ≠ .scriptReader → own' r = own r := by
  unfold moveScript
  cases hfd : a.scriptFd with
  | none =>
    rw [hfd] at hscript
    exact .pure h ⟨rfl, _, own, rfl, hh, hscript, fun _ _ => rfl⟩
  | some fd =>
    rw [hfd] at hscript
    have hopen := hh.held hscript
    refine .ite (fun hne => ?_) fun heq => ?_
    · have herr : err ≠ jobProcessScriptFd := hothers _ _ _ (by decide) hpipe
      have hfderr : fd ≠ err := by
        rintro rfl
        exact absurd (hh.apart hscript hpipe) (by decide)
      have hdup : (s.fds.dup2 fd jobProcessScriptFd).getD s.fds =
          s.fds.set jobProcessScriptFd (some ⟨.scriptReader, false⟩) := by
        rw [Table.dup2, hopen, Option.map_some, if_neg hne]
        rfl
      have hnot : ∀ r e, own r ≠ some (jobProcessScriptFd, e) := by
        intro r e hown
        by_cases hr : r = .scriptReader
        · subst hr
          rw [hscript] at hown
          cases hown
          exact hne rfl
        · exact hothers r _ e hr hown rfl
      have hmoved := hh.relocate hscript hne.symm hnot ⟨.scriptReader, false⟩
      refine (Step.callTable h (by rintro _ ⟨⟩; simp [hopen]) (fun _ => rfl) (by trivial)
        ?_).bind ?_
      · rw [hdup]
        exact Table.get_set_ne _ _ herr
      rintro - s₁ h₁ ⟨calls, hs₁⟩
      rw [hdup] at hs₁
      refine (closeFd_step h₁ hfderr.symm).bind ?_
      rintro - - h₂ rfl
      exact .pure h₂ ⟨rfl, _, _, by rw [hs₁], hmoved, Function.update_self .., fun r hr =>
        Function.update_of_ne hr _ _⟩
    · have hfd' : fd = jobProcessScriptFd := not_not.mp heq
      subst hfd'
      refine .pure h ⟨rfl, _, own, rfl, ?_, hscript, fun _ _ => rfl⟩
      show Holds (base.close jobProcessScriptFd) s.fds own
      rwa [base.close_of_free (hh.free hscript)]

/-! ## The standard descriptors -/

/-- Without the standard descriptors. -/
def closeStandard (t : Table File) : Table File := ((t.close 0).close 1).close 2

theorem get_closeStandard (t : Table File) (n : Nat) :
    (closeStandard t).get n = if n < 3 then none else t.get n := by
  simp only [closeStandard, Table.close, Table.get_set]
  split_ifs <;> first | rfl | omega

theorem closeStandard_idem (t : Table File) :
    closeStandard (closeStandard t) = closeStandard t := by
  ext1
  funext n
  simp only [get_closeStandard]
  split <;> rfl

/-- No role has a number of the standard descriptors. -/
def ClearOfStandard (own : Own) : Prop := ∀ r n e, own r = some (n, e) → 3 ≤ n

theorem closeStandard_holds (h : Holds base s.fds own) (hclear : ClearOfStandard own) :
    Holds (closeStandard base) (closeStandard s.fds) own := by
  have hnot : ∀ n, n < 3 → ∀ r e, own r ≠ some (n, e) := by
    intro n hn r e hown
    have hle := hclear r n e hown
    omega
  exact ((h.closeBase (hnot 0 (by decide))).closeBase (hnot 1 (by decide))).closeBase
    (hnot 2 (by decide))

/-- The roles with the standard descriptors open on a file. -/
def withStandard (file : File) (own : Own) : Own :=
  Function.update (Function.update (Function.update own .stdin (some (0, ⟨file, false⟩)))
    .stdout (some (1, ⟨file, false⟩))) .stderr (some (2, ⟨file, false⟩))

/-- A file that is opened three times gets the standard numbers. -/
theorem openStandard_holds {t : Table File} (file : File) (h : Holds base t own)
    (hclosed : ∀ n < 3, t.get n = none)
    (hin : own .stdin = none) (hout : own .stdout = none) (herr : own .stderr = none) :
    Holds base (openStandard file t) (withStandard file own) := by
  have h₀ : t.lowest = 0 := t.lowest_eq (hclosed 0 (by decide)) (by omega)
  have hh₀ := h.alloc hin ⟨file, false⟩
  generalize ht₁ : (t.alloc ⟨file, false⟩).1 = t₁ at hh₀
  have hget₁ : ∀ n, t₁.get n = if n = 0 then some ⟨file, false⟩ else t.get n := by
    intro n
    rw [← ht₁, Table.alloc, Table.get_set, h₀]
  have h₁ : t₁.lowest = 1 := by
    refine t₁.lowest_eq ?_ ?_
    · rw [hget₁, if_neg (by decide)]
      exact hclosed 1 (by decide)
    · intro m hm
      rw [hget₁, if_pos (by omega)]
      nofun
  have hh₁ := hh₀.alloc (r := .stdout) (by rw [Function.update_of_ne (by decide), hout])
    ⟨file, false⟩
  generalize ht₂ : (t₁.alloc ⟨file, false⟩).1 = t₂ at hh₁
  have hget₂ : ∀ n, t₂.get n = if n = 1 then some ⟨file, false⟩ else t₁.get n := by
    intro n
    rw [← ht₂, Table.alloc, Table.get_set, h₁]
  have h₂ : t₂.lowest = 2 := by
    refine t₂.lowest_eq ?_ ?_
    · rw [hget₂, if_neg (by decide), hget₁, if_neg (by decide)]
      exact hclosed 2 (by decide)
    · intro m hm
      rw [hget₂, hget₁]
      split
      · nofun
      · rw [if_pos (by omega)]
        nofun
  have hh₂ := hh₁.alloc (r := .stderr) (by
    rw [Function.update_of_ne (by decide), Function.update_of_ne (by decide), herr])
    ⟨file, false⟩
  have hn₀ : (t.alloc ⟨file, false⟩).2 = 0 := h₀
  have hn₁ : (t₁.alloc ⟨file, false⟩).2 = 1 := h₁
  have hn₂ : (t₂.alloc ⟨file, false⟩).2 = 2 := h₂
  rw [hn₀, hn₁, hn₂, ← ht₂, ← ht₁] at hh₂
  exact hh₂

/-- The files that may be on the standard descriptors; an output console that cannot be opened is
replaced. -/
def IsStandard (a : Args) (file : File) : Prop :=
  file = consoleFile a.console ∨ a.console = .output ∧ file = .devNull

/-- The descriptors, with the standard ones those of init. -/
structure Console (s : Child) (base : Table File) (own : Own) : Prop where
  holds : Holds base s.fds own
  clear : ClearOfStandard own
  stdin : own .stdin = none
  stdout : own .stdout = none
  stderr : own .stderr = none

/-- The standard descriptors are closed, and a file is opened in their place. -/
theorem Console.opened (h : Console s base own) (file : File) :
    Holds (closeStandard base) (openStandard file (closeStandard s.fds))
      (withStandard file own) := by
  refine openStandard_holds file (closeStandard_holds h.holds h.clear) (fun n hn => ?_) h.stdin
    h.stdout h.stderr
  rw [get_closeStandard, if_pos hn]

/-- `system_setup_console` ends with the standard descriptors open on the console, or closed. -/
theorem systemSetupConsole_step {type : ConsoleType} {R : Unit → Child → Prop}
    {f : Option Nat → SetUp Unit}
    (hnone : k.fails s.calls (.openConsole type) = none → Step k a err (f none) { s with
      calls := s.calls ++ [.openConsole type]
      fds := openStandard (consoleFile type) (closeStandard s.fds) } R)
    (hsome : ∀ n, k.fails s.calls (.openConsole type) = some n → Step k a err (f (some n)) { s with
      calls := s.calls ++ [.openConsole type], fds := closeStandard s.fds } R) :
    Step k a err (systemSetupConsole k type >>= f) s R := by
  have htry : Step k a err (tryCall k (.openConsole type)
      (onTable (openStandard (consoleFile type))) >>= f)
      { s with fds := closeStandard s.fds } R := .tryCall rfl hnone hsome
  rintro _ rfl
  exact htry _ rfl

/-- The console that the class asks for; an output console that cannot be opened is replaced by
nothing. -/
theorem setUpConsole_step (h : Ready k a err s) (hrunning : s.paused = false)
    (hc : Console s base own) {c : Bool}
    (hpipe : own .errorWriter = some (err, ⟨.errorWriter, c⟩)) :
    Step k a err (setUpConsole k a err) s fun _ s' =>
      ∃ file, IsStandard a file ∧ ∃ fds, s' = { s with calls := s'.calls, fds := fds } ∧
        Holds (closeStandard base) fds (withStandard file own) := by
  have hlow : 3 ≤ err := hc.clear _ _ _ hpipe
  have hopened : ∀ (calls : List Call) (file : File), Passed k a calls → IsStandard a file →
      Step k a err (pure ()) { s with
          calls := calls, fds := openStandard file (closeStandard s.fds) } fun _ s' =>
        ∃ file, IsStandard a file ∧ ∃ fds, s' = { s with calls := s'.calls, fds := fds } ∧
          Holds (closeStandard base) fds (withStandard file own) := by
    intro calls file hpassed hfile
    have hh := hc.opened file
    exact .pure (.of_holds hpassed hrunning hh hpipe) ⟨file, hfile, _, rfl, hh⟩
  -- while the standard descriptors are closed, the error pipe is still there
  have habort : ∀ (done : List Call) (type : ConsoleType) (n : Nat), Passed k a done →
      k.fails done (.openConsole type) = some n →
      Step k a err (jobProcessErrorAbort err .console 0 (.errno n) : SetUp Unit) { s with
        calls := done ++ [.openConsole type], fds := closeStandard s.fds } fun _ s' =>
        ∃ file, IsStandard a file ∧ ∃ fds, s' = { s with calls := s'.calls, fds := fds } ∧
          Holds (closeStandard base) fds (withStandard file own) := by
    intro done type n hpassed hn
    have hready : Ready k a err (onTable closeStandard s) :=
      h.onTable (by rw [get_closeStandard, if_neg (by omega)])
    exact .of_sat (jobProcessErrorAbort_sat hready.pipe (.failed rfl hpassed (by trivial) hn))
  refine systemSetupConsole_step (fun hok => ?_) fun n hn => ?_
  · exact hopened _ _ (h.passed.snoc (by trivial) fun n hn => by simp [hok] at hn) (.inl rfl)
  · refine .ite (fun houtput => ?_) fun _ => habort s.calls a.console n h.passed hn
    have hpassed : Passed k a (s.calls ++ [.openConsole a.console]) :=
      h.passed.snoc (by trivial) fun _ _ => by rw [houtput]; rfl
    refine systemSetupConsole_step (fun hok => ?_) fun m hm => ?_
    · have hstep := hopened (s.calls ++ [.openConsole a.console] ++ [.openConsole .none]) .devNull
        (hpassed.snoc (by trivial) fun n hn => by simp [hok] at hn) (.inr ⟨houtput, rfl⟩)
      rw [← closeStandard_idem s.fds] at hstep
      exact hstep
    · have hstep := habort _ .none m hpassed hm
      rw [← closeStandard_idem s.fds] at hstep
      exact hstep

/-- The output goes to the terminal, where it is logged. -/
theorem redirectOutput_step (h : Ready k a err s)
    (hh : Holds base s.fds own) {c : Bool}
    (hpipe : own .errorWriter = some (err, ⟨.errorWriter, c⟩))
    {slave : Option Nat} (hslave : own .ptySlave = slave.map fun n => (n, ⟨.ptySlave, false⟩))
    {file : File} (hout : own .stdout = some (1, ⟨file, false⟩))
    (herr : own .stderr = some (2, ⟨file, false⟩)) :
    Step k a err (redirectOutput k err slave) s fun _ s' =>
      ∃ fds own', s' = { s with calls := s'.calls, fds := fds } ∧ Holds base fds own' ∧
        own' .stdout = some (1, ⟨if slave.isSome then .ptySlave else file, false⟩) ∧
        own' .stderr = some (2, ⟨if slave.isSome then .ptySlave else file, false⟩) ∧
        own' .ptySlave = none ∧
        ∀ r, r ≠ .stdout → r ≠ .stderr → r ≠ .ptySlave → own' r = own r := by
  cases slave with
  | none => exact .pure h ⟨_, own, rfl, hh, hout, herr, hslave, fun _ _ _ _ => rfl⟩
  | some n =>
    have hneq : ∀ {r m e}, r ≠ .ptySlave → own r = some (m, e) → n ≠ m := by
      rintro r _ e hr hown rfl
      exact hr (hh.apart hown hslave)
    have hn₁ : n ≠ 1 := hneq (by decide) hout
    have hn₂ : n ≠ 2 := hneq (by decide) herr
    have hnerr : n ≠ err := hneq (by decide) hpipe
    have herr₁ : err ≠ 1 := by
      rintro rfl
      exact absurd (hh.apart hpipe hout) (by decide)
    have herr₂ : err ≠ 2 := by
      rintro rfl
      exact absurd (hh.apart hpipe herr) (by decide)
    have hopen := hh.held hslave
    have hdup₁ : (s.fds.dup2 n 1).getD s.fds = s.fds.set 1 (some ⟨.ptySlave, false⟩) := by
      rw [Table.dup2, hopen, Option.map_some, if_neg hn₁]
      rfl
    have hh₁ := hh.change hout ⟨.ptySlave, false⟩
    have hopen₁ : (s.fds.set 1 (some ⟨.ptySlave, false⟩)).get n = some ⟨.ptySlave, false⟩ := by
      rw [Table.get_set_ne _ _ hn₁, hopen]
    have hdup₂ : ((s.fds.set 1 (some ⟨.ptySlave, false⟩)).dup2 n 2).getD
        (s.fds.set 1 (some ⟨.ptySlave, false⟩)) =
        (s.fds.set 1 (some ⟨.ptySlave, false⟩)).set 2 (some ⟨.ptySlave, false⟩) := by
      rw [Table.dup2, hopen₁, Option.map_some, if_neg hn₂]
      rfl
    have hh₂ := hh₁.change ((Function.update_of_ne (by decide) _ _).trans herr)
      ⟨.ptySlave, false⟩
    have hh₃ := hh₂.close (((Function.update_of_ne (by decide) _ _).trans
      (Function.update_of_ne (by decide) _ _)).trans hslave)
    refine (Step.callTable h (by rintro _ ⟨⟩; simp [hopen]) (fun _ => rfl) (by trivial) ?_).bind ?_
    · rw [hdup₁, Table.get_set_ne _ _ herr₁]
    rintro - s₁ h₁ ⟨calls₁, rfl⟩
    rw [hdup₁] at h₁ ⊢
    refine (Step.callTable h₁ (by rintro _ ⟨⟩; simp [hopen₁]) (fun _ => rfl) (by trivial)
      ?_).bind ?_
    · rw [hdup₂, Table.get_set_ne _ _ herr₂]
    rintro - s₂ h₂ ⟨calls₂, rfl⟩
    rw [hdup₂] at h₂ ⊢
    refine (closeFd_step h₂ hnerr.symm).imp ?_
    rintro - - rfl
    refine ⟨_, _, rfl, hh₃, ?_, ?_, ?_, ?_⟩
    · simp [Function.update]
    · simp [Function.update]
    · simp [Function.update]
    · intro r hr₁ hr₂ hr₃
      rw [Function.update_of_ne hr₃, Function.update_of_ne hr₂, Function.update_of_ne hr₁]

/-! ## All of them -/

/-- The descriptors that a child has been forked with, beside what init has open for itself. -/
structure Given (a : Args) (own : Own) : Prop where
  errorReader : own .errorReader = some (a.errorReader, ⟨.errorReader, false⟩)
  errorWriter : own .errorWriter = some (a.errorWriter, ⟨.errorWriter, false⟩)
  script : own .scriptReader = a.scriptFd.map fun n => (n, ⟨.scriptReader, false⟩)
  ready : own .readyWriter = a.readyfd.map fun n => (n, ⟨.readyWriter, false⟩)
  master : own .ptyMaster =
    if a.console = .log then some (a.ptyMaster, ⟨.ptyMaster, true⟩) else none
  others : ∀ r ∈ [Role.scriptWriter, .readyReader, .ptySlave, .stdin, .stdout, .stderr],
    own r = none

/-- What the program finds open: the standard descriptors, the script, the pipe for its readiness,
and else what init leaves open. -/
def programFds (a : Args) (view : Table File) (file : File) (ready : Option Nat) (n : Nat) :
    Option (Entry File) :=
  if n = 0 then some ⟨file, false⟩
  else if n = 1 ∨ n = 2 then some ⟨if a.console = .log then .ptySlave else file, false⟩
  else if a.scriptFd.isSome ∧ n = jobProcessScriptFd then some ⟨.scriptReader, false⟩
  else if ready = some n then some ⟨.readyWriter, false⟩
  else view.get n

theorem programFds_of_none {view : Table File} {file : File} {ready : Option Nat} {n : Nat}
    (hn : 3 ≤ n) (hscript : a.scriptFd.isSome → n ≠ jobProcessScriptFd) (hready : ready ≠ some n) :
    programFds a view file ready n = view.get n := by
  unfold programFds
  rw [if_neg (by omega), if_neg (by omega), if_neg (fun h => hscript h.1 h.2), if_neg hready]

/-- The descriptors have been arranged: `exec` leaves those that the program is to find. -/
structure Arranged (a : Args) (view : Table File) (p : Plumbing) (s : Child) : Prop where
  script : p.script = a.scriptFd.map fun _ => jobProcessScriptFd
  scriptOpen : ∀ fd, p.script = some fd → s.fds.get fd ≠ none
  pipe : s.fds.get p.err = some ⟨.errorWriter, true⟩
  env : s.environ = p.env
  found : ∃ file ready, IsStandard a file ∧ p.env = readyEnv a ready ∧
    ready.isSome = a.readyfd.isSome ∧ ∀ n, s.fds.exec.get n = programFds a view file ready n

theorem clearOfStandard {t : Table File} (h : Holds base t own)
    (hbase : ∀ n < 3, base.get n ≠ none) : ClearOfStandard own := by
  intro r n e hown
  by_contra hlt
  exact hbase n (by omega) (h.free hown)

theorem get_exec_closeStandard (t : Table File) {n : Nat} (hn : 3 ≤ n) :
    (closeStandard t).exec.get n = t.exec.get n := by
  rw [Table.get_exec, get_closeStandard, if_neg (by omega), Table.get_exec]

/-- The base without what the script and the standard descriptors take the place of. -/
theorem get_exec_base (base : Table File) {n : Nat} (hn : 3 ≤ n)
    (hscript : a.scriptFd.isSome → n ≠ jobProcessScriptFd) :
    (closeStandard (if a.scriptFd.isSome then base.close jobProcessScriptFd else base)).exec.get n =
      base.exec.get n := by
  rw [get_exec_closeStandard _ hn]
  split
  · rename_i hs
    rw [Table.get_exec, Table.close, Table.get_set_ne _ _ (hscript hs), Table.get_exec]
  · rfl

/-- What `exec` leaves of the roles, once they are at their numbers. -/
theorem programFds_eq {t : Table File} {file : File} {ready : Option Nat}
    (h : Holds (closeStandard (if a.scriptFd.isSome then base.close jobProcessScriptFd else base))
      t own)
    (hin : own .stdin = some (0, ⟨file, false⟩))
    (hout : own .stdout = some (1, ⟨if a.console = .log then .ptySlave else file, false⟩))
    (herr : own .stderr = some (2, ⟨if a.console = .log then .ptySlave else file, false⟩))
    (hscript : own .scriptReader =
      a.scriptFd.map fun _ => (jobProcessScriptFd, ⟨.scriptReader, false⟩))
    (hready : own .readyWriter = ready.map fun n => (n, ⟨.readyWriter, false⟩))
    (hothers : ∀ r n e, own r = some (n, e) →
      r ∈ [Role.stdin, .stdout, .stderr, .scriptReader, .readyWriter] ∨ e.cloexec = true)
    (n : Nat) :
    t.exec.get n = programFds a base.exec file ready n := by
  by_cases h₀ : n = 0
  · rw [programFds, if_pos h₀, h₀]
    exact h.get_exec hin rfl
  by_cases h₁ : n = 1
  · rw [programFds, if_neg h₀, if_pos (.inl h₁), h₁]
    exact h.get_exec hout rfl
  by_cases h₂ : n = 2
  · rw [programFds, if_neg h₀, if_pos (.inr h₂), h₂]
    exact h.get_exec herr rfl
  by_cases h₉ : a.scriptFd.isSome ∧ n = jobProcessScriptFd
  · obtain ⟨hsome, rfl⟩ := h₉
    rw [programFds, if_neg h₀, if_neg (by omega), if_pos ⟨hsome, rfl⟩]
    obtain ⟨fd, hfd⟩ := Option.isSome_iff_exists.mp hsome
    rw [hfd] at hscript
    exact h.get_exec hscript rfl
  by_cases hr : ready = some n
  · rw [programFds, if_neg h₀, if_neg (by omega), if_neg h₉, if_pos hr]
    rw [hr] at hready
    exact h.get_exec hready rfl
  · have hscript' : a.scriptFd.isSome → n ≠ jobProcessScriptFd := fun hs hn => h₉ ⟨hs, hn⟩
    rw [programFds_of_none (by omega) hscript' hr, ← get_exec_base base (by omega) hscript']
    refine h.get_exec_rest fun r e hown => ?_
    refine (hothers r n e hown).resolve_left fun hmem => ?_
    simp only [List.mem_cons, List.not_mem_nil, or_false] at hmem
    rcases hmem with rfl | rfl | rfl | rfl | rfl
    · rw [hin] at hown
      cases hown
      exact h₀ rfl
    · rw [hout] at hown
      cases hown
      exact h₁ rfl
    · rw [herr] at hown
      cases hown
      exact h₂ rfl
    · rw [hscript] at hown
      obtain ⟨fd, hfd, heq⟩ := Option.map_eq_some_iff.mp hown
      cases heq
      exact h₉ ⟨by rw [hfd]; rfl, rfl⟩
    · rw [hready] at hown
      obtain ⟨m, hm, heq⟩ := Option.map_eq_some_iff.mp hown
      cases heq
      exact hr hm

/-- The descriptors behind the error pipe. -/
theorem arrangeOthers_step (h : Ready k a err s) (hrunning : s.paused = false)
    (hh : Holds base s.fds own) (hbase : ∀ n < 3, base.get n ≠ none)
    (herr : err ≠ jobProcessScriptFd) (hpipe : own .errorWriter = some (err, ⟨.errorWriter, true⟩))
    (hscript : own .scriptReader = a.scriptFd.map fun n => (n, ⟨.scriptReader, false⟩))
    (hready : own .readyWriter = a.readyfd.map fun n => (n, ⟨.readyWriter, false⟩))
    (hmaster : own .ptyMaster =
      if a.console = .log then some (a.ptyMaster, ⟨.ptyMaster, true⟩) else none)
    (hothers : ∀ r ∈ [Role.errorReader, .scriptWriter, .readyReader, .ptySlave, .stdin, .stdout,
      .stderr], own r = none) :
    Step k a err (arrangeOthers k a err) s fun p s' =>
      p.err = err ∧ Arranged a base.exec p s' ∧ ∃ calls fds,
        s' = { s with calls := calls, fds := fds, leader := true, environ := p.env } := by
  refine (keepReadyPipe_step h hrunning hh hpipe hready).bind ?_
  rintro env s₁ h₁ ⟨ready, henv, hsome, hready₉, fds₁, own₁, hs₁, hh₁, hready₁, hsame₁⟩
  have hrunning₁ : s₁.paused = false := by rw [hs₁]; exact hrunning
  have hnow₁ : Holds base s₁.fds own₁ := by rw [hs₁]; exact hh₁
  have hpipe₁ : own₁ .errorWriter = some (err, ⟨.errorWriter, true⟩) :=
    (hsame₁ _ (by decide)).trans hpipe
  refine (openTerminal_step h₁ hrunning₁ hnow₁ hpipe₁ ((hsame₁ _ (by decide)).trans hmaster)
    ((hsame₁ _ (by decide)).trans (hothers _ (by decide)))).bind ?_
  rintro slave s₂ h₂ ⟨hlog, hslave₉, fds₂, own₂, hs₂, hh₂, hslave₂, hmaster₂, hsame₂⟩
  have hnow₂ : Holds base s₂.fds own₂ := by rw [hs₂]; exact hh₂
  have hpipe₂ : own₂ .errorWriter = some (err, ⟨.errorWriter, true⟩) :=
    (hsame₂ _ (by decide) (by decide)).trans hpipe₁
  have hscript₂ : own₂ .scriptReader = a.scriptFd.map fun n => (n, ⟨.scriptReader, false⟩) :=
    ((hsame₂ _ (by decide) (by decide)).trans (hsame₁ _ (by decide))).trans hscript
  have hready₂ : own₂ .readyWriter = ready.map fun n => (n, ⟨.readyWriter, false⟩) :=
    (hsame₂ _ (by decide) (by decide)).trans hready₁
  have hothers₂ : ∀ r ∈ [Role.errorReader, .scriptWriter, .readyReader, .stdin, .stdout, .stderr],
      own₂ r = none := by
    intro r hr
    have hne : r ≠ .ptyMaster ∧ r ≠ .ptySlave ∧ r ≠ .readyWriter := by
      refine ⟨?_, ?_, ?_⟩ <;> rintro rfl <;> exact absurd hr (by decide)
    rw [hsame₂ r hne.1 hne.2.1, hsame₁ r hne.2.2]
    exact hothers r (by revert hr; cases r <;> decide)
  have hclear₂ : ∀ r n e, r ≠ .scriptReader → own₂ r = some (n, e) → n ≠ jobProcessScriptFd := by
    intro r n e hr hown
    cases r with
    | errorWriter =>
      rw [hpipe₂] at hown
      cases hown
      exact herr
    | readyWriter =>
      rw [hready₂] at hown
      obtain ⟨m, hm, heq⟩ := Option.map_eq_some_iff.mp hown
      cases heq
      exact hready₉ _ hm
    | ptyMaster => exact (hmaster₂ n e hown).1
    | ptySlave =>
      rw [hslave₂] at hown
      obtain ⟨m, hm, heq⟩ := Option.map_eq_some_iff.mp hown
      cases heq
      exact hslave₉ _ hm
    | scriptReader => exact absurd rfl hr
    | errorReader | scriptWriter | readyReader | stdin | stdout | stderr =>
      rw [hothers₂ _ (by decide)] at hown
      cases hown
  refine (moveScript_step h₂ hnow₂ hpipe₂ hscript₂ hclear₂).bind ?_
  rintro script s₃ h₃ ⟨hscript₃, fds₃, own₃, hs₃, hh₃, hread₃, hsame₃⟩
  have hstart : Step k a err (becomeLeader env) s₃ fun _ s' =>
    s' = { s₃ with leader := true, environ := env } := .modify h₃ rfl rfl rfl
  refine hstart.bind ?_
  rintro - s₄ h₄ hs₄
  have hrunning₄ : s₄.paused = false := by rw [hs₄, hs₃, hs₂]; exact hrunning₁
  have hnow₄ : Holds (if a.scriptFd.isSome then base.close jobProcessScriptFd else base) s₄.fds
      own₃ := by rw [hs₄, hs₃]; exact hh₃
  have hpipe₃ : own₃ .errorWriter = some (err, ⟨.errorWriter, true⟩) :=
    (hsame₃ _ (by decide)).trans hpipe₂
  have hothers₃ : ∀ r ∈ [Role.errorReader, .scriptWriter, .readyReader, .stdin, .stdout, .stderr],
      own₃ r = none := by
    intro r hr
    have hne : r ≠ .scriptReader := by rintro rfl; exact absurd hr (by decide)
    rw [hsame₃ r hne]
    exact hothers₂ r hr
  have hbase₃ : ∀ n < 3,
      (if a.scriptFd.isSome then base.close jobProcessScriptFd else base).get n ≠ none := by
    intro n hn
    split
    · rw [Table.close, Table.get_set_ne _ _ (by simp only [jobProcessScriptFd]; omega)]
      exact hbase n hn
    · exact hbase n hn
  refine (setUpConsole_step h₄ hrunning₄ ⟨hnow₄, clearOfStandard hnow₄ hbase₃,
    hothers₃ _ (by decide), hothers₃ _ (by decide), hothers₃ _ (by decide)⟩ hpipe₃).bind ?_
  rintro - s₅ h₅ ⟨file, hfile, fds₅, hs₅, hh₅⟩
  have hnow₅ : Holds (closeStandard
      (if a.scriptFd.isSome then base.close jobProcessScriptFd else base)) s₅.fds
      (withStandard file own₃) := by rw [hs₅]; exact hh₅
  have hslave₅ : withStandard file own₃ .ptySlave =
      slave.map fun n => (n, ⟨.ptySlave, false⟩) := (hsame₃ _ (by decide)).trans hslave₂
  refine (redirectOutput_step h₅ hnow₅ hpipe₃ hslave₅ rfl rfl).bind ?_
  rintro - s₆ h₆ ⟨fds₆, own₆, hs₆, hh₆, hout, herr₂, hslave₆, hsame₆⟩
  have hfds₆ : s₆.fds = fds₆ := by rw [hs₆]
  have hif : ∀ file' : File, (if slave.isSome then file' else file) =
      if a.console = .log then file' else file := fun file' => by simp only [hlog]
  have hread₆ : own₆ .scriptReader =
      a.scriptFd.map fun _ => (jobProcessScriptFd, ⟨.scriptReader, false⟩) := by
    refine (hsame₆ _ (by decide) (by decide) (by decide)).trans (hread₃.trans ?_)
    rw [hscript₃, Option.map_map]
    rfl
  have hready₆ : own₆ .readyWriter = ready.map fun n => (n, ⟨.readyWriter, false⟩) :=
    (hsame₆ _ (by decide) (by decide) (by decide)).trans
      ((hsame₃ _ (by decide)).trans hready₂)
  have hpipe₆ : own₆ .errorWriter = some (err, ⟨.errorWriter, true⟩) :=
    (hsame₆ _ (by decide) (by decide) (by decide)).trans hpipe₃
  have hothers₆ : ∀ r n e, own₆ r = some (n, e) →
      r ∈ [Role.stdin, .stdout, .stderr, .scriptReader, .readyWriter] ∨ e.cloexec = true := by
    intro r n e hown
    cases r with
    | stdin | stdout | stderr | scriptReader | readyWriter => exact .inl (by decide)
    | errorWriter =>
      rw [hpipe₆] at hown
      cases hown
      exact .inr rfl
    | ptyMaster =>
      rw [hsame₆ _ (by decide) (by decide) (by decide)] at hown
      exact .inr (hmaster₂ n e ((hsame₃ _ (by decide)).symm.trans hown)).2
    | ptySlave =>
      rw [hslave₆] at hown
      cases hown
    | errorReader | scriptWriter | readyReader =>
      rw [hsame₆ _ (by decide) (by decide) (by decide)] at hown
      cases (hothers₃ _ (by decide)).symm.trans hown
  refine .pure h₆ ⟨rfl, ⟨hscript₃, ?_, ?_, ?_, file, ready, hfile, henv, hsome, ?_⟩, ?_⟩
  · intro fd hfd
    obtain ⟨fd', hfd', heq⟩ := Option.map_eq_some_iff.mp (hscript₃.symm.trans hfd)
    rw [hfd'] at hread₆
    rw [hfds₆, ← heq, hh₆.held hread₆]
    exact Option.some_ne_none _
  · rw [hfds₆]
    exact hh₆.held hpipe₆
  · rw [hs₆, hs₅, hs₄]
  · rw [hfds₆]
    exact programFds_eq hh₆ (hsame₆ _ (by decide) (by decide) (by decide)) (by rw [hout, hif])
      (by rw [herr₂, hif]) hread₆ hready₆ hothers₆
  · exact ⟨s₆.calls, fds₆, by rw [hs₆, hs₅, hs₄, hs₃, hs₂, hs₁]⟩

/-- The descriptors before the settings are made. -/
theorem arrangeDescriptors_sat (hpassed : Passed k a s.calls) (hrunning : s.paused = false)
    (hh : Holds base s.fds own) (hg : Given a own) (hbase : ∀ n < 3, base.get n ≠ none) :
    Sat (arrangeDescriptors k a s) (fun x =>
      Ready k a x.1.err x.2 ∧ Arranged a base.exec x.1 x.2 ∧ ∃ calls fds,
        x.2 = { s with calls := calls, fds := fds, leader := true, environ := x.1.env })
      (Told k a) := by
  unfold arrangeDescriptors
  refine (keepErrorPipe_sat hpassed hrunning hh hg.errorReader hg.errorWriter).bindState ?_
  rintro err s₁ ⟨h₁, herr, fds₁, hs₁, hh₁⟩
  dsimp only at h₁ herr hs₁
  have hnow : Holds base s₁.fds (Function.update (Function.update own .errorReader none)
      .errorWriter (some (err, ⟨.errorWriter, true⟩))) := by rw [hs₁]; exact hh₁
  have hothers : ∀ r ∈ [Role.errorReader, .scriptWriter, .readyReader, .ptySlave, .stdin, .stdout,
      .stderr], Function.update (Function.update own .errorReader none) .errorWriter
        (some (err, ⟨.errorWriter, true⟩)) r = none := by
    intro r hr
    by_cases hreader : r = .errorReader
    · subst hreader
      rfl
    · have hwriter : r ≠ .errorWriter := by rintro rfl; exact absurd hr (by decide)
      rw [Function.update_of_ne hwriter, Function.update_of_ne hreader]
      exact hg.others r (by revert hr hreader; cases r <;> decide)
  have hstep : Step k a err (arrangeOthers k a err) s₁ _ :=
    arrangeOthers_step h₁ (by rw [hs₁]; exact hrunning) hnow hbase herr rfl
      hg.script hg.ready hg.master hothers
  refine (hstep s₁ rfl).imp ?_
  rintro ⟨p, s₂⟩ ⟨h₂, hp, harranged, calls, fds₂, hs₂⟩
  dsimp only at hp
  subst hp
  exact ⟨h₂, harranged, calls, fds₂, by rw [hs₂, hs₁]⟩

end Startup.Spawn
