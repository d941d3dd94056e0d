import Startup.Spawn.Arrangement
import Startup.Spawn.Parent

/-!
# The descriptors at the fork

What init opens for a process it hands to the child, or it is closed when a program is executed.

* `spawnWithFd_plain`, `spawnWithFd_logged`: what one attempt is.
* `Keeps`: what the attempts keep, until one of them forks.
* `spawnUntilForked_holds`: the induction over the attempts.
* `startProcess_leaves`: the child has what it is to have, and init has nothing more to leave to
  other programs than before.
-/

namespace Startup.Spawn

open Lib Lib.Descriptors ParseJob

variable {base t : Table File} {own : Own} {p : Parent} {attempt : Attempt} {readyfd : Option Nat}
  {d : Bool}

/-- The base may have lost the old log of the process. -/
structure Cleared (log : Option Nat) (base base' : Table File) : Prop where
  exec : base'.exec = base.exec
  others : ∀ n, log ≠ some n → base'.get n = base.get n

theorem Cleared.refl (log : Option Nat) (base : Table File) : Cleared log base base :=
  ⟨rfl, fun _ _ => rfl⟩

theorem Cleared.trans {log log' : Option Nat} {base base' base'' : Table File}
    (h : Cleared log base base') (h' : Cleared log' base' base'')
    (hlog : log' = log ∨ log' = none) :
    Cleared log base base'' where
  exec := h'.exec.trans h.exec
  others := by
    intro n hn
    refine (h'.others n ?_).trans (h.others n hn)
    rcases hlog with rfl | rfl
    · exact hn
    · nofun

/-- The log of the process, if it has one, is open in the base, and not for other programs. -/
def LogIn (base : Table File) (log : Option Nat) : Prop :=
  ∀ fd, log = some fd → ∃ e, base.get fd = some e ∧ e.cloexec = true

/-- The old log is closed. -/
theorem closeLog_holds {log : Option Nat} (h : Holds base t own) (hlog : LogIn base log) :
    ∃ base', Cleared log base base' ∧ Holds base' (t.closeIf log) own := by
  cases log with
  | none => exact ⟨base, .refl _ _, h⟩
  | some fd =>
    obtain ⟨e, hget, he⟩ := hlog fd rfl
    have hnot : ∀ r e', own r ≠ some (fd, e') := by
      intro r e' hown
      rw [h.free hown] at hget
      cases hget
    refine ⟨base.close fd, ⟨base.exec_close_cloexec hget he, fun n hn => ?_⟩, h.closeBase hnot⟩
    exact Table.get_set_ne _ _ fun heq => hn (congrArg some heq.symm)

/-! ## One attempt -/

/-- The output of a process is logged. -/
def Parent.logs (disableJobLogging : Bool) (p : Parent) : Bool :=
  p.console = .log && !disableJobLogging

theorem logs_iff : p.logs d = true ↔ p.console = .log ∧ d = false := by
  simp [Parent.logs]

/-- Where the output is not logged, the attempt is its pipe and its fork. -/
theorem spawnWithFd_plain (readyfd : Option Nat) (hpiped : attempt.piped = true)
    (hlogs : p.logs d = false) :
    ∃ console, console ≠ .log ∧
      spawnWithFd d readyfd p attempt =
        forkChild readyfd ⟨(p.table.pipe .errorReader .errorWriter).1, console, p.log⟩ attempt
          (p.table.pipe .errorReader .errorWriter).2.1
          (p.table.pipe .errorReader .errorWriter).2.2 none := by
  have hnot : (if p.console = .log ∧ d = true then ConsoleType.none else p.console) ≠ .log := by
    split
    · nofun
    · rename_i h
      intro hlog
      have hd : d = false := by simpa [hlog] using h
      rw [logs_iff.mpr ⟨hlog, hd⟩] at hlogs
      cases hlogs
  refine ⟨_, hnot, ?_⟩
  rw [spawnWithFd, if_pos hpiped]
  dsimp only
  rw [if_neg hnot]

/-- Where it is logged, there is the terminal in between. -/
theorem spawnWithFd_logged (readyfd : Option Nat) (hpiped : attempt.piped = true)
    (hlogs : p.logs d = true) :
    let pipe := p.table.pipe .errorReader .errorWriter
    let r := openMaster ⟨pipe.1, .log, p.log⟩ attempt
    spawnWithFd d readyfd p attempt =
      r.2.elim ({ r.1 with table := (r.1.table.close pipe.2.1).close pipe.2.2 }, none)
        fun master => forkChild readyfd r.1 attempt pipe.2.1 pipe.2.2 (some master) := by
  obtain ⟨hconsole, rfl⟩ := logs_iff.mp hlogs
  have hkept : (if p.console = .log ∧ false = true then ConsoleType.none else p.console) =
      .log := by
    rw [if_neg (by simp), hconsole]
  dsimp only
  rw [spawnWithFd, if_pos hpiped]
  dsimp only
  rw [hkept, if_pos rfl]
  split
  · rename_i h
    rw [h]
    rfl
  · rename_i h
    rw [h]
    rfl

/-- The master of the terminal is new, and it is the log of the process. -/
theorem openMaster_holds (attempt : Attempt) (h : Holds base p.table own)
    (hmaster : own .ptyMaster = none) (hlog : LogIn base p.log) :
    ∃ base', Cleared p.log base base' ∧
      Holds base' (openMaster p attempt).1.table
        (Function.update own .ptyMaster
          ((openMaster p attempt).2.map fun n => (n, ⟨.ptyMaster, true⟩))) ∧
      (openMaster p attempt).1.log = (openMaster p attempt).2 ∧
      ((openMaster p attempt).2.isSome → (openMaster p attempt).1.console = p.console) := by
  obtain ⟨base', hcleared, hh⟩ := closeLog_holds h hlog
  have hnone : Function.update own .ptyMaster none = own :=
    Function.update_eq_self_iff.mpr hmaster.symm
  refine ⟨base', hcleared, ?_⟩
  unfold openMaster
  dsimp only
  split
  · have hopened := hh.alloc hmaster ⟨.ptyMaster, true⟩
    split
    · exact ⟨hopened, rfl, fun _ => rfl⟩
    · have hclosed := hopened.close (Function.update_self ..)
      rw [Function.update_idem] at hclosed
      exact ⟨hclosed, rfl, nofun⟩
  · refine ⟨?_, rfl, nofun⟩
    rw [Option.map_none, hnone]
    exact hh

/-- Between two attempts: the table has only what the process needs beside the base, which has the
old log. -/
structure Keeps (base : Table File) (own : Own) (p : Parent) : Prop where
  holds : Holds base p.table own
  fresh : ∀ r ∈ [Role.errorReader, .errorWriter, .ptyMaster], own r = none
  log : LogIn base p.log

/-- What a fork leaves: the child with its roles, and init, which has closed those of the child. -/
structure ForkLeaves (base : Table File) (own : Own) (log : Option Nat) (f : Forked) : Prop where
  child : ∃ own', Holds base f.child own' ∧
    own' .errorReader = some (f.errorReader, ⟨.errorReader, false⟩) ∧
    own' .errorWriter = some (f.errorWriter, ⟨.errorWriter, false⟩) ∧
    own' .ptyMaster = (if f.parent.console = .log then some (f.ptyMaster, ⟨.ptyMaster, true⟩)
      else none) ∧
    ∀ r, r ∉ [Role.errorReader, .errorWriter, .ptyMaster] → own' r = own r
  parent : ∃ own', Holds base f.parent.table own' ∧
    (∀ r ∈ [Role.errorReader, .errorWriter, .ptyMaster, .readyWriter], ∀ n e,
      own' r = some (n, e) → e.cloexec = true) ∧
    (∀ r, r ∉ [Role.errorReader, .errorWriter, .ptyMaster, .readyWriter] → own' r = own r) ∧
    ∀ fd, f.parent.log = some fd →
      log = some fd ∧ (∃ e, base.get fd = some e ∧ e.cloexec = true) ∨
        own' .ptyMaster = some (fd, ⟨.ptyMaster, true⟩)

/-- The roles that an attempt adds. -/
def attempted (own : Own) (reader writer : Nat) (master : Option Nat) : Own :=
  Function.update (Function.update (Function.update own
    .errorReader (some (reader, ⟨.errorReader, false⟩)))
    .errorWriter (some (writer, ⟨.errorWriter, false⟩)))
    .ptyMaster (master.map fun n => (n, ⟨.ptyMaster, true⟩))

theorem attempted_of_not_mem {r : Role} (reader writer : Nat) (master : Option Nat)
    (hr : r ∉ [Role.errorReader, .errorWriter, .ptyMaster]) :
    attempted own reader writer master r = own r := by
  cases r <;> first | rfl | exact absurd (by decide) hr

theorem forkChild_forked {reader writer : Nat} {master log : Option Nat} {f : Forked}
    (hh : Holds base p.table (attempted own reader writer master))
    (hready : own .readyWriter = readyfd.map fun n => (n, ⟨.readyWriter, false⟩))
    (hconsole : p.console = .log ↔ master.isSome)
    (hlog : ∀ fd, p.log = some fd →
      log = some fd ∧ (∃ e, base.get fd = some e ∧ e.cloexec = true) ∨ master = some fd)
    (h : (forkChild readyfd p attempt reader writer master).2 = some f) :
    ForkLeaves base own log f := by
  unfold forkChild at h
  split at h
  · cases h
    refine ⟨⟨_, hh, rfl, rfl, ?_, fun r => attempted_of_not_mem reader writer master⟩, ?_⟩
    · show master.map _ = if p.console = .log then _ else none
      cases master with
      | none => rw [if_neg (by simp [hconsole])]; rfl
      | some m => rw [if_pos (by simp [hconsole])]; rfl
    · have hclosed := hh.close (r := .errorWriter) rfl
      have hset := hclosed.setCloexec (r := .errorReader) (b := true) rfl
      refine ⟨_, hset.closeIf (r := Role.readyWriter) hready, ?_, ?_, ?_⟩
      · intro r hr n e hown
        cases r with
        | errorReader =>
          cases hown
          rfl
        | errorWriter | readyWriter => cases hown
        | ptyMaster =>
          obtain ⟨m, -, heq⟩ := Option.map_eq_some_iff.mp hown
          cases heq
          rfl
        | _ => exact absurd hr (by decide)
      · intro r hr
        cases r <;> first | rfl | exact absurd (by decide) hr
      · intro fd hfd
        refine (hlog fd hfd).imp_right fun hfd' => ?_
        show master.map _ = _
        rw [hfd']
        rfl
  · cases h

/-- Where nothing has been forked, all that is new is closed. -/
theorem attempted_closed {reader writer : Nat} {master : Option Nat}
    (h : Holds base t (attempted own reader writer master))
    (hfresh : ∀ r ∈ [Role.errorReader, .errorWriter, .ptyMaster], own r = none) :
    Holds base (((t.close reader).close writer).closeIf master) own := by
  have hclosed : Holds base (((t.close reader).close writer).closeIf master) _ :=
    ((h.close (r := .errorReader) rfl).close (r := .errorWriter) rfl).closeIf
      (r := .ptyMaster) (e := ⟨.ptyMaster, true⟩) rfl
  have hsame : Function.update (Function.update (Function.update
      (attempted own reader writer master) .errorReader none) .errorWriter none) .ptyMaster none =
      own := by
    funext r
    cases r <;> first | rfl | exact (hfresh _ (by decide)).symm
  rwa [hsame] at hclosed

/-- A fork that fails leaves nothing. -/
theorem forkChild_failed {reader writer : Nat} {master : Option Nat}
    (hh : Holds base p.table (attempted own reader writer master))
    (hfresh : ∀ r ∈ [Role.errorReader, .errorWriter, .ptyMaster], own r = none)
    (hfork : readyfd = none ∨ attempt.forked = true)
    (h : (forkChild readyfd p attempt reader writer master).2 = none) :
    Holds base (forkChild readyfd p attempt reader writer master).1.table own ∧
      (forkChild readyfd p attempt reader writer master).1.log =
        if master.isSome then none else p.log := by
  unfold forkChild at h ⊢
  split at h
  · cases h
  · rename_i hforked
    obtain rfl := hfork.resolve_right hforked
    rw [if_neg hforked]
    exact ⟨attempted_closed hh hfresh, rfl⟩

/-- One attempt. -/
theorem spawnWithFd_holds (d : Bool) (attempt : Attempt) (hk : Keeps base own p)
    (hready : own .readyWriter = readyfd.map fun n => (n, ⟨.readyWriter, false⟩))
    (hfork : readyfd = none ∨ attempt.forked = true) :
    ∃ base', Cleared p.log base base' ∧
      ((spawnWithFd d readyfd p attempt).2 = none →
        Keeps base' own (spawnWithFd d readyfd p attempt).1 ∧
          ((spawnWithFd d readyfd p attempt).1.log = p.log ∨
            (spawnWithFd d readyfd p attempt).1.log = none)) ∧
      ∀ f, (spawnWithFd d readyfd p attempt).2 = some f → ForkLeaves base' own p.log f := by
  cases hpiped : attempt.piped with
  | false =>
    rw [spawnWithFd, if_neg (by simp [hpiped])]
    exact ⟨base, .refl _ _, fun _ => ⟨hk, .inl rfl⟩, by rintro _ ⟨⟩⟩
  | true =>
    have hpipe := hk.holds.pipe (r := .errorReader) (w := .errorWriter) (hk.fresh _ (by decide))
      (hk.fresh _ (by decide)) (by decide) .errorReader .errorWriter
    cases hlogs : p.logs d with
    | true =>
      rw [spawnWithFd_logged readyfd hpiped hlogs]
      generalize p.table.pipe .errorReader .errorWriter = pipe at hpipe
      obtain ⟨t, reader, writer⟩ := pipe
      dsimp only at hpipe ⊢
      obtain ⟨base', hcleared, hh, hlog, hconsole⟩ := openMaster_holds (p := ⟨t, .log, p.log⟩)
        attempt hpipe (hk.fresh _ (by decide)) hk.log
      generalize openMaster ⟨t, .log, p.log⟩ attempt = r at hh hlog hconsole ⊢
      obtain ⟨p', master⟩ := r
      dsimp only at hh hlog hconsole ⊢
      refine ⟨base', hcleared, ?_⟩
      cases master with
      | none =>
        refine ⟨fun _ => ⟨⟨attempted_closed hh hk.fresh, hk.fresh, ?_⟩, .inr hlog⟩,
          by rintro _ ⟨⟩⟩
        rw [LogIn, hlog]
        rintro _ ⟨⟩
      | some master =>
        refine ⟨fun hnone => ?_, fun f hf => ?_⟩
        · obtain ⟨hh', hlog'⟩ := forkChild_failed hh hk.fresh hfork hnone
          have hlog'' := hlog'.trans (if_pos rfl)
          refine ⟨⟨hh', hk.fresh, ?_⟩, .inr hlog''⟩
          rw [LogIn, Option.elim_some, hlog'']
          rintro _ ⟨⟩
        · refine forkChild_forked hh hready (iff_of_true (hconsole rfl) rfl) ?_ hf
          intro fd hfd
          exact .inr (hlog.symm.trans hfd)
    | false =>
      obtain ⟨console, hnot, heq⟩ := spawnWithFd_plain readyfd hpiped hlogs
      rw [heq]
      generalize p.table.pipe .errorReader .errorWriter = pipe at hpipe
      obtain ⟨t, reader, writer⟩ := pipe
      dsimp only at hpipe ⊢
      have hh : Holds base t (attempted own reader writer none) := by
        rw [attempted, Option.map_none, Function.update_eq_self_iff.mpr]
        · exact hpipe
        · exact (hk.fresh .ptyMaster (by decide)).symm
      refine ⟨base, .refl _ _, fun hnone => ?_, fun f hf => ?_⟩
      · obtain ⟨hh', hlog'⟩ := forkChild_failed (p := ⟨t, console, p.log⟩) hh hk.fresh hfork hnone
        exact ⟨⟨hh', hk.fresh, by rw [LogIn, hlog']; exact hk.log⟩, .inl hlog'⟩
      · exact forkChild_forked (p := ⟨t, console, p.log⟩) hh hready (iff_of_false hnot (by decide))
          (fun fd hfd => .inl ⟨hfd, hk.log fd hfd⟩) hf

/-- The attempts, until one forks; with a pipe for the readiness the first that comes to its fork
does. -/
theorem spawnUntilForked_holds {attempts : List Attempt} {f : Forked} (hk : Keeps base own p)
    (hready : own .readyWriter = readyfd.map fun n => (n, ⟨.readyWriter, false⟩))
    (hfork : readyfd = none ∨ ∀ attempt ∈ attempts, attempt.forked = true)
    (h : spawnUntilForked d readyfd p attempts = some f) :
    ∃ base', Cleared p.log base base' ∧ ForkLeaves base' own p.log f := by
  induction attempts generalizing p base with
  | nil => cases h
  | cons attempt attempts ih =>
    obtain ⟨base', hcleared, hfailed, hforked⟩ := spawnWithFd_holds d attempt hk hready
      (hfork.imp_right fun h => h attempt List.mem_cons_self)
    rw [spawnUntilForked] at h
    cases hr : (spawnWithFd d readyfd p attempt).2 with
    | some f' =>
      rw [hr] at h
      cases h
      exact ⟨base', hcleared, hforked f hr⟩
    | none =>
      rw [hr] at h
      obtain ⟨hk', hlog⟩ := hfailed hr
      obtain ⟨base'', hcleared', hleaves⟩ := ih hk'
        (hfork.imp_right fun h x hx => h x (List.mem_cons_of_mem _ hx)) h
      refine ⟨base'', hcleared.trans hcleared' hlog, hleaves.child, ?_⟩
      obtain ⟨own', hh, hcloexec, hsame, hmaster⟩ := hleaves.parent
      refine ⟨own', hh, hcloexec, hsame, fun fd hfd => (hmaster fd hfd).imp_left fun hold => ?_⟩
      obtain ⟨hfd', hopen⟩ := hold
      refine ⟨?_, hopen⟩
      rcases hlog with heq | heq
      · rwa [← heq]
      · rw [heq] at hfd'
        cases hfd'

/-! ## The whole start -/

/-- The pipe for the script, or the one for the readiness, if it is needed: the end that is not the
child's is closed when a program is executed. -/
theorem pipeIf_holds (needed mine : Bool) {r w : Role} (h : Holds base t own) (hr : own r = none)
    (hw : own w = none) (hne : w ≠ r) (reading writing : File) :
    Holds base (pipeIf needed t reading writing mine).1
      (Function.update (Function.update own
        r ((pipeIf needed t reading writing mine).2.map fun n => (n.1, ⟨reading, mine⟩)))
        w ((pipeIf needed t reading writing mine).2.map fun n => (n.2, ⟨writing, !mine⟩))) := by
  unfold pipeIf
  split
  · have hpipe := h.pipe hr hw hne reading writing
    dsimp only
    generalize t.pipe reading writing = pipe at hpipe ⊢
    obtain ⟨t', rn, wn⟩ := pipe
    cases mine with
    | false =>
      have hset := hpipe.setCloexec (Function.update_self ..) true
      rwa [Function.update_idem] at hset
    | true =>
      have hset := hpipe.setCloexec (r := r) (b := true)
        ((Function.update_of_ne hne.symm _ _).trans (Function.update_self ..))
      rwa [Function.update_comm hne, Function.update_idem] at hset
  · have hnone : Function.update own r none = own := Function.update_eq_self_iff.mpr hr.symm
    rw [Option.map_none, Option.map_none, hnone, Function.update_eq_self_iff.mpr hw.symm]
    exact h

/-- The pipes that a process is given; the other ends are init's. -/
theorem openPipes_holds (script ready : Bool) (t : Table File) :
    ∃ base own, base.exec = t.exec ∧ (∀ n, t.get n ≠ none → base.get n = t.get n) ∧
      Holds base (openPipes script ready t).table own ∧
      own .scriptReader =
        (openPipes script ready t).scriptFd.map (fun n => (n, ⟨.scriptReader, false⟩)) ∧
      own .readyWriter =
        (openPipes script ready t).readyfd.map (fun n => (n, ⟨.readyWriter, false⟩)) ∧
      ∀ r, r ∉ [Role.scriptReader, .readyWriter] → own r = none := by
  have hs := pipeIf_holds script false (r := Role.scriptReader) (w := .scriptWriter) (Holds.none t)
    rfl rfl (by decide) .scriptReader .scriptWriter
  have hr := pipeIf_holds ready true (r := .readyReader) (w := .readyWriter) hs rfl rfl (by decide)
    .readyReader .readyWriter
  obtain ⟨base, hexec, hopen, hh⟩ := hr.leave (r := .scriptWriter) (by
    intro n e hown
    obtain ⟨m, -, heq⟩ := Option.map_eq_some_iff.mp hown
    cases heq
    rfl)
  obtain ⟨base', hexec', hopen', hh'⟩ := hh.leave (r := .readyReader) (by
    intro n e hown
    obtain ⟨m, -, heq⟩ := Option.map_eq_some_iff.mp hown
    cases heq
    rfl)
  refine ⟨base', _, hexec'.trans hexec, fun n hn => ?_, hh', ?_, ?_, ?_⟩
  · have hbase := hopen n hn
    exact (hopen' n (hbase ▸ hn)).trans hbase
  · show _ = Option.map _ (Option.map Prod.fst _)
    rw [Option.map_map]
    rfl
  · show _ = Option.map _ (Option.map Prod.snd _)
    rw [Option.map_map]
    rfl
  · intro r hr
    cases r <;> first | rfl | exact absurd (by decide) hr

/-- What a start leaves: the child with the descriptors that it is given, and init as it was, but
for descriptors that are closed when a program is executed. -/
structure StartLeaves (p : Parent) (parent : Parent) (pipes : Pipes) (f : Forked) : Prop where
  child : ∃ base own, base.exec = p.table.exec ∧ Holds base f.child own ∧
    own .errorReader = some (f.errorReader, ⟨.errorReader, false⟩) ∧
    own .errorWriter = some (f.errorWriter, ⟨.errorWriter, false⟩) ∧
    own .scriptReader = pipes.scriptFd.map (fun n => (n, ⟨.scriptReader, false⟩)) ∧
    own .readyWriter = pipes.readyfd.map (fun n => (n, ⟨.readyWriter, false⟩)) ∧
    own .ptyMaster = (if parent.console = .log then some (f.ptyMaster, ⟨.ptyMaster, true⟩)
      else none) ∧
    ∀ r ∈ [Role.scriptWriter, .readyReader, .ptySlave, .stdin, .stdout, .stderr], own r = none
  console : f.parent.console = parent.console
  exec : parent.table.exec = p.table.exec
  others : ∀ n, p.log ≠ some n → p.table.get n ≠ none → parent.table.get n = p.table.get n
  log : LogIn parent.table parent.log
  logNew : ∀ n, parent.log = some n → p.log = some n ∨ p.table.get n = none

theorem startProcess_leaves {script ready : Bool} {attempts : List Attempt} {parent : Parent}
    {pipes : Pipes} {f : Forked} (hlog : LogIn p.table p.log)
    (hfork : ready = true → ∀ attempt ∈ attempts, attempt.forked = true)
    (h : startProcess d script ready p attempts = some (parent, pipes, f)) :
    StartLeaves p parent pipes f := by
  unfold startProcess at h
  obtain ⟨f', hf, heq⟩ := Option.map_eq_some_iff.mp h
  cases heq
  obtain ⟨base, own, hexec, hopen, hh, hscript, hready, hnone⟩ :=
    openPipes_holds script ready p.table
  have hk : Keeps base own { p with table := (openPipes script ready p.table).table } := by
    refine ⟨hh, fun r hr => hnone r ?_, fun fd hfd => ?_⟩
    · revert hr
      cases r <;> decide
    · obtain ⟨e, hget, he⟩ := hlog fd hfd
      exact ⟨e, (hopen fd (by rw [hget]; nofun)).trans hget, he⟩
  have hfork' : (openPipes script ready p.table).readyfd = none ∨
      ∀ attempt ∈ attempts, attempt.forked = true := by
    cases ready with
    | false => exact .inl rfl
    | true => exact .inr (hfork rfl)
  obtain ⟨base', hcleared, hleaves⟩ := spawnUntilForked_holds hk hready hfork' hf
  have hbase : ∀ n, p.log ≠ some n → p.table.get n ≠ none → base'.get n = p.table.get n :=
    fun n hn hget => (hcleared.others n hn).trans (hopen n hget)
  obtain ⟨own₂, hh₂, hcloexec, hsame₂, hlog₂⟩ := hleaves.parent
  have hclosed := hh₂.closeIf (r := Role.scriptReader)
    ((hsame₂ .scriptReader (by decide)).trans hscript)
  have hgone : ∀ r n e, Function.update own₂ .scriptReader none r = some (n, e) →
      e.cloexec = true := by
    intro r n e hown
    by_cases hr : r ∈ [Role.errorReader, .errorWriter, .ptyMaster, .readyWriter]
    · refine hcloexec r hr n e ?_
      rwa [Function.update_of_ne] at hown
      rintro rfl
      exact absurd hr (by decide)
    · by_cases hscript : r = .scriptReader
      · subst hscript
        cases hown
      · rw [Function.update_of_ne hscript, hsame₂ r hr, hnone r] at hown
        · cases hown
        · revert hr hscript
          cases r <;> decide
  refine ⟨?_, rfl, ?_, ?_, ?_, ?_⟩
  · obtain ⟨own₁, hh₁, hreader, hwriter, hmaster, hsame₁⟩ := hleaves.child
    refine ⟨base', own₁, hcleared.exec.trans hexec, hh₁, hreader, hwriter,
      (hsame₁ _ (by decide)).trans hscript, (hsame₁ _ (by decide)).trans hready, hmaster, ?_⟩
    intro r hr
    refine (hsame₁ r ?_).trans (hnone r ?_) <;> revert hr <;> cases r <;> decide
  · exact (hclosed.exec_eq hgone).trans (hcleared.exec.trans hexec)
  · intro n hn hget
    have hkept := hbase n hn hget
    exact (hclosed.get_of_base (hkept ▸ hget)).trans hkept
  · intro fd hfd
    rcases hlog₂ fd hfd with ⟨-, e, hget, he⟩ | hmaster
    · exact ⟨e, (hclosed.get_of_base (by rw [hget]; nofun)).trans hget, he⟩
    · exact ⟨_, hclosed.held (r := .ptyMaster) hmaster, rfl⟩
  · intro fd hfd
    rcases hlog₂ fd hfd with ⟨hold, -⟩ | hmaster
    · exact .inl hold
    · refine or_iff_not_imp_left.mpr fun hn => ?_
      by_contra hget
      exact hget ((hbase fd hn hget).symm.trans (hh₂.free hmaster))

end Startup.Spawn
