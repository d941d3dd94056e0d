import Startup.Spawn.Runs

/-!
# Forks that are tried again (`init/job_process.c`)

`job_process_start` repeats `job_process_spawn_with_fd` until it forks, with the same number for
the pipe of the readiness.  A fork that fails closes that number.

* `firstForks`: the first attempt that comes to its fork forks.
* `reached_readyfd`: exactly then the child has the pipe at the number that it is told; otherwise,
  where the output is not logged, the number is that of the error pipe, whose reading end init then
  closes too.
-/

namespace Startup.Spawn

open Lib Lib.Descriptors ParseJob

variable {p : Parent} {attempt : Attempt} {n : Nat} {readyfd : Option Nat} {d : Bool} {f : Forked}

/-- An attempt comes to its fork, for a process whose output is logged or not. -/
def Attempt.reaches (logged : Bool) (attempt : Attempt) : Bool :=
  attempt.piped && (!logged || attempt.opened && attempt.logged)

/-- The first attempt that comes to its fork forks.  The output is not logged any more when there
was no terminal for it. -/
def firstForks (logged : Bool) : List Attempt → Bool
  | [] => false
  | attempt :: attempts =>
    if attempt.reaches logged then attempt.forked
    else firstForks (logged && (!attempt.piped || attempt.opened)) attempts

/-! ## One attempt -/

/-- What comes before the fork leaves alone what is open, but for the old log. -/
theorem spawnWithFd_reaches (readyfd : Option Nat) (hopen : p.table.get n ≠ none)
    (hlog : p.log ≠ some n) (hreach : attempt.reaches (p.logs d) = true) :
    ∃ q reader writer master, spawnWithFd d readyfd p attempt =
      forkChild readyfd q attempt reader writer master ∧ q.table.get n = p.table.get n := by
  rw [Attempt.reaches, Bool.and_eq_true] at hreach
  obtain ⟨hpiped, hreach⟩ := hreach
  obtain ⟨hpipe, -, -⟩ := p.table.get_pipe_of_open .errorReader .errorWriter hopen
  cases hlogs : p.logs d with
  | false =>
    obtain ⟨console, -, heq⟩ := spawnWithFd_plain readyfd hpiped hlogs
    exact ⟨_, _, _, _, heq, hpipe⟩
  | true =>
    rw [hlogs, Bool.not_true, Bool.false_or, Bool.and_eq_true] at hreach
    obtain ⟨hopened, hlogged⟩ := hreach
    have hclosed := (Table.get_closeIf_ne _ hlog).trans hpipe
    have hmaster := (Table.get_alloc_of_open _ ⟨.ptyMaster, true⟩ (hclosed ▸ hopen)).trans hclosed
    have heq := spawnWithFd_logged readyfd hpiped hlogs
    unfold openMaster at heq
    dsimp only at heq
    rw [if_pos hopened, if_pos hlogged] at heq
    exact ⟨_, _, _, _, heq, hmaster⟩

/-- An attempt that does not come to its fork leaves alone what was open. -/
theorem spawnWithFd_early (readyfd : Option Nat) (hopen : p.table.get n ≠ none)
    (hlog : p.log ≠ some n) (hearly : attempt.reaches (p.logs d) = false) :
    (spawnWithFd d readyfd p attempt).2 = none ∧
      (spawnWithFd d readyfd p attempt).1.table.get n = p.table.get n ∧
      (spawnWithFd d readyfd p attempt).1.log ≠ some n ∧
      (spawnWithFd d readyfd p attempt).1.logs d =
        (p.logs d && (!attempt.piped || attempt.opened)) := by
  cases hpiped : attempt.piped with
  | false =>
    rw [spawnWithFd, if_neg (by simp [hpiped])]
    exact ⟨rfl, rfl, hlog, by simp⟩
  | true =>
    have hlogs : p.logs d = true := by
      by_contra hnot
      rw [Attempt.reaches, hpiped, Bool.eq_false_iff.mpr hnot] at hearly
      cases hearly
    obtain ⟨hpipe, hreader, hwriter⟩ :=
      p.table.get_pipe_of_open .errorReader .errorWriter hopen
    have hclosed := (Table.get_closeIf_ne _ hlog).trans hpipe
    rw [spawnWithFd_logged readyfd hpiped hlogs, hlogs]
    unfold openMaster
    dsimp only
    cases hopened : attempt.opened with
    | false =>
      rw [if_neg (by simp)]
      refine ⟨rfl, ?_, (Option.some_ne_none n).symm, by simp [Parent.logs]⟩
      exact ((Table.get_close_ne _ hwriter.symm).trans
        (Table.get_close_ne _ hreader.symm)).trans hclosed
    | true =>
      have hlogged : attempt.logged = false := by
        simpa [Attempt.reaches, hpiped, hlogs, hopened] using hearly
      rw [if_pos rfl, if_neg (by simp [hlogged])]
      refine ⟨rfl, ?_, (Option.some_ne_none n).symm, ?_⟩
      · refine ((Table.get_close_ne _ hwriter.symm).trans
          (Table.get_close_ne _ hreader.symm)).trans ?_
        show (((Table.closeIf _ _).alloc _).1.close ((Table.closeIf _ _).alloc _).2).get n = _
        rw [Table.alloc_close]
        exact hclosed
      · simp [Parent.logs, (logs_iff.mp hlogs).2]

/-! ## The attempts -/

/-- The number is not that of the pipe of the readiness. -/
def Stale (n : Nat) (t : Table File) : Prop := ∀ c, t.get n ≠ some ⟨.readyWriter, c⟩

namespace Stale

variable {t : Table File} {fd : Nat}

theorem set (h : Stale n t) {e : Option (Entry File)} (he : ∀ c, e ≠ some ⟨.readyWriter, c⟩) :
    Stale n (t.set fd e) := by
  intro c
  rw [Table.get_set]
  split
  · exact he c
  · exact h c

theorem close (h : Stale n t) (fd : Nat) : Stale n (t.close fd) := h.set nofun

theorem closeIf (h : Stale n t) : ∀ fd, Stale n (t.closeIf fd)
  | none => h
  | some fd => h.close fd

theorem pipe (h : Stale n t) : Stale n (t.pipe .errorReader .errorWriter).1 :=
  (h.set (by rintro c ⟨⟩)).set (by rintro c ⟨⟩)

theorem openMaster (h : Stale n p.table) (attempt : Attempt) :
    Stale n (openMaster p attempt).1.table := by
  unfold Spawn.openMaster
  dsimp only
  split
  · have halloc : Stale n ((p.table.closeIf p.log).alloc ⟨.ptyMaster, true⟩).1 :=
      (h.closeIf p.log).set (by rintro c ⟨⟩)
    split
    · exact halloc
    · exact halloc.close _
  · exact h.closeIf p.log

theorem forkChild (h : Stale n p.table) (attempt : Attempt) (readyfd : Option Nat)
    (reader writer : Nat) (master : Option Nat) :
    let r := forkChild readyfd p attempt reader writer master
    (r.2 = none → Stale n r.1.table) ∧ ∀ f, r.2 = some f → Stale n f.child := by
  unfold Spawn.forkChild
  dsimp only
  split
  · refine ⟨nofun, ?_⟩
    rintro _ ⟨⟩
    exact h
  · exact ⟨fun _ => (((h.close reader).close writer).closeIf readyfd).closeIf master, nofun⟩

/-- Nothing that is opened for a process is the pipe of its readiness. -/
theorem spawnWithFd (h : Stale n p.table) (attempt : Attempt) (readyfd : Option Nat) (d : Bool) :
    let r := spawnWithFd d readyfd p attempt
    (r.2 = none → Stale n r.1.table) ∧ ∀ f, r.2 = some f → Stale n f.child := by
  cases hpiped : attempt.piped with
  | false =>
    rw [Spawn.spawnWithFd, if_neg (by simp [hpiped])]
    exact ⟨fun _ => h, by rintro _ ⟨⟩⟩
  | true =>
    cases hlogs : p.logs d with
    | false =>
      obtain ⟨console, -, heq⟩ := spawnWithFd_plain readyfd hpiped hlogs
      rw [heq]
      exact forkChild h.pipe attempt readyfd _ _ none
    | true =>
      rw [spawnWithFd_logged readyfd hpiped hlogs]
      have hopened := openMaster (p := ⟨_, .log, p.log⟩) h.pipe attempt
      generalize Spawn.openMaster _ attempt = r at hopened ⊢
      obtain ⟨q, master⟩ := r
      cases master with
      | none => exact ⟨fun _ => (hopened.close _).close _, by rintro _ ⟨⟩⟩
      | some master => exact forkChild hopened attempt readyfd _ _ (some master)

theorem spawnUntilForked {attempts : List Attempt} (h : Stale n p.table)
    (hrun : spawnUntilForked d readyfd p attempts = some f) : Stale n f.child := by
  induction attempts generalizing p with
  | nil => cases hrun
  | cons attempt attempts ih =>
    obtain ⟨hfailed, hforked⟩ := h.spawnWithFd attempt readyfd d
    rw [Spawn.spawnUntilForked] at hrun
    cases hr : (Spawn.spawnWithFd d readyfd p attempt).2 with
    | none =>
      rw [hr] at hrun
      exact ih (hfailed hr) hrun
    | some f' =>
      rw [hr] at hrun
      cases hrun
      exact hforked f hr

end Stale

/-- The child has the pipe of the readiness exactly if the first fork did not fail. -/
theorem spawnUntilForked_readyfd {attempts : List Attempt}
    (hn : p.table.get n = some ⟨.readyWriter, false⟩) (hlog : p.log ≠ some n)
    (hrun : spawnUntilForked d (some n) p attempts = some f) :
    f.child.get n = some ⟨.readyWriter, false⟩ ↔ firstForks (p.logs d) attempts = true := by
  induction attempts generalizing p with
  | nil => cases hrun
  | cons attempt attempts ih =>
    have hopen : p.table.get n ≠ none := by
      rw [hn]
      exact Option.some_ne_none _
    rw [spawnUntilForked] at hrun
    rw [firstForks]
    cases hreach : attempt.reaches (p.logs d) with
    | false =>
      rw [if_neg (by simp)]
      obtain ⟨hnone, hget, hlog', hlogs⟩ := spawnWithFd_early (some n) hopen hlog hreach
      rw [hnone] at hrun
      rw [← hlogs]
      exact ih (hget.trans hn) hlog' hrun
    | true =>
      rw [if_pos rfl]
      obtain ⟨q, reader, writer, master, heq, hget⟩ :=
        spawnWithFd_reaches (some n) hopen hlog hreach
      rw [heq, forkChild] at hrun
      cases hforked : attempt.forked with
      | true =>
        rw [if_pos hforked] at hrun
        cases hrun
        exact iff_of_true (hget.trans hn) rfl
      | false =>
        rw [if_neg (by simp [hforked])] at hrun
        refine iff_of_false (fun hkept => ?_) Bool.false_ne_true
        refine Stale.spawnUntilForked (n := n) (Stale.closeIf ?_ master) hrun false hkept
        intro c
        rw [Table.closeIf, Table.close, Table.get_set_self]
        exact (Option.some_ne_none _).symm

/-- A fork that fails leaves the table without the pipe of the readiness. -/
theorem spawnWithFd_failed (readyfd : Option Nat) (hlogs : p.logs d = false)
    (hpiped : attempt.piped = true) (hforked : attempt.forked = false) :
    ∃ q : Parent, spawnWithFd d readyfd p attempt = (q, none) ∧ q.logs d = false ∧
      q.table = p.table.closeIf readyfd := by
  obtain ⟨console, hconsole, heq⟩ := spawnWithFd_plain readyfd hpiped hlogs
  rw [heq, forkChild, if_neg (by simp [hforked])]
  refine ⟨_, rfl, by simp [Parent.logs, hconsole], ?_⟩
  show ((Table.close (Table.close _ _) _).closeIf readyfd).closeIf none = _
  rw [Table.pipe_close]
  rfl

/-- The number of the pipe is the next one to be opened, which is the reading end of the error
pipe. -/
theorem spawnUntilForked_lowest {attempts : List Attempt} (hn : p.table.lowest = n)
    (hlogs : p.logs d = false) (hrun : spawnUntilForked d (some n) p attempts = some f) :
    f.errorReader = n ∧ f.parent.table.get n = none := by
  induction attempts generalizing p with
  | nil => cases hrun
  | cons attempt attempts ih =>
    rw [spawnUntilForked] at hrun
    cases hpiped : attempt.piped with
    | false =>
      rw [spawnWithFd, if_neg (by simp [hpiped])] at hrun
      exact ih hn hlogs hrun
    | true =>
      cases hforked : attempt.forked with
      | true =>
        obtain ⟨console, -, heq⟩ := spawnWithFd_plain (some n) hpiped hlogs
        rw [heq, forkChild, if_pos hforked] at hrun
        cases hrun
        exact ⟨hn, Table.get_set_self ..⟩
      | false =>
        obtain ⟨q, heq, hlogs', htable⟩ := spawnWithFd_failed (some n) hlogs hpiped hforked
        rw [heq] at hrun
        refine ih ?_ hlogs' hrun
        rw [htable, Table.closeIf, Table.close_of_free _ (hn ▸ p.table.get_lowest)]
        exact hn

/-- The first fork that fails gives the number to the error pipe. -/
theorem spawnUntilForked_lost {attempts : List Attempt} (hbelow : ∀ m < n, p.table.get m ≠ none)
    (hlogs : p.logs d = false) (hfirst : firstForks false attempts = false)
    (hrun : spawnUntilForked d (some n) p attempts = some f) :
    f.errorReader = n ∧ f.parent.table.get n = none := by
  induction attempts generalizing p with
  | nil => cases hrun
  | cons attempt attempts ih =>
    rw [spawnUntilForked] at hrun
    rw [firstForks] at hfirst
    cases hpiped : attempt.piped with
    | false =>
      rw [spawnWithFd, if_neg (by simp [hpiped])] at hrun
      rw [if_neg (by simp [Attempt.reaches, hpiped])] at hfirst
      exact ih hbelow hlogs hfirst hrun
    | true =>
      rw [if_pos (by simp [Attempt.reaches, hpiped])] at hfirst
      obtain ⟨q, heq, hlogs', htable⟩ := spawnWithFd_failed (some n) hlogs hpiped hfirst
      rw [heq] at hrun
      refine spawnUntilForked_lowest (Table.lowest_eq _ ?_ fun m hm => ?_) hlogs' hrun
      · rw [htable]
        exact Table.get_set_self ..
      · rw [htable, Table.closeIf, Table.get_close_ne _ (by omega)]
        exact hbelow m hm

/-! ## The whole start -/

/-- The number of the pipe of the readiness was free, and those below it are taken. -/
theorem openPipes_readyfd (script : Bool) (t : Table File) :
    ∃ n, (openPipes script true t).readyfd = some n ∧
      (openPipes script true t).table.get n = some ⟨.readyWriter, false⟩ ∧ t.get n = none ∧
      ∀ m < n, (openPipes script true t).table.get m ≠ none := by
  obtain ⟨base, own, -, hopen, hh, -, hready, -⟩ := openPipes_holds script true t
  refine ⟨_, rfl, hh.held hready, ?_, fun m hm => ?_⟩
  · by_contra hne
    exact hne ((hopen _ hne).symm.trans (hh.free hready))
  · let t' := (pipeIf script t .scriptReader .scriptWriter false).1
    let r := t'.alloc ⟨.readyReader, false⟩
    have hr : r.1.get m ≠ none := fun hfree => absurd (r.1.lowest_le hfree) (Nat.not_le.mpr hm)
    have hw := r.1.get_alloc_of_open ⟨.readyWriter, false⟩ hr
    show (((t'.pipe .readyReader .readyWriter).1.setCloexec _ true).get m) ≠ none
    rw [← Option.isSome_iff_ne_none, Table.setCloexec_isSome, Option.isSome_iff_ne_none]
    exact hw ▸ hr

variable {table : Table File} {s : Init} {x : Start} {parent : Parent} {pipes : Pipes}

/-- Whatever init has started before: a process that tells when it is ready has its pipe at the
number that it is told exactly if no fork of its start has failed.  If one has, and the output is
not logged, the number is that of the error pipe instead, and init closes the reading end of it:
it does not learn any more what fails in the child. -/
theorem reached_readyfd (job : JobId) (h : Reach (atBoot table) InitEnabled initStep s)
    (hready : x.ready = true)
    (hrun : x.run s.table (s.logs (job, x.process)) = some (parent, pipes, f)) :
    let logged := x.console = .log && !x.disableJobLogging
    ∃ n, pipes.readyfd = some n ∧
      (f.child.get n = some ⟨.readyWriter, false⟩ ↔ firstForks logged x.attempts = true) ∧
      (logged = false → firstForks false x.attempts = false →
        f.errorReader = n ∧ parent.table.get n = none) := by
  obtain ⟨n, hreadyfd, hget, hfree, hbelow⟩ := openPipes_readyfd x.script s.table
  unfold Start.run startProcess at hrun
  rw [hready] at hrun
  obtain ⟨f', hf, heq⟩ := Option.map_eq_some_iff.mp hrun
  cases heq
  have hlog : s.logs (job, x.process) ≠ some n := by
    intro hlog
    obtain ⟨e, he, -⟩ := (reached_orderly h).log _ n hlog
    cases he.symm.trans hfree
  rw [hreadyfd] at hf
  refine ⟨n, hreadyfd, spawnUntilForked_readyfd hget hlog hf, fun hlogs hfirst => ?_⟩
  obtain ⟨hreader, hclosed⟩ := spawnUntilForked_lost (p := ⟨_, x.console, _⟩) hbelow hlogs hfirst hf
  exact ⟨hreader, Table.get_closeIf_of_free _ _ hclosed⟩

/-- A start whose first fork fails. -/
def reforkStart : Start :=
  { scriptStart with
    console := .none
    attempts := [⟨true, true, true, false⟩, ⟨true, true, true, true⟩] }

/-- The second fork succeeds, and the child has no pipe. -/
theorem reached_readyfd_refork :
    ∃ parent pipes f n, reforkStart.run bootTable none = some (parent, pipes, f) ∧
      pipes.readyfd = some n ∧ f.child.get n ≠ some ⟨.readyWriter, false⟩ ∧
      f.errorReader = n ∧ parent.table.get n = none := by
  obtain ⟨⟨parent, pipes, f⟩, hrun⟩ : ∃ r, reforkStart.run bootTable none = some r := ⟨_, rfl⟩
  obtain ⟨n, hn, hchild, hlost⟩ := reached_readyfd 1 (s := ⟨bootTable, fun _ => none⟩)
    (x := reforkStart) (.init rfl) (by decide) hrun
  obtain ⟨hreader, hclosed⟩ := hlost (by decide) (by decide)
  exact ⟨parent, pipes, f, n, hrun, hn, mt hchild.mp (by decide), hreader, hclosed⟩

end Startup.Spawn
