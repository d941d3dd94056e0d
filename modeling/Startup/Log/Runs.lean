import Startup.Log.Buffers
import Mathlib.Data.List.Perm.Basic

/-!
# Runs of the logs

What holds of all logs, of running processes, on the list of unflushed logs and freed, while
processes write, end, and the list is cleared.

* `Logs.Safe`: no log has lost, doubled or moved anything;
* `LogStep.Whole`: where a step does not meet what a partial `write` has left in the receive
  buffer;
* `logRun_iff`: in the runs without such steps, and in no others, the logs are safe.
-/

namespace Startup

open Lib

def Logs.all (s : Logs) : List Log := s.attached ++ s.unflushedFiles ++ s.gone ++ s.cleared

/-- A log holds what it has received, in order, and the drain left nothing in the receive
buffer. -/
structure Log.Kept (log : Log) : Prop where
  content : log.content = log.received
  left : log.left = []

/-- Nothing is lost, doubled or moved, and nothing is only in the receive buffer of a log that
`log_handle_unflushed` has drained.  What was unflushed then has been written, in its place, when
the list is cleared. -/
structure Logs.Safe (s : Logs) : Prop where
  kept : ∀ log ∈ s.all, log.Kept
  cleared : ∀ log ∈ s.cleared, log.owed <+: log.written

/-- The calls of a step do not fail for want of space. -/
def LogStep.Spacious : LogStep → Prop
  | .readable _ _ _ call => call.Spacious
  | .exited _ drain _ freeing => drain.Spacious ∧ freeing.Spacious
  | .clear visit => ∀ n, (visit n).call.Spacious ∧ (visit n).freeing.Spacious
  | _ => True

/-- The receive buffer is empty when its `NihIo` is freed, and the last round of a drain leaves
nothing in it. -/
def LogStep.Whole (s : Logs) : LogStep → Prop
  | .hangup detached i => ∀ log,
    (if detached then s.unflushedFiles else s.attached)[i]? = some log → log.recvBuf = []
  | .exited i drain _ _ => ∀ log, s.attached[i]? = some log → log.DrainsWhole drain
  | _ => True

/-- What holds in all runs: a log may lose something, but what it holds is in order and not
doubled. -/
structure Logs.Ordered (s : Logs) : Prop where
  ordered : ∀ log ∈ s.all, log.content.Sublist log.received
  attached : ∀ log ∈ s.attached, log.left = []
  listed : ∀ log ∈ s.unflushedFiles, log.owed <+: log.written ++ log.unflushed
  cleared : ∀ log ∈ s.cleared, log.owed <+: log.written

variable {α : Type*} {s s' : Logs} {log a b : Log} {data : List UInt8} {drain : Drain}
  {memory flushed : Bool} {ret : Int}

/-! ## One log -/

theorem Log.Carries.kept_iff (h : a.Carries data b) : b.Kept ↔ a.Kept := by
  constructor
  · intro hb
    refine ⟨?_, h.left.symm.trans hb.left⟩
    have hcontent := hb.content
    rw [h.content, h.received] at hcontent
    exact List.append_cancel_right hcontent
  · intro ha
    exact ⟨by rw [h.content, h.received, ha.content], h.left.trans ha.left⟩

theorem Log.Carries.ordered (h : a.Carries data b) (ha : a.content.Sublist a.received) :
    b.content.Sublist b.received := by
  rw [h.content, h.received]
  exact ha.append_right data

theorem Log.Carries.listed (h : a.Carries data b) (ha : a.owed <+: a.written ++ a.unflushed) :
    b.owed <+: b.written ++ b.unflushed := by
  rw [h.owed]
  exact ha.trans h.taken

/-- With its `NihIo` a log loses what is in the receive buffer. -/
theorem logIoErrorHandler_kept (h : log.content.Sublist log.received) :
    (logIoErrorHandler log).Kept ↔ log.Kept ∧ log.recvBuf = [] := by
  have hcontent : (logIoErrorHandler log).content = log.written ++ log.unflushed :=
    List.append_nil _
  constructor
  · intro hkept
    have hall : log.written ++ log.unflushed = log.received := hcontent.symm.trans hkept.content
    have hlength := h.length_le
    rw [Log.content, hall, List.length_append] at hlength
    have hempty : log.recvBuf = [] := List.eq_nil_of_length_eq_zero (by omega)
    refine ⟨⟨?_, hkept.left⟩, hempty⟩
    rw [Log.content, hempty, List.append_nil, hall]
  · intro hboth
    refine ⟨?_, hboth.1.left⟩
    rw [hcontent, ← List.append_nil (log.written ++ log.unflushed), ← hboth.2]
    exact hboth.1.content

theorem logIoErrorHandler_ordered (h : log.content.Sublist log.received) :
    (logIoErrorHandler log).content.Sublist (logIoErrorHandler log).received := by
  have hcontent : (logIoErrorHandler log).content = log.written ++ log.unflushed :=
    List.append_nil _
  rw [hcontent]
  exact (List.sublist_append_left _ _).trans h

/-- What `log_handle_unflushed` leaves of a log: it is kept exactly where it was, and where the
drain is whole. -/
theorem logHandleUnflushed_spec (hspace : drain.Spacious) (hleft : log.left = [])
    (hordered : log.content.Sublist log.received)
    (h : logHandleUnflushed flushed log drain memory = .ok (ret, b)) :
    (b.Kept ↔ log.Kept ∧ log.DrainsWhole drain) ∧ b.content.Sublist b.received ∧
      b.owed <+: b.written ++ b.unflushed := by
  obtain ⟨data, hcarries⟩ := logReadWatch_carries hspace log
  have hsame : b.content = (logReadWatch log drain).content ∧
      b.received = (logReadWatch log drain).received ∧
      b.left = (logReadWatch log drain).recvBuf ∧ b.owed = b.written ++ b.unflushed := by
    rw [logHandleUnflushed] at h
    cases hdetached : log.detached with
    | true => simp [hdetached, bind, Except.bind] at h
    | false =>
      simp only [hdetached, Bool.not_false, check_true, bind, Except.bind] at h
      split at h
      · cases h
        exact ⟨rfl, rfl, rfl, rfl⟩
      · split at h
        · cases h
          exact ⟨rfl, rfl, rfl, rfl⟩
        · split at h
          · cases h
            exact ⟨rfl, rfl, rfl, rfl⟩
          · cases h
            exact ⟨rfl, rfl, rfl, rfl⟩
  obtain ⟨hcontent, hreceived, hdrained, howed⟩ := hsame
  refine ⟨?_, ?_, by rw [howed]⟩
  · rw [← logReadWatch_left hspace log, ← hdrained]
    have hkept := hcarries.kept_iff
    constructor
    · intro hb
      refine ⟨hkept.mp ⟨?_, hcarries.left.trans hleft⟩, hb.left⟩
      rw [← hcontent, ← hreceived, hb.content]
    · intro hboth
      refine ⟨?_, hboth.2⟩
      rw [hcontent, hreceived, (hkept.mpr hboth.1).content]
  · rw [hcontent, hreceived]
    exact hcarries.ordered hordered

/-! ## The list -/

/-- What a successful `log_file_write` without new text leaves is written. -/
theorem logFileWrite_flushed {call : LogCall} (h : logFileWrite a [] call = (b, true)) :
    b.unflushed = [] := by
  rw [logFileWrite] at h
  split at h
  · cases h
  · split at h
    · cases h
    · rename_i hunflushed
      cases h
      exact not_not.mp hunflushed

/-- The first log of the list stays with all others, or it is freed when it has been written. -/
theorem logClearUnflushed_cons {visit : Nat → Visit} {logs stay freed : List Log}
    (hcall : (visit 0).call.Spacious) (hfreeing : (visit 0).freeing.Spacious)
    (h : logClearUnflushed visit (log :: logs) = .ok (ret, stay, freed)) :
    (∃ b, log.Carries [] b ∧ stay = b :: logs ∧ freed = []) ∨
      ∃ data b rest, log.Carries data b ∧ log.written ++ log.unflushed <+: b.written ∧
        freed = b :: rest ∧
          logClearUnflushed (fun n => visit (n + 1)) logs = .ok (ret, stay, rest) := by
  rw [logClearUnflushed] at h
  split at h
  · rename_i hunflushed
    obtain ⟨⟨ret', stay', rest⟩, hrest, hresult⟩ := bind_eq_ok.mp h
    cases hresult
    refine .inr ⟨[], log.closeFile, rest, log.closeFile_carries, ?_, rfl, hrest⟩
    rw [hunflushed, List.append_nil]
    exact List.prefix_refl _
  · rw [check_bind_eq_ok, check_bind_eq_ok, check_bind_eq_ok] at h
    obtain ⟨-, -, -, h⟩ := h
    have hopened := (logFileOpen_io log (visit 0).call).1
    split at h
    · rename_i opened hopen
      cases h
      rw [hopen] at hopened
      exact .inl ⟨opened, hopened, rfl, rfl⟩
    · rename_i opened hopen
      rw [hopen] at hopened
      have hcarries := hopened.then
        (logFileWrite_carries hcall (List.nil_prefix (l := opened.recvBuf)))
      split at h
      · rename_i written hwrite
        cases h
        rw [hwrite] at hcarries
        exact .inl ⟨written, hcarries, rfl, rfl⟩
      · rename_i written hwrite
        rw [hwrite] at hcarries
        obtain ⟨⟨ret', stay', rest⟩, hrest, hresult⟩ := bind_eq_ok.mp h
        cases hresult
        obtain ⟨data, hflush⟩ := logFlush_carries hfreeing written
        refine .inr ⟨data, logFlush written (visit 0).freeing, rest, hcarries.trans hflush, ?_, rfl,
          hrest⟩
        have hall := hcarries.taken
        rw [logFileWrite_flushed hwrite, List.append_nil] at hall
        exact hall.trans hflush.written

/-- Each log that is taken from the list has been written, and each log is kept exactly where it
was. -/
theorem logClearUnflushed_spec {visit : Nat → Visit} {logs stay freed : List Log}
    (hspace : ∀ n, (visit n).call.Spacious ∧ (visit n).freeing.Spacious)
    (hordered : ∀ log ∈ logs, log.content.Sublist log.received)
    (hlisted : ∀ log ∈ logs, log.owed <+: log.written ++ log.unflushed)
    (h : logClearUnflushed visit logs = .ok (ret, stay, freed)) :
    ((∀ log ∈ stay ++ freed, log.Kept) ↔ ∀ log ∈ logs, log.Kept) ∧
      (∀ log ∈ stay ++ freed, log.content.Sublist log.received) ∧
      (∀ log ∈ stay, log.owed <+: log.written ++ log.unflushed) ∧
      ∀ log ∈ freed, log.owed <+: log.written := by
  induction logs generalizing visit ret stay freed with
  | nil =>
    cases h
    simp
  | cons log logs ih =>
    rw [List.forall_mem_cons] at hordered hlisted
    rcases logClearUnflushed_cons (hspace 0).1 (hspace 0).2 h with
      ⟨b, hcarries, rfl, rfl⟩ | ⟨data, b, rest, hcarries, hwritten, rfl, hrest⟩
    · simp only [List.append_nil, List.forall_mem_cons, List.not_mem_nil, false_implies,
        implies_true, and_true]
      exact ⟨and_congr_left' hcarries.kept_iff, ⟨hcarries.ordered hordered.1, hordered.2⟩,
        hcarries.listed hlisted.1, hlisted.2⟩
    · obtain ⟨hkept, hsublist, hstay, hfreed⟩ :=
        ih (fun n => hspace (n + 1)) hordered.2 hlisted.2 hrest
      simp only [List.forall_mem_append, List.forall_mem_cons] at hkept hsublist ⊢
      refine ⟨?_, ⟨hsublist.1, hcarries.ordered hordered.1, hsublist.2⟩, hstay, ?_, hfreed⟩
      · rw [and_left_comm, hkept]
        exact and_congr_left' hcarries.kept_iff
      · rw [hcarries.owed]
        exact hlisted.1.trans hwritten

/-! ## All logs -/

/-- What is said of all elements of a list, when one of them is changed. -/
theorem forall_mem_modify {P Q : α → Prop} {f : α → α} {l : List α}
    (hf : ∀ a ∈ l, P (f a) ↔ P a ∧ Q a) (i : Nat) :
    (∀ a ∈ l.modify i f, P a) ↔ (∀ a ∈ l, P a) ∧ ∀ a, l[i]? = some a → Q a := by
  by_cases hi : i < l.length
  · obtain ⟨before, a, after, rfl, rfl, hmodify⟩ := List.exists_of_modify f hi
    have ha := hf a (List.mem_append_right _ List.mem_cons_self)
    have hget : (before ++ a :: after)[before.length]? = some a := by simp
    rw [hmodify, hget]
    simp only [List.forall_mem_append, List.forall_mem_cons, ha, Option.some.injEq, forall_eq']
    constructor
    · intro h
      exact ⟨⟨h.1, h.2.1.1, h.2.2⟩, h.2.1.2⟩
    · intro h
      exact ⟨h.1.1, ⟨h.1.2.1, h.2⟩, h.1.2.2⟩
  · rw [List.modify_eq_self (Nat.le_of_not_lt hi), List.getElem?_eq_none (Nat.le_of_not_lt hi)]
    simp

theorem forall_mem_modify_of {P : α → Prop} {f : α → α} {l : List α} (h : ∀ a ∈ l, P a)
    (hf : ∀ a ∈ l, P (f a)) (i : Nat) : ∀ a ∈ l.modify i f, P a := by
  have hmodify := forall_mem_modify (Q := fun _ => True)
    (fun a ha => iff_of_true (hf a ha) ⟨h a ha, trivial⟩) i
  exact hmodify.mpr ⟨h, fun _ _ => trivial⟩

theorem forall_mem_eraseIdx {P : α → Prop} {l : List α} {i : Nat} {a : α} (h : l[i]? = some a) :
    (∀ x ∈ l, P x) ↔ P a ∧ ∀ x ∈ l.eraseIdx i, P x := by
  obtain ⟨hi, rfl⟩ := List.getElem?_eq_some_iff.mp h
  rw [← List.forall_mem_cons]
  exact forall_congr' fun x => imp_congr_left (List.getElem_cons_eraseIdx_perm hi).mem_iff.symm

theorem Logs.forall_mem_all {P : Log → Prop} : (∀ log ∈ s.all, P log) ↔
    (∀ log ∈ s.attached, P log) ∧ (∀ log ∈ s.unflushedFiles, P log) ∧
      (∀ log ∈ s.gone, P log) ∧ ∀ log ∈ s.cleared, P log := by
  rw [Logs.all, List.forall_mem_append, List.forall_mem_append, List.forall_mem_append, and_assoc,
    and_assoc]

theorem Logs.safe_iff (h : s.Ordered) : s.Safe ↔ ∀ log ∈ s.all, log.Kept :=
  ⟨Logs.Safe.kept, fun hkept => ⟨hkept, h.cleared⟩⟩

/-- A function that keeps the logs for which `Q` holds, and what holds in all runs. -/
structure LogUpdate (f : Log → Log) (Q : Log → Prop) : Prop where
  kept : ∀ log, log.content.Sublist log.received → ((f log).Kept ↔ log.Kept ∧ Q log)
  ordered : ∀ log, log.content.Sublist log.received → (f log).content.Sublist (f log).received
  left : ∀ log, (f log).left = log.left
  listed : ∀ log, log.owed <+: log.written ++ log.unflushed →
    (f log).owed <+: (f log).written ++ (f log).unflushed

theorem Logs.modify_ordered {f : Log → Log} {Q : Log → Prop} (hf : LogUpdate f Q) (hs : s.Ordered)
    (detached : Bool) (i : Nat) : (s.modify detached i f).Ordered := by
  obtain ⟨hsublist, hattached, hlisted, hcleared⟩ := hs
  rw [Logs.forall_mem_all] at hsublist
  obtain ⟨hsublist, hsublist', hrest⟩ := hsublist
  cases detached with
  | true =>
    refine ⟨Logs.forall_mem_all.mpr ⟨hsublist, ?_, hrest⟩, hattached, ?_, hcleared⟩
    · exact forall_mem_modify_of hsublist' (fun log hlog => hf.ordered log (hsublist' log hlog)) i
    · exact forall_mem_modify_of hlisted (fun log hlog => hf.listed log (hlisted log hlog)) i
  | false =>
    refine ⟨Logs.forall_mem_all.mpr ⟨?_, hsublist', hrest⟩, ?_, hlisted, hcleared⟩
    · exact forall_mem_modify_of hsublist (fun log hlog => hf.ordered log (hsublist log hlog)) i
    · exact forall_mem_modify_of hattached
        (fun log hlog => (hf.left log).trans (hattached log hlog)) i

theorem Logs.modify_kept {f : Log → Log} {Q : Log → Prop} (hf : LogUpdate f Q) (hs : s.Ordered)
    (detached : Bool) (i : Nat) : (∀ log ∈ (s.modify detached i f).all, log.Kept) ↔
      (∀ log ∈ s.all, log.Kept) ∧
        ∀ log, (if detached then s.unflushedFiles else s.attached)[i]? = some log → Q log := by
  have hsublist := Logs.forall_mem_all.mp hs.ordered
  rw [Logs.forall_mem_all, Logs.forall_mem_all]
  cases detached with
  | true =>
    have hmodify := forall_mem_modify (fun log hlog => hf.kept log (hsublist.2.1 log hlog)) i
    show _ ∧ (∀ log ∈ s.unflushedFiles.modify i f, log.Kept) ∧ _ ↔ _
    rw [hmodify]
    constructor
    · intro h
      exact ⟨⟨h.1, h.2.1.1, h.2.2⟩, h.2.1.2⟩
    · intro h
      exact ⟨h.1.1, ⟨h.1.2.1, h.2⟩, h.1.2.2⟩
  | false =>
    have hmodify := forall_mem_modify (fun log hlog => hf.kept log (hsublist.1 log hlog)) i
    show (∀ log ∈ s.attached.modify i f, log.Kept) ∧ _ ↔ _
    rw [hmodify]
    constructor
    · intro h
      exact ⟨⟨h.1.1, h.2⟩, h.1.2⟩
    · intro h
      exact ⟨⟨h.1.1, h.2⟩, h.1.2⟩

theorem LogUpdate.of_carries {f : Log → Log} (h : ∀ log, ∃ data, Log.Carries data log (f log)) :
    LogUpdate f fun _ => True where
  kept log _ := by
    obtain ⟨data, hcarries⟩ := h log
    rw [hcarries.kept_iff, and_true]
  ordered log hordered := by
    obtain ⟨data, hcarries⟩ := h log
    exact hcarries.ordered hordered
  left log := by
    obtain ⟨data, hcarries⟩ := h log
    exact hcarries.left
  listed log hlisted := by
    obtain ⟨data, hcarries⟩ := h log
    exact hcarries.listed hlisted

theorem logUpdate_receive {call : LogCall} (hspace : call.Spacious) (data : List UInt8) :
    LogUpdate (fun log => if log.io = none then log else log.receive data call)
      fun _ => True := by
  apply LogUpdate.of_carries
  intro log
  split
  · exact ⟨[], .refl log⟩
  · rename_i hio
    exact ⟨data, log.receive_carries hspace (Option.isSome_iff_ne_none.mpr hio) data⟩

theorem logUpdate_logIoErrorHandler :
    LogUpdate logIoErrorHandler fun log => log.recvBuf = [] where
  kept _ := logIoErrorHandler_kept
  ordered _ := logIoErrorHandler_ordered
  left _ := rfl
  listed _ h := h

theorem noLogs_ordered : noLogs.Ordered where
  ordered := List.forall_mem_nil _
  attached := List.forall_mem_nil _
  listed := List.forall_mem_nil _
  cleared := List.forall_mem_nil _

theorem logNew_kept : logNew.Kept := ⟨rfl, rfl⟩

/-- A step keeps what holds in all runs, and the logs are kept behind it exactly if they were and
the step is whole. -/
def KeepsLogs (s s' : Logs) (step : LogStep) : Prop :=
  s'.Ordered ∧ ((∀ log ∈ s'.all, log.Kept) ↔ (∀ log ∈ s.all, log.Kept) ∧ step.Whole s)

theorem keepsLogs_new (hs : s.Ordered) (h : s.step .new = .ok s') : KeepsLogs s s' .new := by
  cases h
  constructor
  · refine ⟨?_, ?_, hs.listed, hs.cleared⟩
    · have hall := Logs.forall_mem_all.mp hs.ordered
      rw [Logs.forall_mem_all, List.forall_mem_append, List.forall_mem_singleton]
      exact ⟨⟨hall.1, List.Sublist.refl []⟩, hall.2⟩
    · rw [List.forall_mem_append, List.forall_mem_singleton]
      exact ⟨hs.attached, rfl⟩
  · rw [Logs.forall_mem_all, Logs.forall_mem_all, List.forall_mem_append,
      List.forall_mem_singleton, and_iff_left logNew_kept]
    exact (and_iff_left trivial).symm

/-- When a process has ended, its log is drained, and freed or listed. -/
theorem keepsLogs_exited {i : Nat} {drain : Drain} {memory : Bool} {freeing : Freeing}
    (hspace : drain.Spacious ∧ freeing.Spacious) (hs : s.Ordered)
    (h : s.step (.exited i drain memory freeing) = .ok s') :
    KeepsLogs s s' (.exited i drain memory freeing) := by
  rw [Logs.step] at h
  cases hlog : s.attached[i]? with
  | none =>
    rw [hlog] at h
    cases h
    refine ⟨hs, (and_iff_left ?_).symm⟩
    intro log hlog'
    rw [hlog] at hlog'
    cases hlog'
  | some log =>
    rw [hlog] at h
    obtain ⟨⟨ret, b⟩, hhandled, h⟩ := bind_eq_ok.mp h
    have hwhole : LogStep.Whole s (.exited i drain memory freeing) ↔ log.DrainsWhole drain := by
      simp only [LogStep.Whole, hlog, Option.some.injEq, forall_eq']
    obtain ⟨hordered, hattached, hlisted, hcleared⟩ := hs
    rw [Logs.forall_mem_all, forall_mem_eraseIdx hlog] at hordered
    rw [forall_mem_eraseIdx hlog] at hattached
    obtain ⟨hkept, hb, howed⟩ :=
      logHandleUnflushed_spec hspace.1 hattached.1 hordered.1.1 hhandled
    rw [KeepsLogs, hwhole, Logs.forall_mem_all, Logs.forall_mem_all, forall_mem_eraseIdx hlog]
    dsimp only at h
    split at h
    · cases h
      refine ⟨⟨?_, hattached.2, ?_, hcleared⟩, ?_⟩
      · rw [Logs.forall_mem_all, List.forall_mem_cons]
        exact ⟨hordered.1.2, ⟨hb, hordered.2.1⟩, hordered.2.2⟩
      · rw [List.forall_mem_cons]
        exact ⟨howed, hlisted⟩
      · rw [List.forall_mem_cons, hkept]
        tauto
    · cases h
      obtain ⟨data, hcarries⟩ := logFlush_carries hspace.2 b
      refine ⟨⟨?_, hattached.2, hlisted, hcleared⟩, ?_⟩
      · rw [Logs.forall_mem_all, List.forall_mem_cons]
        exact ⟨hordered.1.2, hordered.2.1, ⟨hcarries.ordered hb, hordered.2.2.1⟩, hordered.2.2.2⟩
      · rw [List.forall_mem_cons, hcarries.kept_iff, hkept]
        tauto

/-- When the filesystem can be written, the listed logs are flushed in turn. -/
theorem keepsLogs_clear {visit : Nat → Visit} (hspace : (LogStep.clear visit).Spacious)
    (hs : s.Ordered) (h : s.step (.clear visit) = .ok s') : KeepsLogs s s' (.clear visit) := by
  obtain ⟨⟨ret, stay, freed⟩, hclear, h⟩ := bind_eq_ok.mp h
  cases h
  obtain ⟨hordered, hattached, hlisted, hcleared⟩ := hs
  rw [Logs.forall_mem_all] at hordered
  obtain ⟨hkept, hsublist, hstay, hfreed⟩ :=
    logClearUnflushed_spec hspace hordered.2.1 hlisted hclear
  rw [List.forall_mem_append] at hkept hsublist
  refine ⟨⟨?_, hattached, hstay, ?_⟩, ?_⟩
  · rw [Logs.forall_mem_all, List.forall_mem_append]
    exact ⟨hordered.1, hsublist.1, hordered.2.2.1, hsublist.2, hordered.2.2.2⟩
  · rw [List.forall_mem_append]
    exact ⟨hfreed, hcleared⟩
  · rw [Logs.forall_mem_all, Logs.forall_mem_all, List.forall_mem_append, ← hkept]
    have htrue : LogStep.Whole s (.clear visit) := trivial
    tauto

theorem Logs.step_keeps {step : LogStep} (hspace : step.Spacious) (hs : s.Ordered)
    (h : s.step step = .ok s') : KeepsLogs s s' step := by
  cases step with
  | new => exact keepsLogs_new hs h
  | readable detached i data call =>
    cases h
    have hf := logUpdate_receive hspace data
    rw [KeepsLogs, Logs.modify_kept hf hs]
    refine ⟨Logs.modify_ordered hf hs detached i, ?_⟩
    exact and_congr_right' (iff_of_true (fun _ _ => trivial) trivial)
  | hangup detached i =>
    cases h
    have hf := logUpdate_logIoErrorHandler
    exact ⟨Logs.modify_ordered hf hs detached i, Logs.modify_kept hf hs detached i⟩
  | exited i drain memory freeing => exact keepsLogs_exited hspace hs h
  | clear visit => exact keepsLogs_clear hspace hs h

/-- The logs are safe behind a step exactly if they were and the step is whole. -/
theorem Logs.step_safe {step : LogStep} (hspace : step.Spacious) (hs : s.Ordered)
    (h : s.step step = .ok s') : s'.Ordered ∧ (s'.Safe ↔ s.Safe ∧ step.Whole s) := by
  have hkeeps := Logs.step_keeps hspace hs h
  rw [Logs.safe_iff hkeeps.1, Logs.safe_iff hs]
  exact hkeeps

/-- In a run in which no call fails for want of space, the logs are safe exactly if each step is
whole. -/
theorem logRun_iff {steps : List LogStep} {s : Logs} (hspace : ∀ step ∈ steps, step.Spacious)
    (hrun : runList Logs.step noLogs steps = .ok s) :
    s.Safe ↔ Admitted LogStep.Whole Logs.step noLogs steps := by
  have hnone : noLogs.Safe := ⟨List.forall_mem_nil _, List.forall_mem_nil _⟩
  have hiff : s.Safe ↔ noLogs.Safe ∧ Admitted LogStep.Whole Logs.step noLogs steps :=
    runList_iff (fun s hs step hmem s' h => Logs.step_safe (hspace step hmem) hs h) noLogs_ordered
      hrun
  rw [hiff, and_iff_right hnone]

/-- The file is open or can be opened, and takes at most `n` bytes of the text. -/
def callTaking (n : Nat) : LogCall := ⟨1, .opened none, .wrote 9, .wrote n, true⟩

/-- The file cannot be opened yet. -/
def callReadOnly : LogCall := ⟨0, .failed .erofs, .failed .eio, .failed .eio, true⟩

/-- A process has sent three bytes when it ends, and the call for both rounds is the same. -/
def threeBytes (call : LogCall) : Drain where
  rounds := [⟨true, .bytes [97, 98, 99], call⟩]
  last := ⟨true, .failed .eio, call⟩
  goOn := by simp [DrainRound.isLast]
  isLast := rfl

/-- A job ends before its log file can be opened, and the list is cleared later. -/
def earlyJob : List LogStep :=
  [.new, .exited 0 (threeBytes callReadOnly) true ⟨callReadOnly, threeBytes callReadOnly⟩,
    .clear fun _ => ⟨callTaking 9, ⟨callTaking 9, threeBytes (callTaking 9)⟩⟩]

theorem callTaking_spacious (n : Nat) : (callTaking n).Spacious := ⟨nofun, nofun, nofun⟩

theorem callReadOnly_spacious : callReadOnly.Spacious := ⟨nofun, nofun, nofun⟩

theorem threeBytes_spacious {call : LogCall} (h : call.Spacious) :
    (threeBytes call).Spacious :=
  ⟨by simpa [threeBytes] using h, h⟩

theorem logRun_iff_earlyJob : ∃ s, runList Logs.step noLogs earlyJob = .ok s ∧
    (s.Safe ↔ Admitted LogStep.Whole Logs.step noLogs earlyJob) ∧
      s.cleared.map Log.written = [[97, 98, 99]] := by
  have hread := threeBytes_spacious callReadOnly_spacious
  have htaken := threeBytes_spacious (callTaking_spacious 9)
  refine ⟨_, rfl, logRun_iff ?_ rfl, rfl⟩
  rw [earlyJob, List.forall_mem_cons, List.forall_mem_cons, List.forall_mem_singleton]
  exact ⟨trivial, ⟨hread, ⟨callReadOnly_spacious, hread⟩⟩,
    fun _ => ⟨callTaking_spacious 9, ⟨callTaking_spacious 9, htaken⟩⟩⟩

/-- The file takes one byte in each round of the drain. -/
def shortWrites : List LogStep :=
  [.new, .exited 0 (threeBytes (callTaking 1)) true ⟨callTaking 1, threeBytes (callTaking 1)⟩]

/-- The file takes one byte of two, and then the terminal is closed. -/
def shortWriteHangup : List LogStep :=
  [.new, .readable false 0 [97, 98] (callTaking 1), .hangup false 0]

/-- What the file has not taken is lost with the receive buffer, and is not in the unflushed
one. -/
theorem shortWrite_lost :
    (∃ s, runList Logs.step noLogs shortWrites = .ok s ∧
      s.gone.map (fun log => (log.received, log.written, log.unflushed)) =
        [([97, 98, 99], [97, 98], [])] ∧ ¬ s.Safe) ∧
    (∃ s, runList Logs.step noLogs shortWriteHangup = .ok s ∧
      s.attached.map (fun log => (log.received, log.written, log.unflushed)) =
        [([97, 98], [97], [])] ∧ ¬ s.Safe) ∧
    ∀ step ∈ shortWrites ++ shortWriteHangup, step.Spacious := by
  refine ⟨⟨_, rfl, rfl, ?_⟩, ⟨_, rfl, rfl, ?_⟩, ?_⟩
  · intro h
    cases (h.kept _ (.head _)).left
  · intro h
    cases (h.kept _ (.head _)).content
  · have hcall := callTaking_spacious 1
    have hdrain := threeBytes_spacious hcall
    simp [shortWrites, shortWriteHangup, LogStep.Spacious, hcall, hdrain, Freeing.Spacious.mk]

end Startup
