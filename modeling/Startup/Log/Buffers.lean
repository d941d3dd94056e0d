import Startup.Log.State
import Mathlib.Data.List.TakeDrop
import Mathlib.Data.List.Infix

/-!
# The buffers of a log

What a log holds in its file and its two buffers, read one after the other, and what is moved
between them.

* `Log.Carries`: a step that keeps what a log holds, and puts what is received behind it;
* `Log.TakesAll`, `Log.DrainsWhole`: where nothing is left in the receive buffer.
-/

namespace Startup

open Lib

/-- What the file has taken, what is unflushed, and what is in the receive buffer. -/
def Log.content (log : Log) : List UInt8 := log.written ++ log.unflushed ++ log.recvBuf

/-- What is received between two states of a log goes behind what it holds, and what is written or
unflushed stays in its place. -/
structure Log.Carries (data : List UInt8) (a b : Log) : Prop where
  content : b.content = a.content ++ data
  received : b.received = a.received ++ data
  taken : a.written ++ a.unflushed <+: b.written ++ b.unflushed
  written : a.written <+: b.written
  io : b.io.isSome = a.io.isSome
  owed : b.owed = a.owed
  left : b.left = a.left

/-- No call fails for want of space. -/
structure LogCall.Spacious (call : LogCall) : Prop where
  opened : call.opened ≠ .failed .enospc
  flush : call.flush ≠ .failed .enospc
  write : call.write ≠ .failed .enospc

structure Drain.Spacious (drain : Drain) : Prop where
  rounds : ∀ round ∈ drain.rounds, round.call.Spacious
  last : drain.last.call.Spacious

structure Freeing.Spacious (freeing : Freeing) : Prop where
  call : freeing.call.Spacious
  drain : freeing.drain.Spacious

/-- `log_file_open` succeeds. -/
def LogCall.opens (call : LogCall) (fd : Bool) : Bool :=
  (fd && call.nlink ≠ 0) ||
    match call.opened with
    | .opened _ => true
    | .failed _ => false

/-- The unflushed buffer is written to its end. -/
def LogCall.flushes (call : LogCall) (unflushed : List UInt8) : Bool :=
  unflushed = [] ||
    match call.flush with
    | .wrote n => unflushed.length ≤ n
    | .failed _ => false

/-- Nothing stays in the receive buffer: if the file takes a part of it, it takes all of it, and
there is memory to save it otherwise. -/
def Log.TakesAll (log : Log) (call : LogCall) : Prop :=
  if call.opens log.fd && call.flushes log.unflushed then
    match call.write with
    | .wrote n => log.recvBuf.length ≤ n
    | .failed _ => call.pushed = true
  else call.pushed = true

/-- A log before the last round of a drain. -/
def Log.beforeLast (log : Log) (rounds : List DrainRound) : Log :=
  rounds.foldl (fun log round => log.receive round.data round.call) log

/-- The last round of a drain leaves nothing in the receive buffer. -/
structure Log.DrainsWhole (log : Log) (drain : Drain) : Prop where
  memory : drain.last.resized = false → (log.beforeLast drain.rounds).recvBuf = []
  taken : drain.last.resized = true →
    ((log.beforeLast drain.rounds).append drain.last.data).recvBuf ≠ [] →
      ((log.beforeLast drain.rounds).append drain.last.data).TakesAll drain.last.call

variable {log a b c : Log} {call : LogCall} {buf data more : List UInt8} {n : Nat}

/-! ## Each function keeps what a log holds -/

@[simp]
theorem Log.shrinkRecv_recvBuf (log : Log) (n : Nat) :
    (log.shrinkRecv n).recvBuf = log.recvBuf.drop n := by
  cases hio : log.io with
  | none => simp [Log.recvBuf, Log.shrinkRecv, hio]
  | some buf => simp [Log.recvBuf, Log.shrinkRecv, hio]

theorem Log.shrinkRecv_isSome (log : Log) (n : Nat) :
    (log.shrinkRecv n).io.isSome = log.io.isSome :=
  Option.isSome_map

theorem Log.Carries.refl (log : Log) : log.Carries [] log where
  content := (List.append_nil _).symm
  received := (List.append_nil _).symm
  taken := List.prefix_refl _
  written := List.prefix_refl _
  io := rfl
  owed := rfl
  left := rfl

theorem Log.Carries.trans (hab : a.Carries data b) (hbc : b.Carries more c) :
    a.Carries (data ++ more) c where
  content := by rw [hbc.content, hab.content, List.append_assoc]
  received := by rw [hbc.received, hab.received, List.append_assoc]
  taken := hab.taken.trans hbc.taken
  written := hab.written.trans hbc.written
  io := hbc.io.trans hab.io
  owed := hbc.owed.trans hab.owed
  left := hbc.left.trans hab.left

/-- A step in which nothing is received. -/
theorem Log.Carries.then (hab : a.Carries data b) (hbc : b.Carries [] c) : a.Carries data c := by
  have h := hab.trans hbc
  rwa [List.append_nil] at h

/-- The buffers and the ghosts are the same. -/
theorem Log.Carries.of_eq (hwritten : b.written = a.written)
    (hunflushed : b.unflushed = a.unflushed) (hio : b.io = a.io)
    (hreceived : b.received = a.received) (howed : b.owed = a.owed) (hleft : b.left = a.left) :
    a.Carries [] b where
  content := by
    rw [Log.content, Log.content, Log.recvBuf, Log.recvBuf, hwritten, hunflushed, hio,
      List.append_nil]
  received := by rw [hreceived, List.append_nil]
  taken := by rw [hwritten, hunflushed]
  written := by rw [hwritten]
  io := by rw [hio]
  owed := howed
  left := hleft

theorem Log.closeFile_carries (log : Log) : log.Carries [] log.closeFile :=
  .of_eq rfl rfl rfl rfl rfl rfl

/-- `log_file_open` does not touch the buffers. -/
theorem logFileOpen_io (log : Log) (call : LogCall) :
    log.Carries [] (logFileOpen log call).1 ∧ (logFileOpen log call).1.io = log.io ∧
      (logFileOpen log call).1.unflushed = log.unflushed := by
  rw [logFileOpen]
  split
  · exact ⟨.refl _, rfl, rfl⟩
  · cases call.opened with
    | opened errno => exact ⟨.of_eq rfl rfl rfl rfl rfl rfl, rfl, rfl⟩
    | failed errno => exact ⟨.of_eq rfl rfl rfl rfl rfl rfl, rfl, rfl⟩

theorem logFileFlush_carries (h : logFileFlush a call = .ok b) :
    a.Carries [] b ∧ b.io = a.io := by
  rw [logFileFlush] at h
  split at h
  · cases h
    exact ⟨.refl _, rfl⟩
  · split at h
    · cases h
    · rename_i n _
      cases h
      have hparts : a.written ++ a.unflushed.take n ++ a.unflushed.drop n =
          a.written ++ a.unflushed := by
        rw [List.append_assoc, List.take_append_drop]
      refine ⟨⟨?_, (List.append_nil _).symm, ?_, List.prefix_append _ _, rfl, rfl, rfl⟩, rfl⟩
      · rw [Log.content, Log.content, hparts, List.append_nil]
        rfl
      · rw [hparts]

/-- Where the unflushed buffer is not written, the error is another one than want of space. -/
theorem logFileFlush_error {errno : Errno} (hspace : call.Spacious)
    (h : logFileFlush log call = .error errno) :
    errno ≠ .enospc ∧ call.flushes log.unflushed = false := by
  rw [logFileFlush] at h
  split at h
  · cases h
  · rename_i hunflushed
    split at h
    · rename_i hfailed
      cases h
      exact ⟨fun h => hspace.flush (h ▸ hfailed), by simp [LogCall.flushes, hunflushed, hfailed]⟩
    · cases h

/-- What is saved moves from the front of the receive buffer to the end of the unflushed one. -/
theorem Log.saveNew_carries (hbuf : buf <+: log.recvBuf) (pushed : Bool) :
    log.Carries [] (log.saveNew buf pushed true) := by
  rw [Log.saveNew, if_pos rfl]
  split
  · obtain ⟨rest, hrest⟩ := hbuf
    have hdrop : (log.push buf).recvBuf.drop buf.length = rest := by
      have hsame : (log.push buf).recvBuf = log.recvBuf := rfl
      rw [hsame, ← hrest, List.drop_left]
    refine ⟨?_, (List.append_nil _).symm, ?_, List.prefix_refl _, log.shrinkRecv_isSome _, rfl,
      rfl⟩
    · rw [Log.content, Log.content, Log.shrinkRecv_recvBuf, hdrop, ← hrest, List.append_nil]
      simp [Log.push, Log.shrinkRecv]
    · simp [Log.push, Log.shrinkRecv]
  · exact .refl _

/-- What is written goes from the front of the receive buffer to the file. -/
theorem Log.writeNew_carries (hunflushed : log.unflushed = []) (hbuf : buf <+: log.recvBuf)
    (n : Nat) : log.Carries []
      ({ log with written := log.written ++ buf.take n }.shrinkRecv (buf.take n).length) := by
  obtain ⟨rest, hrest⟩ := hbuf
  have hparts : buf.take n ++ log.recvBuf.drop (buf.take n).length = log.recvBuf := by
    rw [← hrest, ← List.take_append_drop n buf, List.append_assoc]
    simp
  refine ⟨?_, (List.append_nil _).symm, ?_, List.prefix_append _ _, log.shrinkRecv_isSome _, rfl,
    rfl⟩
  · rw [Log.content, Log.content, Log.shrinkRecv_recvBuf, List.append_nil]
    show log.written ++ buf.take n ++ log.unflushed ++ log.recvBuf.drop (buf.take n).length = _
    rw [hunflushed, List.append_nil, List.append_nil, List.append_assoc, hparts]
  · simp [Log.shrinkRecv, hunflushed]

theorem logFileWrite_carries (hspace : call.Spacious) (hbuf : buf <+: log.recvBuf) :
    log.Carries [] (logFileWrite log buf call).1 := by
  rw [logFileWrite]
  cases hflush : logFileFlush log call with
  | error errno =>
    dsimp only
    rw [decide_eq_true (logFileFlush_error hspace hflush).1]
    exact (Log.saveNew_carries hbuf _).then (Log.closeFile_carries _)
  | ok flushed =>
    obtain ⟨hcarries, hio⟩ := logFileFlush_carries hflush
    have hbuf' : buf <+: flushed.recvBuf := by
      rw [Log.recvBuf, hio]
      exact hbuf
    refine hcarries.then ?_
    dsimp only
    split
    · exact (Log.saveNew_carries hbuf' _).then (Log.closeFile_carries _)
    · split
      · exact .refl _
      · split
        · rename_i errno hfailed
          have herrno : errno ≠ .enospc := fun h => hspace.write (h ▸ hfailed)
          rw [decide_eq_true herrno]
          exact (Log.saveNew_carries hbuf' _).then (Log.closeFile_carries _)
        · rename_i hunflushed _ _ n _
          -- the unflushed buffer is empty, so that the new text goes next to what is written
          rw [not_not] at hunflushed
          exact Log.writeNew_carries hunflushed hbuf' n

theorem logFileOpen_error (hspace : call.Spacious) (h : logFileOpen a call = (b, false)) :
    b.openErrno ≠ some .enospc := by
  rw [logFileOpen] at h
  split at h
  · cases h
  · cases hopened : call.opened with
    | opened errno => simp [hopened] at h
    | failed errno =>
      simp only [hopened, Prod.mk.injEq, and_true] at h
      rw [← h]
      intro herrno
      exact hspace.opened (hopened.trans (congrArg _ (Option.some.inj herrno)))

theorem logIoReader_carries (hspace : call.Spacious) (log : Log) :
    log.Carries [] (logIoReader log call) := by
  obtain ⟨hcarries, hio, -⟩ := logFileOpen_io log call
  have hbuf : log.recvBuf <+: (logFileOpen log call).1.recvBuf := by
    rw [Log.recvBuf, Log.recvBuf, hio]
  rw [logIoReader]
  split
  · rename_i opened hopen
    have herrno := logFileOpen_error hspace hopen
    rw [hopen] at hcarries hbuf
    rw [decide_eq_true herrno]
    exact hcarries.then (Log.saveNew_carries hbuf _)
  · rename_i opened hopen
    rw [hopen] at hcarries hbuf
    exact hcarries.then (logFileWrite_carries hspace hbuf)

theorem Log.receive_carries (hspace : call.Spacious) (hio : log.io.isSome = true)
    (data : List UInt8) : log.Carries data (log.receive data call) := by
  obtain ⟨recv, hrecv⟩ := Option.isSome_iff_exists.mp hio
  have hcarries : log.Carries data (log.append data) := by
    refine ⟨?_, rfl, List.prefix_refl _, List.prefix_refl _, Option.isSome_map, rfl, rfl⟩
    simp [Log.content, Log.recvBuf, Log.append, hrecv]
  rw [Log.receive]
  split
  · exact hcarries
  · exact hcarries.then (logIoReader_carries hspace _)

/-- What is read in all rounds goes behind what the log holds. -/
theorem logReadRounds_carries {rounds : List DrainRound}
    (hspace : ∀ round ∈ rounds, round.call.Spacious) (hio : log.io.isSome = true) :
    ∃ data, log.Carries data (logReadRounds log rounds) := by
  induction rounds generalizing log with
  | nil => exact ⟨[], .refl log⟩
  | cons round rounds ih =>
    rw [List.forall_mem_cons] at hspace
    rw [logReadRounds]
    split
    · exact ⟨[], .refl log⟩
    · have hcarries := Log.receive_carries hspace.1 hio round.data
      dsimp only
      split
      · exact ⟨round.data, hcarries.then (.of_eq rfl rfl rfl rfl rfl rfl)⟩
      · obtain ⟨data, hrest⟩ := ih hspace.2 (hcarries.io.trans hio)
        exact ⟨round.data ++ data, hcarries.trans hrest⟩

theorem logReadWatch_carries {drain : Drain} (hspace : drain.Spacious) (log : Log) :
    ∃ data, log.Carries data (logReadWatch log drain) := by
  rw [logReadWatch]
  split
  · exact ⟨[], .refl log⟩
  · rename_i hio
    refine logReadRounds_carries ?_ (Option.isSome_iff_ne_none.mpr hio)
    rw [List.forall_mem_append]
    exact ⟨hspace.rounds, by simpa using hspace.last⟩

theorem logFlush_carries {freeing : Freeing} (hspace : freeing.Spacious) (log : Log) :
    ∃ data, log.Carries data (logFlush log freeing) := by
  have hread (log : Log) : ∃ data, log.Carries data
      (if log.remoteClosed then log else logReadWatch log freeing.drain).closeFile := by
    split
    · exact ⟨[], log.closeFile_carries⟩
    · obtain ⟨data, hcarries⟩ := logReadWatch_carries hspace.drain log
      exact ⟨data, hcarries.then (Log.closeFile_carries _)⟩
  rw [logFlush]
  dsimp only
  split
  · exact hread log
  · have hopened := (logFileOpen_io log freeing.call).1
    split
    · rename_i opened hopen
      rw [hopen] at hopened
      exact ⟨[], hopened.then opened.closeFile_carries⟩
    · rename_i opened hopen
      rw [hopen] at hopened
      have hwritten := logFileWrite_carries hspace.call (List.nil_prefix (l := opened.recvBuf))
      split
      · rename_i written hwrite
        rw [hwrite] at hwritten
        exact ⟨[], (hopened.then hwritten).then written.closeFile_carries⟩
      · rename_i written hwrite
        rw [hwrite] at hwritten
        obtain ⟨data, hcarries⟩ := hread written
        exact ⟨data, (hopened.then hwritten).trans hcarries⟩

/-! ## What stays in the receive buffer -/

theorem logFileOpen_snd (log : Log) (call : LogCall) :
    (logFileOpen log call).2 = call.opens log.fd := by
  rw [logFileOpen, LogCall.opens]
  cases hopen : log.fd && decide (call.nlink ≠ 0) with
  | true => simp
  | false => cases call.opened <;> simp

/-- What `saveNew` leaves in the receive buffer, of which it is given all. -/
theorem Log.saveNew_left (hbuf : buf = log.recvBuf) (hne : log.recvBuf ≠ []) (pushed : Bool) :
    (log.saveNew buf pushed true).closeFile.recvBuf = [] ↔ pushed = true := by
  cases pushed with
  | true => 
    subst hbuf
    have h := (log.push log.recvBuf).shrinkRecv_recvBuf log.recvBuf.length
    refine iff_of_true ?_ rfl
    exact h.trans List.drop_length
  | false => exact iff_of_false hne nofun

theorem logFileFlush_unflushed (h : logFileFlush a call = .ok b) :
    b.unflushed = [] ↔ call.flushes a.unflushed = true := by
  rw [logFileFlush] at h
  split at h
  · rename_i hunflushed
    cases h
    simp [LogCall.flushes, hunflushed]
  · rename_i hunflushed
    split at h
    · cases h
    · rename_i hwrote
      cases h
      simp [LogCall.flushes, hunflushed, hwrote]

theorem logFileWrite_left (hspace : call.Spacious) (hbuf : buf = log.recvBuf)
    (hne : log.recvBuf ≠ []) : (logFileWrite log buf call).1.recvBuf = [] ↔
      if call.flushes log.unflushed then
        match call.write with
        | .wrote n => log.recvBuf.length ≤ n
        | .failed _ => call.pushed = true
      else call.pushed = true := by
  rw [logFileWrite]
  cases hflush : logFileFlush log call with
  | error errno =>
    obtain ⟨herrno, hflushes⟩ := logFileFlush_error hspace hflush
    dsimp only
    rw [hflushes, decide_eq_true herrno]
    exact Log.saveNew_left hbuf hne _
  | ok flushed =>
    have hsame : flushed.recvBuf = log.recvBuf := by
      rw [Log.recvBuf, Log.recvBuf, (logFileFlush_carries hflush).2]
    have hunflushed := logFileFlush_unflushed hflush
    rw [← hsame] at hbuf hne ⊢
    dsimp only
    by_cases hempty : flushed.unflushed = []
    · rw [if_neg (not_not.mpr hempty), if_neg (hbuf ▸ hne), if_pos (hunflushed.mp hempty)]
      cases hwrite : call.write with
      | failed errno =>
        have herrno : errno ≠ .enospc := fun h => hspace.write (h ▸ hwrite)
        dsimp only
        rw [decide_eq_true herrno]
        exact Log.saveNew_left hbuf hne _
      | wrote n =>
        dsimp only
        rw [Log.shrinkRecv_recvBuf, List.drop_eq_nil_iff, hbuf, List.length_take]
        show flushed.recvBuf.length ≤ min n flushed.recvBuf.length ↔ _
        omega
    · rw [if_pos hempty, if_neg fun h => hempty (hunflushed.mpr h)]
      exact Log.saveNew_left hbuf hne _

/-- The reader leaves nothing exactly where the file takes all, or the text can be saved. -/
theorem logIoReader_left (hspace : call.Spacious) (hne : log.recvBuf ≠ []) :
    (logIoReader log call).recvBuf = [] ↔ log.TakesAll call := by
  obtain ⟨-, hio, hunflushed⟩ := logFileOpen_io log call
  have hsame : log.recvBuf = (logFileOpen log call).1.recvBuf := by
    rw [Log.recvBuf, Log.recvBuf, hio]
  have hopens := logFileOpen_snd log call
  rw [logIoReader, Log.TakesAll]
  split
  · rename_i opened hopen
    have herrno := logFileOpen_error hspace hopen
    rw [hopen] at hsame hopens
    rw [← hopens, decide_eq_true herrno]
    exact Log.saveNew_left hsame (hsame ▸ hne) _
  · rename_i opened hopen
    rw [hopen] at hsame hopens hunflushed
    have hwrite := logFileWrite_left hspace hsame (hsame ▸ hne)
    rw [← hopens, Bool.true_and, hwrite, hunflushed, hsame]

theorem DrainRound.resized_of_goOn {round : DrainRound} (h : round.isLast = false) :
    round.resized = true := by
  rw [DrainRound.isLast, Bool.or_eq_false_iff] at h
  simpa using h.1

/-- The rounds that go on only receive text. -/
theorem logReadRounds_append {rounds rest : List DrainRound}
    (h : ∀ round ∈ rounds, round.isLast = false) :
    logReadRounds log (rounds ++ rest) = logReadRounds (log.beforeLast rounds) rest := by
  induction rounds generalizing log with
  | nil => rfl
  | cons round rounds ih =>
    rw [List.forall_mem_cons] at h
    rw [List.cons_append, logReadRounds, DrainRound.resized_of_goOn h.1, h.1]
    exact ih h.2

theorem Log.receive_left (hspace : call.Spacious) (data : List UInt8) :
    (log.receive data call).recvBuf = [] ↔
      ((log.append data).recvBuf ≠ [] → (log.append data).TakesAll call) := by
  rw [Log.receive]
  split
  · rename_i hempty
    exact iff_of_true hempty fun hne => absurd hempty hne
  · rename_i hne
    rw [logIoReader_left hspace hne]
    exact ⟨fun h _ => h, fun h => h hne⟩

/-- Without an `NihIo` nothing is received. -/
theorem Log.beforeLast_io (hio : log.io = none) (rounds : List DrainRound) :
    (log.beforeLast rounds).io = none := by
  induction rounds generalizing log with
  | nil => exact hio
  | cons round rounds ih =>
    apply ih
    have happend : (log.append round.data).io = none := by
      rw [Log.append, hio]
      rfl
    show (log.receive round.data round.call).io = none
    simp [Log.receive, Log.recvBuf, happend]

/-- The drain leaves nothing exactly where its last round does. -/
theorem logReadWatch_left {drain : Drain} (hspace : drain.Spacious) (log : Log) :
    (logReadWatch log drain).recvBuf = [] ↔ log.DrainsWhole drain := by
  rw [logReadWatch]
  split
  · rename_i hio
    have hbefore := Log.beforeLast_io hio drain.rounds
    refine iff_of_true (by rw [Log.recvBuf, hio]; rfl) ⟨?_, ?_⟩
    · intro _
      rw [Log.recvBuf, hbefore]
      rfl
    · intro _ hne
      exact absurd (by simp [Log.recvBuf, Log.append, hbefore]) hne
  · rw [logReadRounds_append drain.goOn, logReadRounds]
    cases hresized : drain.last.resized with
    | false =>
      rw [if_pos rfl]
      constructor
      · intro h
        exact ⟨fun _ => h, fun h => by simp [hresized] at h⟩
      · intro h
        exact h.memory hresized
    | true =>
      rw [if_neg nofun, drain.isLast]
      dsimp only
      rw [if_pos rfl]
      show (Log.receive _ _ _).recvBuf = [] ↔ _
      rw [Log.receive_left hspace.last]
      constructor
      · intro h
        exact ⟨fun h => by simp [hresized] at h, fun _ => h⟩
      · intro h
        exact h.taken hresized

end Startup
