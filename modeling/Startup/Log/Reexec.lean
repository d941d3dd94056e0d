import Startup.Log.Buffers
import Startup.State.Hex

/-!
# Logs in a re-execution (`init/log.c`)

A log is written into the state, with what is unflushed in hexadecimal digits, and the init that
comes after reads it back.  The receive buffer of its `NihIo` is not written.

* `logSerialise`, `logDeserialise`: the two directions.
* `logDeserialise_fields`: what is written is read back.
* `logReexec_iff`: what a log is behind a re-execution, and when nothing of what it holds is lost.
-/

namespace Startup

open Lib Lib.Hex

/-- What a log has besides its buffers. -/
structure LogFiles where
  path : String
  uid : Int
  /-- the descriptor of the file, while it is open -/
  fd : Int
  /-- `io->watch->fd` -/
  ioWatchFd : Int

/-- `log_new` takes the path; the limits are `_POSIX_PATH_MAX` and `PATH_MAX`. -/
def logPathAccepted (path : String) : Bool :=
  path ≠ "" && path.utf8ByteSize + 1 ≤ if path.toList.head? = some '/' then 256 else 4096

/-- What `log_new` has been called with for every log that there is. -/
structure LogFiles.Accepted (x : LogFiles) : Prop where
  path : logPathAccepted x.path = true
  uid : x.uid = 0
  ioWatchFd : 0 < x.ioWatchFd
  fd : 0 ≤ x.fd

/-- The value of `errno`. -/
def errnoNumber : Option Errno → Int
  | none => 0
  | some .eperm => 1
  | some .eintr => 4
  | some .eio => 5
  | some .eagain => 11
  | some .eacces => 13
  | some .enospc => 28
  | some .erofs => 30
  | some (.other n) => n

/-- The `errno` that has a value. -/
def errnoOf (n : Int) : Option Errno :=
  if n = 0 then none
  else if n = 1 then some .eperm
  else if n = 4 then some .eintr
  else if n = 5 then some .eio
  else if n = 11 then some .eagain
  else if n = 13 then some .eacces
  else if n = 28 then some .enospc
  else if n = 30 then some .erofs
  else some (.other n.toNat)

/-! ## Writing -/

/-- What is unflushed is offered to the file once more; the results are not looked at. -/
def logOffer (log : Log) (call : LogCall) : Log :=
  if log.unflushed = [] then log
  else
    let log := if log.fd then log else (logFileOpen log call).1
    if log.fd then (logFileWrite log [] call).1 else log

/-- The log of a process that has none, or one that is of no use. -/
def logPlaceholder : Json := .record [("path", some (stateSetJsonStringVar none))]

/-- `log_serialise`.  The number of the file is the one that it has then. -/
def logSerialise (x : LogFiles) (log : Log) (call : LogCall) : Except Fault Json :=
  if log.io = none ∧ log.unflushed = [] then .ok logPlaceholder
  else
    let log := logOffer log call
    if log.io = none then .ok logPlaceholder
    else do
      let unflushed ←
        if log.unflushed = [] then .ok none
        else (stateDataToHex log.unflushed).map fun hex => some (Json.string (String.ofList hex))
      .ok (.record [
        ("fd", some (.int (if log.fd then x.fd else -1))),
        ("io_watch_fd", some (.int x.ioWatchFd)),
        ("path", some (stateSetJsonStringVar (some x.path))),
        ("uid", some (.int x.uid)),
        ("unflushed", unflushed),
        ("detached", some (jsonBool log.detached)),
        ("remote_closed", some (jsonBool log.remoteClosed)),
        ("open_errno", some (.int (errnoNumber log.openErrno)))])

/-! ## Reading -/

/-- Why there is no log behind a re-execution: `NULL` is returned, or an assertion fails. -/
inductive LogRefusal where
  | null (r : Refusal)
  | asserted
  deriving DecidableEq

/-- A reader of a field of the log. -/
def logField {α : Type} (m : Restored α) : Except LogRefusal α := m.mapError .null

/-- What was unflushed. -/
def logUnflushed (json : Json) : Restored (List UInt8) :=
  if (json.get? "unflushed").isSome then do
    let hex ← stateGetJsonStringVarStrict json "unflushed"
    let data ← stateHexToData hex.toList
    .ok data.1
  else .ok []

/-- `log_deserialise`, where the flags of the descriptors can be changed.  The log has a new
`NihIo`. -/
def logDeserialise (json : Json) : Except LogRefusal (LogFiles × Log) := do
  logField (restoreIf json.isObject)
  -- a placeholder has no path
  let path ← logField (stateGetJsonStringVarStrict json "path")
  let ioWatchFd ← logField (stateGetJsonIntVar json "io_watch_fd")
  check .asserted (ioWatchFd ≠ -1)
  let uid ← logField (stateGetJsonIntVar json "uid")
  -- `log_new`
  check .asserted (0 < ioWatchFd)
  logField (restoreIf (uid = 0 && logPathAccepted path))
  let fd ← logField (stateGetJsonIntVar json "fd")
  let unflushed ← logField (logUnflushed json)
  let detached ← logField (stateGetJsonBoolVar json "detached")
  let remoteClosed ← logField (stateGetJsonBoolVar json "remote_closed")
  let openErrno ← logField (stateGetJsonIntVar json "open_errno")
  .ok (⟨path, uid, fd, ioWatchFd⟩, { logNew with
    fd := decide (0 ≤ fd)
    unflushed := unflushed
    detached := detached
    remoteClosed := remoteClosed
    openErrno := errnoOf openErrno })

/-- A log behind a re-execution. -/
def logReexec (x : LogFiles) (log : Log) (call : LogCall) : Except LogRefusal (LogFiles × Log) :=
  match logSerialise x log call with
  | .error _ => .error .asserted
  | .ok json => logDeserialise json

/-! ## What is offered to the file -/

variable {x : LogFiles} {log : Log} {call : LogCall}

/-- Nothing is saved. -/
theorem Log.saveNew_nil (log : Log) (pushed space : Bool) : log.saveNew [] pushed space = log := by
  have hshrink : log.shrinkRecv 0 = log := by
    cases log with
    | mk fd io unflushed openErrno detached remoteClosed received written left owed =>
      cases io <;> rfl
  have hpush : log.push [] = log := by
    rw [Log.push, List.append_nil]
  unfold Log.saveNew
  rw [hpush]
  split
  · split
    · exact hshrink
    · rfl
  · exact hshrink

/-- What is unflushed may go to the file, and nothing else changes of what a log holds. -/
structure Log.Offered (log log' : Log) : Prop where
  kept : log'.written ++ log'.unflushed = log.written ++ log.unflushed
  io : log'.io = log.io
  detached : log'.detached = log.detached
  remoteClosed : log'.remoteClosed = log.remoteClosed

theorem logFileWrite_offered (log : Log) (call : LogCall) :
    log.Offered (logFileWrite log [] call).1 ∧
      ((logFileWrite log [] call).1.unflushed = [] ↔ call.flushes log.unflushed = true) := by
  rw [logFileWrite]
  cases hflush : logFileFlush log call with
  | error errno =>
    dsimp only
    rw [Log.saveNew_nil]
    refine ⟨⟨rfl, rfl, rfl, rfl⟩, ?_⟩
    show log.unflushed = [] ↔ _
    rw [logFileFlush] at hflush
    split at hflush
    · cases hflush
    · rename_i hunflushed
      split at hflush
      · rename_i hfailed
        simp [LogCall.flushes, hunflushed, hfailed]
      · cases hflush
  | ok flushed =>
    have hunflushed := logFileFlush_unflushed hflush
    have hoffered : log.Offered flushed := by
      rw [logFileFlush] at hflush
      split at hflush
      · cases hflush
        exact ⟨rfl, rfl, rfl, rfl⟩
      · split at hflush
        · cases hflush
        · rename_i n _
          cases hflush
          refine ⟨?_, rfl, rfl, rfl⟩
          rw [List.append_assoc, List.take_append_drop]
    dsimp only
    split
    · rw [Log.saveNew_nil]
      exact ⟨⟨hoffered.kept, hoffered.io, hoffered.detached, hoffered.remoteClosed⟩, hunflushed⟩
    · rw [if_pos rfl]
      exact ⟨hoffered, hunflushed⟩

/-- The file takes all that is unflushed. -/
def Log.Taken (log : Log) (call : LogCall) : Prop :=
  log.unflushed = [] ∨ ((log.fd || call.opens false) && call.flushes log.unflushed) = true

theorem logOffer_offered (log : Log) (call : LogCall) :
    log.Offered (logOffer log call) ∧
      ((logOffer log call).unflushed = [] ↔ log.Taken call) := by
  unfold logOffer Log.Taken
  split
  · rename_i hempty
    exact ⟨⟨rfl, rfl, rfl, rfl⟩, iff_of_true hempty (.inl hempty)⟩
  · rename_i hne
    dsimp only
    cases hfd : log.fd with
    | true =>
      rw [if_pos rfl, hfd, if_pos rfl, or_iff_right hne]
      obtain ⟨hoffered, htaken⟩ := logFileWrite_offered log call
      exact ⟨hoffered, htaken.trans (by simp)⟩
    | false =>
      have hclosed : (log.fd && decide (call.nlink ≠ 0)) = false := by simp [hfd]
      rw [if_neg Bool.false_ne_true]
      cases hopened : call.opened with
      | failed errno =>
        have hopen : logFileOpen log call =
            ({ log with fd := false, openErrno := some errno }, false) := by
          rw [logFileOpen, hclosed, hopened]
          rfl
        rw [hopen, if_neg Bool.false_ne_true]
        refine ⟨⟨rfl, rfl, rfl, rfl⟩, ?_⟩
        show log.unflushed = [] ↔ _
        simp [hne, LogCall.opens, hopened]
      | opened errno =>
        have hopen : logFileOpen log call = ({ log with fd := true, openErrno := errno }, true) := by
          rw [logFileOpen, hclosed, hopened]
          rfl
        rw [hopen, if_pos rfl, or_iff_right hne]
        obtain ⟨hoffered, htaken⟩ :=
          logFileWrite_offered { log with fd := true, openErrno := errno } call
        refine ⟨⟨hoffered.kept, hoffered.io, hoffered.detached, hoffered.remoteClosed⟩, ?_⟩
        refine htaken.trans ?_
        simp [LogCall.opens, hopened]

/-! ## What is read back -/

/-- What was unflushed is read back from its digits. -/
theorem logUnflushed_ok {json : Json} {data : List UInt8}
    (h : json.get? "unflushed" = if data = [] then none
      else some (.string (String.ofList (data.flatMap byteDigits)))) :
    logUnflushed json = .ok data := by
  unfold logUnflushed
  by_cases hempty : data = []
  · rw [if_pos hempty] at h
    rw [h, if_neg (by simp), hempty]
  · rw [if_neg hempty] at h
    obtain ⟨hex, hwritten, hread⟩ := hexRoundTrips hempty
    rw [stateDataToHex_eq hempty] at hwritten
    cases hwritten
    rw [h, if_pos (by simp), stringVarStrict_ok h]
    show (stateHexToData (String.ofList _).toList >>= fun data => .ok data.1) = _
    rw [String.toList_ofList, hread]
    rfl

/-- The fields that are written for a log with an `NihIo`. -/
def logFields (x : LogFiles) (log : Log) : List (String × Option Json) := [
  ("fd", some (.int (if log.fd then x.fd else -1))),
  ("io_watch_fd", some (.int x.ioWatchFd)),
  ("path", some (stateSetJsonStringVar (some x.path))),
  ("uid", some (.int x.uid)),
  ("unflushed", if log.unflushed = [] then none
    else some (.string (String.ofList (log.unflushed.flatMap byteDigits)))),
  ("detached", some (jsonBool log.detached)),
  ("remote_closed", some (jsonBool log.remoteClosed)),
  ("open_errno", some (.int (errnoNumber log.openErrno)))]

theorem logSerialise_fields (x : LogFiles) (call : LogCall) (hio : log.io ≠ none) :
    logSerialise x log call = .ok (.record (logFields x (logOffer log call))) := by
  have hoffer : (logOffer log call).io ≠ none := by
    rw [(logOffer_offered log call).1.io]
    exact hio
  rw [logSerialise, if_neg fun h => hio h.1]
  dsimp only
  rw [if_neg hoffer, logFields]
  by_cases hempty : (logOffer log call).unflushed = []
  · rw [if_pos hempty, if_pos hempty]
    rfl
  · rw [if_neg hempty, if_neg hempty, stateDataToHex_eq hempty]
    rfl

/-- The log that is read back: with a new `NihIo`, and without what only the model keeps. -/
def Log.behind (log : Log) : Log :=
  { logNew with
    fd := log.fd
    unflushed := log.unflushed
    detached := log.detached
    remoteClosed := log.remoteClosed
    openErrno := errnoOf (errnoNumber log.openErrno) }

/-- What is written for a log is read back. -/
theorem logDeserialise_fields (hx : x.Accepted) (log : Log) :
    logDeserialise (.record (logFields x log)) =
      .ok ({ x with fd := if log.fd then x.fd else -1 }, log.behind) := by
  have hget := fun key => Json.get?_record key (logFields x log) (by simp [logFields])
  generalize hjson : Json.record (logFields x log) = json at hget ⊢
  have hobject : json.isObject = true := by rw [← hjson]; rfl
  have hpath : stateGetJsonStringVarStrict json "path" = .ok x.path :=
    stringVarStrict_ok (by rw [hget]; rfl)
  have hio : stateGetJsonIntVar json "io_watch_fd" = .ok x.ioWatchFd :=
    intVar_ok (by rw [hget]; rfl)
  have huid : stateGetJsonIntVar json "uid" = .ok x.uid := intVar_ok (by rw [hget]; rfl)
  have hfd : stateGetJsonIntVar json "fd" = .ok (if log.fd then x.fd else -1) :=
    intVar_ok (by rw [hget]; rfl)
  have hunflushed : logUnflushed json = .ok log.unflushed := by
    refine logUnflushed_ok ?_
    rw [hget]
    rfl
  have hdetached : stateGetJsonBoolVar json "detached" = .ok log.detached :=
    boolVar_ok (by rw [hget]; rfl)
  have hremote : stateGetJsonBoolVar json "remote_closed" = .ok log.remoteClosed :=
    boolVar_ok (by rw [hget]; rfl)
  have herrno : stateGetJsonIntVar json "open_errno" = .ok (errnoNumber log.openErrno) :=
    intVar_ok (by rw [hget]; rfl)
  have hwatch : x.ioWatchFd ≠ -1 := by
    have hpos := hx.ioWatchFd
    omega
  have hopen : decide ((0 : Int) ≤ if log.fd then x.fd else -1) = log.fd := by
    have hnonneg := hx.fd
    cases log.fd <;> simp [hnonneg]
  unfold logDeserialise
  rw [hobject, hpath, hio, huid, hfd, hunflushed, hdetached, hremote, herrno]
  simp only [logField, Except.mapError, restoreIf, check_true, bind, Except.bind, hwatch,
    hx.ioWatchFd, hx.uid, hx.path, decide_true, Bool.and_true, ne_eq, not_false_iff, hopen]
  rfl

/-! ## What is lost -/

/-- What the file has taken and what the log that is restored holds. -/
def heldBehind (written : List UInt8) : Except LogRefusal (LogFiles × Log) → List UInt8
  | .ok r => written ++ r.2.content
  | .error _ => written

/-- Whatever the calls come to: behind a re-execution a log with an `NihIo` is as it was when it
had been offered to its file, and it holds the same text, in its order, exactly if its receive
buffer was empty.  A log without one is not restored, and what it held is kept exactly if the file
took all of it. -/
theorem logReexec_iff (hx : x.Accepted) (log : Log) (call : LogCall) :
    (∀ recv, log.io = some recv → ∃ fd, logReexec x log call =
      .ok ({ x with fd := fd }, (logOffer log call).behind)) ∧
    (log.io = none → logReexec x log call = .error (.null .refused)) ∧
    (heldBehind (logOffer log call).written (logReexec x log call) = log.content ↔
      if log.io = none then log.Taken call else log.recvBuf = []) := by
  obtain ⟨hoffered, htaken⟩ := logOffer_offered log call
  have hcontent : log.content =
      (logOffer log call).written ++ (logOffer log call).unflushed ++ log.recvBuf := by
    rw [hoffered.kept, Log.content]
  cases hio : log.io with
  | none =>
    have hplaceholder : logDeserialise logPlaceholder = .error (.null .refused) := rfl
    have hwritten : logSerialise x log call = .ok logPlaceholder := by
      unfold logSerialise
      split
      · rfl
      · dsimp only
        rw [if_pos (hoffered.io.trans hio)]
    have hreexec : logReexec x log call = .error (.null .refused) := by
      rw [logReexec, hwritten]
      exact hplaceholder
    have hempty : log.recvBuf = [] := by rw [Log.recvBuf, hio]; rfl
    refine ⟨by rintro recv ⟨⟩, fun _ => hreexec, ?_⟩
    rw [hreexec, hcontent, hempty, List.append_nil, if_pos rfl, ← htaken]
    exact List.self_eq_append_right
  | some recv =>
    have hreexec : logReexec x log call =
        .ok ({ x with fd := if (logOffer log call).fd then x.fd else -1 },
          (logOffer log call).behind) := by
      rw [logReexec, logSerialise_fields x call (by rw [hio]; exact Option.some_ne_none _)]
      exact logDeserialise_fields hx _
    refine ⟨fun _ _ => ⟨_, hreexec⟩, by rintro ⟨⟩, ?_⟩
    have hbehind : (logOffer log call).behind.content = (logOffer log call).unflushed := by
      simp [Log.behind, Log.content, Log.recvBuf, logNew]
    rw [hreexec, heldBehind, hbehind, hcontent, if_neg (by simp)]
    exact List.self_eq_append_right

/-- Calls that fail, on a file that is open. -/
def callFailing : LogCall := ⟨1, .failed .eio, .failed .eio, .failed .eio, true⟩

/-- A log that has got a part of its text to its file, and keeps two bytes that have just come. -/
def readingLog : Log :=
  { logNew with
    fd := true
    io := some [2, 3]
    unflushed := [1]
    received := [0, 1, 2, 3]
    written := [0] }

/-- The file does not take anything. -/
theorem logReexec_iff_reading :
    ∃ fd, logReexec ⟨"/var/log/startup/web.log", 0, 7, 8⟩ readingLog callFailing =
        .ok (⟨"/var/log/startup/web.log", 0, fd, 8⟩, (logOffer readingLog callFailing).behind) ∧
      heldBehind (logOffer readingLog callFailing).written
        (logReexec ⟨"/var/log/startup/web.log", 0, 7, 8⟩ readingLog callFailing) ≠
          readingLog.content := by
  have hx : LogFiles.Accepted ⟨"/var/log/startup/web.log", 0, 7, 8⟩ :=
    ⟨by decide, rfl, by decide, by decide⟩
  obtain ⟨hrestored, -, hheld⟩ := logReexec_iff hx readingLog callFailing
  obtain ⟨fd, hfd⟩ := hrestored [2, 3] rfl
  have hreading : readingLog.io ≠ none := by decide
  rw [if_neg hreading] at hheld
  exact ⟨fd, hfd, mt hheld.mp (by decide)⟩

end Startup
