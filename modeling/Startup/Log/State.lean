import Startup.Basic
import Startup.Lib.Syscall
import Startup.Lib.Run

/-!
# Logs of jobs (`init/log.c`)

The output of a process goes from its pseudo terminal to the receive buffer of an `NihIo`, and from
there to the log file or, as long as the file takes nothing, to the unflushed buffer of the log.

* `Log`: a log with its two buffers;
* `logFileWrite`, `logIoReader`, `logReadWatch`: what is moved between them;
* `Logs`: all logs, those of running processes and those on the list of unflushed logs.

The outcomes of the system calls are arguments.
-/

namespace Startup

open Lib

/-- A log. -/
structure Log where
  /-- the log file is open -/
  fd : Bool
  /-- the receive buffer of the `NihIo`, while there is one -/
  io : Option (List UInt8)
  unflushed : List UInt8
  /-- the `errno` of the last `open`, if it was not zero -/
  openErrno : Option Errno
  detached : Bool
  remoteClosed : Bool
  /-- ghost: what the process has sent -/
  received : List UInt8
  /-- ghost: what the log files have taken -/
  written : List UInt8
  /-- ghost: what was in the receive buffer when `log_handle_unflushed` had drained it -/
  left : List UInt8
  /-- ghost: what was written then, and what was in the unflushed buffer -/
  owed : List UInt8

/-- What the system calls come to when some text is handed to a log. -/
structure LogCall where
  /-- the links of the open file, none where `fstat` fails -/
  nlink : Nat
  opened : OpenOutcome
  /-- the `write` of the unflushed buffer -/
  flush : WriteOutcome
  /-- the `write` of the text -/
  write : WriteOutcome
  /-- there is memory for `nih_io_buffer_push` -/
  pushed : Bool

/-- `log_new`. -/
def logNew : Log where
  fd := false
  io := some []
  unflushed := []
  openErrno := none
  detached := false
  remoteClosed := false
  received := []
  written := []
  left := []
  owed := []

/-- What is in the receive buffer. -/
def Log.recvBuf (log : Log) : List UInt8 := log.io.getD []

/-- `nih_io_buffer_shrink` of the receive buffer. -/
def Log.shrinkRecv (log : Log) (len : Nat) : Log := { log with io := log.io.map (List.drop len) }

/-- `nih_io_buffer_push` onto the unflushed buffer. -/
def Log.push (log : Log) (buf : List UInt8) : Log :=
  { log with unflushed := log.unflushed ++ buf }

/-- The log file is closed. -/
def Log.closeFile (log : Log) : Log := { log with fd := false }

/-- `log_file_open`, and whether it succeeds.  A file that was deleted is closed first. -/
def logFileOpen (log : Log) (call : LogCall) : Log × Bool :=
  if log.fd && call.nlink ≠ 0 then (log, true)
  else
    match call.opened with
    | .opened errno => ({ log with fd := true, openErrno := errno }, true)
    | .failed errno => ({ log with fd := false, openErrno := some errno }, false)

/-- The unflushed buffer is handed to the file: what `write` comes to, and the log without what was
taken. -/
def logFileFlush (log : Log) (call : LogCall) : Except Errno Log :=
  if log.unflushed = [] then .ok log
  else
    match call.flush with
    | .failed errno => .error errno
    | .wrote n => .ok { log with
        written := log.written ++ log.unflushed.take n
        unflushed := log.unflushed.drop n }

/-- New text that the file does not take is put behind what is unflushed, and removed from the
receive buffer.  It is dropped when there is no space. -/
def Log.saveNew (log : Log) (buf : List UInt8) (pushed space : Bool) : Log :=
  if space then if pushed then (log.push buf).shrinkRecv buf.length else log
  else log.shrinkRecv buf.length

/-- `log_file_write`, and whether it succeeds.  The text may be `NULL`, as if it were empty. -/
def logFileWrite (log : Log) (buf : List UInt8) (call : LogCall) : Log × Bool :=
  match logFileFlush log call with
  | .error errno => ((log.saveNew buf call.pushed (errno ≠ .enospc)).closeFile, false)
  | .ok log =>
    if log.unflushed ≠ [] then ((log.saveNew buf call.pushed true).closeFile, false)
    else if buf = [] then (log, true)
    else
      match call.write with
      | .failed errno => ((log.saveNew buf call.pushed (errno ≠ .enospc)).closeFile, false)
      | .wrote n =>
        let taken := buf.take n
        ({ log with written := log.written ++ taken }.shrinkRecv taken.length, true)

/-- `log_io_reader`, which is given the whole receive buffer. -/
def logIoReader (log : Log) (call : LogCall) : Log :=
  match logFileOpen log call with
  | (opened, false) =>
    opened.saveNew log.recvBuf call.pushed (opened.openErrno ≠ some .enospc)
  | (opened, true) => (logFileWrite opened log.recvBuf call).1

/-- Text is put into the receive buffer. -/
def Log.append (log : Log) (data : List UInt8) : Log :=
  { log with io := log.io.map (· ++ data), received := log.received ++ data }

/-- Text comes in, and the reader of the `NihIo` is called if there is any. -/
def Log.receive (log : Log) (data : List UInt8) (call : LogCall) : Log :=
  let log := log.append data
  if log.recvBuf = [] then log else logIoReader log call

/-- `log_io_error_handler`: the `NihIo` is freed with its buffers. -/
def logIoErrorHandler (log : Log) : Log := { log with io := none, remoteClosed := true }

/-! ## The end of a process -/

/-- A round of the loop of `log_read_watch`. -/
structure DrainRound where
  /-- there is memory for `nih_io_buffer_resize` -/
  resized : Bool
  read : ReadOutcome
  call : LogCall

/-- What is read in a round. -/
def DrainRound.data (round : DrainRound) : List UInt8 :=
  match round.read with
  | .bytes data => data
  | .failed _ => []

/-- The loop is left behind the round. -/
def DrainRound.isLast (round : DrainRound) : Bool :=
  !round.resized ||
    match round.read with
    | .bytes data => data = []
    | .failed errno => errno ≠ .eintr

/-- The other end has been closed, as far as the error tells. -/
def DrainRound.hungUp (round : DrainRound) : Bool :=
  match round.read with
  | .bytes _ => false
  | .failed errno => errno ≠ .eagain

/-- All rounds of the loop. -/
structure Drain where
  rounds : List DrainRound
  last : DrainRound
  goOn : ∀ round ∈ rounds, round.isLast = false
  isLast : last.isLast = true

/-- The loop of `log_read_watch`. -/
def logReadRounds (log : Log) : List DrainRound → Log
  | [] => log
  | round :: rounds =>
    if round.resized = false then log
    else
      let log := log.receive round.data round.call
      if round.isLast then
        { log with fd := false, remoteClosed := log.remoteClosed || round.hungUp }
      else logReadRounds log rounds

/-- `log_read_watch`. -/
def logReadWatch (log : Log) (drain : Drain) : Log :=
  if log.io = none then log else logReadRounds log (drain.rounds ++ [drain.last])

/-- What the system calls come to when a log is freed. -/
structure Freeing where
  call : LogCall
  drain : Drain

/-- `log_flush`, which is the destructor's work: what is unflushed is written, and then what is
still to be read.  The last of the buffers is freed with the log. -/
def logFlush (log : Log) (freeing : Freeing) : Log :=
  let readOn (log : Log) : Log :=
    (if log.remoteClosed then log else logReadWatch log freeing.drain).closeFile
  if log.unflushed = [] then readOn log
  else
    match logFileOpen log freeing.call with
    | (log, false) => log.closeFile
    | (log, true) =>
      match logFileWrite log [] freeing.call with
      | (log, false) => log.closeFile
      | (log, true) => readOn log

/-- The file may be writable later. -/
def Errno.isReadOnly : Errno → Bool
  | .erofs | .eperm | .eacces => true
  | _ => false

/-- `log_handle_unflushed`, with what is left and owed when it has drained the log.  `flushed` is
`log_flushed`, and `memory` whether there is some for an entry of the list. -/
def logHandleUnflushed (flushed : Bool) (log : Log) (drain : Drain) (memory : Bool) :
    Except Fault (Int × Log) := do
  nihAssert .logHandleUnflushed (!log.detached)
  let log := logReadWatch log drain
  let log := { log with left := log.recvBuf, owed := log.written ++ log.unflushed }
  if log.unflushed = [] then .ok (1, log)
  else if !log.openErrno.any Errno.isReadOnly || flushed then .ok (1, log)
  else if !memory then .ok (-1, log)
  else .ok (0, { log with detached := true })

/-! ## The list of unflushed logs -/

/-- What the system calls come to for one entry of the list. -/
structure Visit where
  call : LogCall
  freeing : Freeing

/-- `log_clear_unflushed`: what it returns, the logs that stay on the list, and those that are
freed.  `visit` tells what happens for each entry. -/
def logClearUnflushed (visit : Nat → Visit) : List Log → Except Fault (Int × List Log × List Log)
  | [] => .ok (0, [], [])
  | log :: logs => do
    if log.unflushed = [] then
      let (ret, stay, freed) ← logClearUnflushed (fun n => visit (n + 1)) logs
      -- `log->io` is `NULL` when the log is freed, so that nothing more is read
      .ok (ret, stay, log.closeFile :: freed)
    else
      nihAssert .logClearUnflushed log.detached
      nihAssert .logClearUnflushed log.openErrno.isSome
      nihAssert .logClearUnflushed (log.remoteClosed || log.io.isSome)
      match logFileOpen log (visit 0).call with
      | (log, false) => .ok (-1, log :: logs, [])
      | (log, true) =>
        match logFileWrite log [] (visit 0).call with
        | (log, false) => .ok (-1, log :: logs, [])
        | (log, true) =>
          let (ret, stay, freed) ← logClearUnflushed (fun n => visit (n + 1)) logs
          .ok (ret, stay, logFlush log (visit 0).freeing :: freed)

/-- All logs that there are and were. -/
structure Logs where
  /-- the logs of the processes of jobs -/
  attached : List Log
  /-- `log_unflushed_files` -/
  unflushedFiles : List Log
  /-- ghost: the logs that were freed when their processes had ended -/
  gone : List Log
  /-- ghost: the logs that were freed when the list was cleared -/
  cleared : List Log
  /-- `log_flushed` -/
  flushed : Bool

/-- What happens to the logs. -/
inductive LogStep where
  | new
  /-- text can be read for a log, which is on the list if it is `detached` -/
  | readable (detached : Bool) (i : Nat) (data : List UInt8) (call : LogCall)
  /-- reading from a log fails with `EIO` -/
  | hangup (detached : Bool) (i : Nat)
  /-- the process of a log has ended; the log is freed if it does not get on the list -/
  | exited (i : Nat) (drain : Drain) (memory : Bool) (freeing : Freeing)
  | clear (visit : Nat → Visit)

/-- A function is called for one log. -/
def Logs.modify (s : Logs) (detached : Bool) (i : Nat) (f : Log → Log) : Logs :=
  if detached then { s with unflushedFiles := s.unflushedFiles.modify i f }
  else { s with attached := s.attached.modify i f }

/-- A step of init. -/
def Logs.step (s : Logs) : LogStep → Except Fault Logs
  | .new => .ok { s with attached := s.attached ++ [logNew] }
  | .readable detached i data call =>
    .ok (s.modify detached i fun log => if log.io = none then log else log.receive data call)
  | .hangup detached i => .ok (s.modify detached i logIoErrorHandler)
  | .exited i drain memory freeing =>
    match s.attached[i]? with
    | none => .ok s
    | some log => do
      let (ret, log) ← logHandleUnflushed s.flushed log drain memory
      let s := { s with attached := s.attached.eraseIdx i }
      if ret = 0 then .ok { s with unflushedFiles := log :: s.unflushedFiles }
      else .ok { s with gone := logFlush log freeing :: s.gone }
  | .clear visit => do
    let (ret, stay, freed) ← logClearUnflushed visit s.unflushedFiles
    .ok { s with
      unflushedFiles := stay
      cleared := freed ++ s.cleared
      flushed := s.flushed || ret = 0 }

/-- No log yet. -/
def noLogs : Logs where
  attached := []
  unflushedFiles := []
  gone := []
  cleared := []
  flushed := false

end Startup
