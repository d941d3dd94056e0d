import Mathlib.Data.List.Basic
import Mathlib.Tactic.Common

/-!
# Outcomes of system calls on a descriptor

What `select`, `open`, `read` and `write` may come to, each time that they are called.

* `obtained`: the text that a sequence of reads gets, up to the end of the file;
* `Outcomes`: what the calls of a whole run come to, one of which may never return.
-/

namespace Startup.Lib

/-- The values of `errno` that are told apart; `EWOULDBLOCK` is `EAGAIN`. -/
inductive Errno where
  | eintr
  | eagain
  | enospc
  | erofs
  | eperm
  | eacces
  | eio
  | other (n : Nat)
  deriving DecidableEq, Repr

/-- The call may succeed when it is made again. -/
def Errno.retries : Errno → Bool
  | .eintr | .eagain => true
  | _ => false

/-- `select` on one descriptor. -/
inductive SelectOutcome where
  | ready
  | timeout
  | failed (errno : Errno)
  deriving DecidableEq

/-- What `select` returns. -/
def SelectOutcome.ret : SelectOutcome → Int
  | .ready => 1
  | .timeout => 0
  | .failed _ => -1

/-- The descriptor is in the set when `select` returns.  A call that fails leaves the set as it
is. -/
def SelectOutcome.isSet : SelectOutcome → Bool
  | .ready | .failed _ => true
  | .timeout => false

/-- `open`, and the value of `errno` behind it.  A call that succeeds leaves `errno` as it was. -/
inductive OpenOutcome where
  | opened (errno : Option Errno)
  | failed (errno : Errno)
  deriving DecidableEq

/-- `read`: no bytes are the end of the file. -/
inductive ReadOutcome where
  | bytes (data : List UInt8)
  | failed (errno : Errno)
  deriving DecidableEq

/-- `write`: how many bytes were taken, at most. -/
inductive WriteOutcome where
  | wrote (n : Nat)
  | failed (errno : Errno)
  deriving DecidableEq

/-- The bytes of a sequence of reads. -/
def obtained : List ReadOutcome → List UInt8
  | [] => []
  | .bytes data :: reads => data ++ obtained reads
  | .failed _ :: reads => obtained reads

/-- The outcomes of the calls of a run, one after the other.  A call without an outcome does not
return, and is the last one. -/
abbrev Outcomes (α : Type) := Nat → Option α

namespace Outcomes

variable {α : Type}

/-- The outcomes after the first one. -/
def tail (outcomes : Outcomes α) : Outcomes α := fun i => outcomes (i + 1)

/-- The outcomes of the first `n` calls, as far as they return. -/
def upTo (outcomes : Outcomes α) : Nat → List α
  | 0 => []
  | n + 1 =>
    match outcomes 0 with
    | none => []
    | some outcome => outcome :: outcomes.tail.upTo n

/-- The calls with these outcomes, and then one that does not return. -/
def ofList (l : List α) : Outcomes α := fun i => l[i]?

variable {outcomes : Outcomes α} {outcome : α}

theorem upTo_of_none (h : outcomes 0 = none) (n : Nat) : outcomes.upTo n = [] := by
  cases n with
  | zero => rfl
  | succ n => rw [upTo, h]

theorem upTo_of_some (h : outcomes 0 = some outcome) (n : Nat) :
    outcomes.upTo (n + 1) = outcome :: outcomes.tail.upTo n := by
  rw [upTo, h]

end Outcomes

end Startup.Lib
