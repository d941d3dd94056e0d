import Startup.Basic
import Startup.Lib.Syscall
import Mathlib.Data.List.TakeDrop

/-!
# The transfer of the state (`init/state.c`)

The text goes through a pipe from a child to the new instance of init.  Both ends wait for the
pipe with `select` before they use it.

* `selectLoop`: the loop in which they wait;
* `stateRead`, `stateWrite`: the two ends, for any outcomes of the system calls;
* `stateTransfer_iff`: the outcomes for which they do what they are to do.
-/

namespace Startup

open Lib

/-- Where a function is, or how it ended. -/
inductive Progress where
  /-- in `select`, for which there is no outcome yet -/
  | selecting
  /-- in `read` or `write` -/
  | transferring
  | returned (ret : Int)
  | assertFailed (fn : SourceFn)
  deriving DecidableEq

/-- The loop around `select`: what it returned when the loop was left, or how the function
ended. -/
def selectLoop : List SelectOutcome → Except Progress Int
  | [] => .error .selecting
  | outcome :: outcomes =>
    match outcome with
    | .failed errno =>
      if errno.retries = false then .error (.returned (-1))
      else if outcome.isSet then .ok outcome.ret
      else selectLoop outcomes
    | _ => if outcome.isSet then .ok outcome.ret else selectLoop outcomes

/-- The loop of `state_read_objects`, with what is in the buffer.  `fromString` says for which
texts `state_from_string` succeeds.  Without memory for the buffer the loop ends as it does when
`read` fails. -/
def stateReadObjects (fromString : List UInt8 → Bool) (buffer : List UInt8) :
    List ReadOutcome → Progress
  | [] => .transferring
  | .failed errno :: reads =>
    if errno.retries then stateReadObjects fromString buffer reads else .returned (-1)
  | .bytes data :: reads =>
    if data = [] then if fromString buffer then .returned 0 else .returned (-1)
    else stateReadObjects fromString (buffer ++ data) reads

/-- `state_read`. -/
def stateRead (fromString : List UInt8 → Bool) (fd : Int) (selects : List SelectOutcome)
    (reads : List ReadOutcome) : Progress :=
  if fd = -1 then .assertFailed .stateRead
  else
    match selectLoop selects with
    | .error progress => progress
    | .ok ret =>
      if ret ≠ 1 then .assertFailed .stateRead else stateReadObjects fromString [] reads

/-- `state_write_objects`: what it returns, and what was sent. -/
def stateWriteObjects (stateData : List UInt8) : List WriteOutcome → Progress × List UInt8
  | [] => (.transferring, [])
  | .failed _ :: _ => (.returned (-1), [])
  | .wrote n :: _ => (.returned 0, stateData.take n)

/-- `state_write` in the process `pid`: what it returns, and what was sent. -/
def stateWrite (fd : Int) (pid : Nat) (stateData : List UInt8) (selects : List SelectOutcome)
    (writes : List WriteOutcome) : Progress × List UInt8 :=
  if fd = -1 ∨ stateData.length = 0 ∨ pid = 1 then (.assertFailed .stateWrite, [])
  else
    match selectLoop selects with
    | .error progress => (progress, [])
    | .ok ret =>
      if ret ≠ 1 then (.assertFailed .stateWrite, []) else stateWriteObjects stateData writes

/-! ## What the transfer is to do -/

/-- A run of one of the functions, by the number of calls whose outcomes it has had: it reaches no
assertion, it returns, and a timeout ends it as a failure. -/
structure WaitsRight (run : Nat → Progress) (selects : Outcomes SelectOutcome) : Prop where
  asserts : ∀ n fn, run n ≠ .assertFailed fn
  ends : ∃ n ret, run n = .returned ret
  timeout : ∀ n, selects.upTo (n + 1) = selects.upTo n ++ [.timeout] → run n = .selecting →
    run (n + 1) = .returned (-1)

/-- `state_read` ends, and a success has obtained all text up to the end of the file. -/
structure ReadsRight (fromString : List UInt8 → Bool) (fd : Int)
    (selects : Outcomes SelectOutcome) (reads : Outcomes ReadOutcome) : Prop where
  waits : WaitsRight (fun n => stateRead fromString fd (selects.upTo n) (reads.upTo n)) selects
  complete : ∀ n, stateRead fromString fd (selects.upTo n) (reads.upTo n) = .returned 0 →
    ∃ before after, reads.upTo n = before ++ .bytes [] :: after ∧ .bytes [] ∉ before ∧
      fromString (obtained before) = true

/-- `state_write` ends, and a success has sent the whole text. -/
structure WritesRight (fd : Int) (pid : Nat) (stateData : List UInt8)
    (selects : Outcomes SelectOutcome) (writes : Outcomes WriteOutcome) : Prop where
  waits : WaitsRight
    (fun n => (stateWrite fd pid stateData (selects.upTo n) (writes.upTo n)).1) selects
  complete : ∀ n,
    (stateWrite fd pid stateData (selects.upTo n) (writes.upTo n)).1 = .returned 0 →
      (stateWrite fd pid stateData (selects.upTo n) (writes.upTo n)).2 = stateData

/-- The first `select` returns, and is neither interrupted nor runs out of time. -/
def FirstDecides (selects : Outcomes SelectOutcome) : Prop :=
  ∃ outcome, selects 0 = some outcome ∧
    (outcome = .ready ∨ ∃ errno, outcome = .failed errno ∧ errno.retries = false)

/-- Every `read` returns until one comes to the end of the file or fails for good. -/
def ReadsEnd (reads : Outcomes ReadOutcome) : Prop :=
  ∃ n, (∀ i < n, (reads i).isSome = true) ∧
    (reads n = some (.bytes []) ∨ ∃ errno, reads n = some (.failed errno) ∧ errno.retries = false)

/-- The first `write` fails or takes the whole text. -/
def WholeWrite (stateData : List UInt8) (writes : Outcomes WriteOutcome) : Prop :=
  ∃ outcome, writes 0 = some outcome ∧ ∀ n, outcome = .wrote n → stateData.length ≤ n

variable {fromString : List UInt8 → Bool} {selects : List SelectOutcome} {reads : List ReadOutcome}
  {writes : List WriteOutcome} {stateData buffer : List UInt8} {fd : Int} {pid : Nat}
  {fn : SourceFn}

/-! ## Waiting -/

@[simp]
theorem selectLoop_ready (selects : List SelectOutcome) :
    selectLoop (.ready :: selects) = .ok 1 := rfl

@[simp]
theorem selectLoop_timeout (selects : List SelectOutcome) :
    selectLoop (.timeout :: selects) = selectLoop selects := rfl

/-- A call that is interrupted leaves the descriptor in the set, and the loop with it. -/
theorem selectLoop_interrupted {errno : Errno} (h : errno.retries = true)
    (selects : List SelectOutcome) : selectLoop (.failed errno :: selects) = .ok (-1) := by
  simp [selectLoop, h, SelectOutcome.isSet, SelectOutcome.ret]

theorem selectLoop_failed {errno : Errno} (h : errno.retries = false)
    (selects : List SelectOutcome) :
    selectLoop (.failed errno :: selects) = .error (.returned (-1)) := by
  simp [selectLoop, h]

/-- Nothing that succeeds is returned from the loop. -/
theorem selectLoop_returned (selects : List SelectOutcome) :
    selectLoop selects ≠ .error (.returned 0) := by
  induction selects with
  | nil => nofun
  | cons outcome selects ih =>
    cases outcome with
    | ready => nofun
    | timeout => exact ih
    | failed errno =>
      cases h : errno.retries with
      | true =>
        rw [selectLoop_interrupted h]
        nofun
      | false =>
        rw [selectLoop_failed h]
        nofun

/-- What the two functions have in common: they go on with `cont` when the descriptor is ready. -/
def whenReady (fn : SourceFn) (cont : Progress) (selects : List SelectOutcome) : Progress :=
  match selectLoop selects with
  | .error progress => progress
  | .ok ret => if ret ≠ 1 then .assertFailed fn else cont

section

variable {o : Outcomes SelectOutcome} {cont : Nat → Progress}

theorem FirstDecides.of_some {outcome : SelectOutcome} (h : o 0 = some outcome) :
    FirstDecides o ↔
      outcome = .ready ∨ ∃ errno, outcome = .failed errno ∧ errno.retries = false := by
  unfold FirstDecides
  rw [h]
  simp

/-- Waiting is right exactly where the first `select` decides, and what follows it ends. -/
theorem waitsRight_iff (fn : SourceFn) (hassert : ∀ n fn, cont n ≠ .assertFailed fn)
    (hcont : ∀ n, cont n ≠ .selecting) (hzero : ∀ ret, cont 0 ≠ .returned ret) :
    WaitsRight (fun n => whenReady fn (cont n) (o.upTo n)) o ↔
      FirstDecides o ∧ (o 0 = some .ready → ∃ n ret, cont n = .returned ret) := by
  cases ho : o 0 with
  | none =>
    -- the first call does not return
    refine iff_of_false ?_ ?_
    · intro h
      obtain ⟨n, ret, hret⟩ := h.ends
      rw [Outcomes.upTo_of_none ho] at hret
      cases hret
    · rintro ⟨⟨outcome, houtcome, -⟩, -⟩
      rw [ho] at houtcome
      cases houtcome
  | some outcome =>
    rw [FirstDecides.of_some ho]
    have hupTo := Outcomes.upTo_of_some ho
    cases outcome with
    | ready =>
      have hrun : ∀ n, whenReady fn (cont (n + 1)) (o.upTo (n + 1)) = cont (n + 1) := by
        intro n
        rw [hupTo]
        rfl
      constructor
      · intro h
        refine ⟨.inl rfl, fun _ => ?_⟩
        obtain ⟨n, ret, hret⟩ := h.ends
        cases n with
        | zero => cases hret
        | succ n => exact ⟨n + 1, ret, (hrun n).symm.trans hret⟩
      · rintro ⟨-, hends⟩
        obtain ⟨n, ret, hret⟩ := hends rfl
        refine ⟨fun n fn' => ?_, ?_, fun n hlast hselecting => ?_⟩
        · cases n with
          | zero => nofun
          | succ n => exact (hrun n).symm ▸ hassert (n + 1) fn'
        · cases n with
          | zero => exact absurd hret (hzero ret)
          | succ n => exact ⟨n + 1, ret, (hrun n).trans hret⟩
        · cases n with
          | zero =>
            rw [hupTo] at hlast
            cases hlast
          | succ n => exact absurd ((hrun n).symm.trans hselecting) (hcont (n + 1))
    | timeout =>
      refine iff_of_false ?_ (by simp)
      intro h
      have hone := h.timeout 0 (by rw [hupTo]; rfl) rfl
      rw [hupTo] at hone
      cases hone
    | failed errno =>
      cases hretries : errno.retries with
      | true =>
        refine iff_of_false ?_ (by simp [hretries])
        intro h
        apply h.asserts 1 fn
        rw [hupTo, whenReady, selectLoop_interrupted hretries]
        rfl
      | false =>
        have hrun : ∀ n, whenReady fn (cont (n + 1)) (o.upTo (n + 1)) = .returned (-1) := by
          intro n
          rw [hupTo, whenReady, selectLoop_failed hretries]
        refine iff_of_true ⟨fun n fn' => ?_, ⟨1, -1, hrun 0⟩, fun n hlast hselecting => ?_⟩
          ⟨.inr ⟨errno, rfl, hretries⟩, nofun⟩
        · cases n with
          | zero => nofun
          | succ n =>
            rw [hrun]
            nofun
        · exact hrun n

end

/-! ## Reading -/

/-- Reading never goes back to `select`, and reaches no assertion. -/
theorem stateReadObjects_progress (fromString : List UInt8 → Bool) (buffer : List UInt8)
    (reads : List ReadOutcome) :
    (∀ fn, stateReadObjects fromString buffer reads ≠ .assertFailed fn) ∧
      stateReadObjects fromString buffer reads ≠ .selecting := by
  induction reads generalizing buffer with
  | nil => exact ⟨nofun, nofun⟩
  | cons outcome reads ih =>
    cases outcome with
    | failed errno =>
      rw [stateReadObjects]
      split
      · exact ih buffer
      · exact ⟨nofun, nofun⟩
    | bytes data =>
      rw [stateReadObjects]
      split
      · split
        · exact ⟨nofun, nofun⟩
        · exact ⟨nofun, nofun⟩
      · exact ih _

/-- It succeeds at the end of the file only, with all that was read. -/
theorem stateReadObjects_complete
    (h : stateReadObjects fromString buffer reads = .returned 0) :
    ∃ before after, reads = before ++ .bytes [] :: after ∧ .bytes [] ∉ before ∧
      fromString (buffer ++ obtained before) = true := by
  induction reads generalizing buffer with
  | nil => cases h
  | cons outcome reads ih =>
    cases outcome with
    | failed errno =>
      rw [stateReadObjects] at h
      split at h
      · obtain ⟨before, after, rfl, hnot, hok⟩ := ih h
        exact ⟨.failed errno :: before, after, rfl, by simpa using hnot, hok⟩
      · cases h
    | bytes data =>
      rw [stateReadObjects] at h
      split at h
      · rename_i hdata
        subst hdata
        split at h
        · rename_i hok
          exact ⟨[], reads, rfl, List.not_mem_nil, by simpa [obtained] using hok⟩
        · cases h
      · rename_i hdata
        obtain ⟨before, after, rfl, hnot, hok⟩ := ih h
        refine ⟨.bytes data :: before, after, rfl, ?_, ?_⟩
        · simpa [hdata, eq_comm] using hnot
        · simpa [obtained] using hok

/-- What holds of the other reads holds of all of them. -/
theorem ReadsEnd.of_tail {reads : Outcomes ReadOutcome} (hfirst : (reads 0).isSome = true)
    (h : ReadsEnd reads.tail) : ReadsEnd reads := by
  obtain ⟨m, hbefore, hend⟩ := h
  refine ⟨m + 1, fun i hi => ?_, hend⟩
  cases i with
  | zero => exact hfirst
  | succ i => exact hbefore i (Nat.lt_of_succ_lt_succ hi)

/-- Where the loop returns, the reads have come to an end. -/
theorem stateReadObjects_readsEnd {reads : Outcomes ReadOutcome} {n : Nat} {ret : Int}
    (hret : stateReadObjects fromString buffer (reads.upTo n) = .returned ret) :
    ReadsEnd reads := by
  induction n generalizing reads buffer with
  | zero => cases hret
  | succ n ih =>
    cases hfirst : reads 0 with
    | none =>
      rw [Outcomes.upTo_of_none hfirst] at hret
      cases hret
    | some outcome =>
      rw [Outcomes.upTo_of_some hfirst] at hret
      have hlater : ReadsEnd reads.tail → ReadsEnd reads := .of_tail (by rw [hfirst]; rfl)
      cases outcome with
      | failed errno =>
        rw [stateReadObjects] at hret
        split at hret
        · exact hlater (ih hret)
        · rename_i hretries
          exact ⟨0, nofun, .inr ⟨errno, hfirst, by simpa using hretries⟩⟩
      | bytes data =>
        rw [stateReadObjects] at hret
        split at hret
        · rename_i hdata
          exact ⟨0, nofun, .inl (by rw [hfirst, hdata])⟩
        · exact hlater (ih hret)

/-- Where the reads come to an end, the loop returns. -/
theorem ReadsEnd.returns {reads : Outcomes ReadOutcome} (h : ReadsEnd reads)
    (fromString : List UInt8 → Bool) (buffer : List UInt8) :
    ∃ n ret, stateReadObjects fromString buffer (reads.upTo n) = .returned ret := by
  obtain ⟨n, hbefore, hend⟩ := h
  induction n generalizing reads buffer with
  | zero =>
    refine ⟨1, ?_⟩
    rcases hend with hend | ⟨errno, hend, hretries⟩
    · rw [Outcomes.upTo_of_some hend, stateReadObjects, if_pos rfl]
      split
      · exact ⟨0, rfl⟩
      · exact ⟨-1, rfl⟩
    · rw [Outcomes.upTo_of_some hend, stateReadObjects, hretries]
      exact ⟨-1, rfl⟩
  | succ n ih =>
    obtain ⟨outcome, hfirst⟩ := Option.isSome_iff_exists.mp (hbefore 0 n.succ_pos)
    have hrest : ∀ buffer, ∃ m ret,
        stateReadObjects fromString buffer (reads.tail.upTo m) = .returned ret :=
      fun buffer => ih buffer (fun i hi => hbefore (i + 1) (by omega)) hend
    cases outcome with
    | failed errno =>
      cases hretries : errno.retries with
      | true =>
        obtain ⟨m, ret, hret⟩ := hrest buffer
        refine ⟨m + 1, ret, ?_⟩
        rw [Outcomes.upTo_of_some hfirst, stateReadObjects, if_pos hretries, hret]
      | false =>
        refine ⟨1, -1, ?_⟩
        rw [Outcomes.upTo_of_some hfirst, stateReadObjects, hretries]
        rfl
    | bytes data =>
      by_cases hdata : data = []
      · refine ⟨1, ?_⟩
        rw [Outcomes.upTo_of_some hfirst, stateReadObjects, if_pos hdata]
        split
        · exact ⟨0, rfl⟩
        · exact ⟨-1, rfl⟩
      · obtain ⟨m, ret, hret⟩ := hrest (buffer ++ data)
        refine ⟨m + 1, ret, ?_⟩
        rw [Outcomes.upTo_of_some hfirst, stateReadObjects, if_neg hdata, hret]

/-- The loop returns exactly where the reads come to an end. -/
theorem stateReadObjects_ends (fromString : List UInt8 → Bool) (buffer : List UInt8)
    (reads : Outcomes ReadOutcome) :
    (∃ n ret, stateReadObjects fromString buffer (reads.upTo n) = .returned ret) ↔
      ReadsEnd reads := by
  constructor
  · rintro ⟨n, ret, hret⟩
    exact stateReadObjects_readsEnd hret
  · exact fun h => h.returns fromString buffer

theorem stateRead_eq (h : fd ≠ -1) (selects : List SelectOutcome) (reads : List ReadOutcome) :
    stateRead fromString fd selects reads =
      whenReady .stateRead (stateReadObjects fromString [] reads) selects := by
  rw [stateRead, if_neg h]
  rfl

/-- Reading is right exactly where waiting is, and the reads come to an end. -/
theorem readsRight_iff (h : fd ≠ -1) (selects : Outcomes SelectOutcome)
    (reads : Outcomes ReadOutcome) :
    ReadsRight fromString fd selects reads ↔
      FirstDecides selects ∧ (selects 0 = some .ready → ReadsEnd reads) := by
  have hprogress := fun n => stateReadObjects_progress fromString [] (reads.upTo n)
  have hwaits : WaitsRight
      (fun n => stateRead fromString fd (selects.upTo n) (reads.upTo n)) selects ↔
        FirstDecides selects ∧ (selects 0 = some .ready → ReadsEnd reads) := by
    rw [← stateReadObjects_ends fromString [] reads,
      ← waitsRight_iff .stateRead (fun n => (hprogress n).1) (fun n => (hprogress n).2) nofun,
      ← funext fun n => stateRead_eq h (selects.upTo n) (reads.upTo n)]
  rw [← hwaits]
  refine ⟨fun hright => hright.waits, fun hwaits => ⟨hwaits, fun n hok => ?_⟩⟩
  rw [stateRead_eq h, whenReady] at hok
  cases hloop : selectLoop (selects.upTo n) with
  | error progress =>
    rw [hloop] at hok
    dsimp only at hok
    subst hok
    exact absurd hloop (selectLoop_returned _)
  | ok ret =>
    rw [hloop] at hok
    dsimp only at hok
    split at hok
    · cases hok
    · exact stateReadObjects_complete hok

/-! ## Writing -/

theorem stateWrite_eq (h : fd ≠ -1) (hdata : stateData ≠ []) (hpid : pid ≠ 1)
    (selects : List SelectOutcome) (writes : List WriteOutcome) :
    (stateWrite fd pid stateData selects writes).1 =
      whenReady .stateWrite (stateWriteObjects stateData writes).1 selects := by
  rw [stateWrite, if_neg (by simp [h, hdata, hpid]), whenReady]
  cases selectLoop selects with
  | error progress => rfl
  | ok ret =>
    dsimp only
    split
    · rfl
    · rfl

theorem stateWrite_ready (h : fd ≠ -1) (hdata : stateData ≠ []) (hpid : pid ≠ 1)
    (selects : List SelectOutcome) (writes : List WriteOutcome) :
    stateWrite fd pid stateData (.ready :: selects) writes =
      stateWriteObjects stateData writes := by
  rw [stateWrite, if_neg (by simp [h, hdata, hpid]), selectLoop_ready]
  rfl

/-- The one `write` returns exactly where it has an outcome. -/
theorem stateWriteObjects_ends (stateData : List UInt8) (writes : Outcomes WriteOutcome) :
    (∃ n ret, (stateWriteObjects stateData (writes.upTo n)).1 = .returned ret) ↔
      (writes 0).isSome = true := by
  cases hfirst : writes 0 with
  | none =>
    refine iff_of_false ?_ nofun
    rintro ⟨n, ret, hret⟩
    rw [Outcomes.upTo_of_none hfirst] at hret
    cases hret
  | some outcome =>
    refine iff_of_true ⟨1, ?_⟩ rfl
    rw [Outcomes.upTo_of_some hfirst]
    cases outcome with
    | wrote n => exact ⟨0, rfl⟩
    | failed errno => exact ⟨-1, rfl⟩

/-- It ends and sends the whole text where it reports a success. -/
theorem wholeWrite_iff (stateData : List UInt8) (writes : Outcomes WriteOutcome) :
    WholeWrite stateData writes ↔ (writes 0).isSome = true ∧
      ∀ n, (stateWriteObjects stateData (writes.upTo n)).1 = .returned 0 →
        (stateWriteObjects stateData (writes.upTo n)).2 = stateData := by
  unfold WholeWrite
  cases hfirst : writes 0 with
  | none => simp
  | some outcome =>
    have hupTo := Outcomes.upTo_of_some hfirst
    cases outcome with
    | failed errno =>
      refine iff_of_true ⟨_, rfl, nofun⟩ ⟨rfl, fun n hok => ?_⟩
      cases n with
      | zero => cases hok
      | succ n =>
        rw [hupTo] at hok
        cases hok
    | wrote k =>
      constructor
      · rintro ⟨outcome, heq, hle⟩
        refine ⟨rfl, fun n hok => ?_⟩
        cases n with
        | zero => cases hok
        | succ n =>
          rw [hupTo]
          exact List.take_of_length_le (hle k (Option.some.inj heq).symm)
      · rintro ⟨-, hall⟩
        have hone := hall 1
        rw [hupTo] at hone
        refine ⟨_, rfl, fun n hn => ?_⟩
        cases hn
        exact List.take_eq_self_iff _ |>.mp (hone rfl)

/-- Writing is right exactly where waiting is, and the one `write` takes the whole text. -/
theorem writesRight_iff (h : fd ≠ -1) (hdata : stateData ≠ []) (hpid : pid ≠ 1)
    (selects : Outcomes SelectOutcome) (writes : Outcomes WriteOutcome) :
    WritesRight fd pid stateData selects writes ↔
      FirstDecides selects ∧ (selects 0 = some .ready → WholeWrite stateData writes) := by
  have hprogress : ∀ writes, (∀ fn, (stateWriteObjects stateData writes).1 ≠ .assertFailed fn) ∧
      (stateWriteObjects stateData writes).1 ≠ .selecting := by
    rintro (- | ⟨n | errno, writes⟩)
    · exact ⟨nofun, nofun⟩
    · exact ⟨nofun, nofun⟩
    · exact ⟨nofun, nofun⟩
  have hwaits : WaitsRight
      (fun n => (stateWrite fd pid stateData (selects.upTo n) (writes.upTo n)).1) selects ↔
        FirstDecides selects ∧ (selects 0 = some .ready → (writes 0).isSome = true) := by
    rw [← stateWriteObjects_ends stateData writes,
      ← waitsRight_iff .stateWrite (fun n => (hprogress (writes.upTo n)).1)
        (fun n => (hprogress (writes.upTo n)).2) nofun,
      ← funext fun n => stateWrite_eq h hdata hpid (selects.upTo n) (writes.upTo n)]
  constructor
  · intro hright
    obtain ⟨hfirst, hends⟩ := hwaits.mp hright.waits
    refine ⟨hfirst, fun hready => (wholeWrite_iff stateData writes).mpr ⟨hends hready, ?_⟩⟩
    intro n hok
    cases n with
    | zero => cases hok
    | succ n =>
      have hcomplete := hright.complete (n + 1)
      rw [Outcomes.upTo_of_some hready, stateWrite_ready h hdata hpid] at hcomplete
      exact hcomplete hok
  · rintro ⟨hfirst, hwhole⟩
    refine ⟨hwaits.mpr ⟨hfirst, fun hready => ((wholeWrite_iff _ _).mp (hwhole hready)).1⟩, ?_⟩
    intro n hok
    obtain ⟨outcome, houtcome, rfl | ⟨errno, rfl, hretries⟩⟩ := hfirst
    · cases n with
      | zero =>
        rw [stateWrite_eq h hdata hpid] at hok
        cases hok
      | succ n =>
        rw [Outcomes.upTo_of_some houtcome, stateWrite_ready h hdata hpid] at hok ⊢
        exact ((wholeWrite_iff _ _).mp (hwhole houtcome)).2 (n + 1) hok
    · cases n with
      | zero =>
        rw [stateWrite_eq h hdata hpid] at hok
        cases hok
      | succ n =>
        rw [stateWrite_eq h hdata hpid, Outcomes.upTo_of_some houtcome, whenReady,
          selectLoop_failed hretries] at hok
        cases hok

/-! ## Both ends -/

/-- Both ends do what they are to do exactly where the first `select` decides, the reads come to
an end, and the text goes through the pipe at once. -/
theorem stateTransfer_iff (fromString : List UInt8 → Bool) {readFd writeFd : Int} {pid : Nat}
    {stateData : List UInt8} (hread : readFd ≠ -1) (hwrite : writeFd ≠ -1) (hpid : pid ≠ 1)
    (hdata : stateData ≠ []) (readSelects writeSelects : Outcomes SelectOutcome)
    (reads : Outcomes ReadOutcome) (writes : Outcomes WriteOutcome) :
    (ReadsRight fromString readFd readSelects reads ∧
        WritesRight writeFd pid stateData writeSelects writes) ↔
      (FirstDecides readSelects ∧ (readSelects 0 = some .ready → ReadsEnd reads)) ∧
        FirstDecides writeSelects ∧
          (writeSelects 0 = some .ready → WholeWrite stateData writes) := by
  rw [readsRight_iff hread, writesRight_iff hwrite hdata hpid]

/-- The text comes in two parts. -/
theorem stateTransfer_iff_twoParts :
    let reads := Outcomes.ofList [.bytes [123], .failed .eintr, .bytes [125], .bytes []]
    (ReadsRight (fun text => text = [123, 125]) 5 (.ofList [.ready]) reads ∧
        WritesRight 6 2 [123, 125] (.ofList [.ready]) (.ofList [.wrote 2])) ↔
      (FirstDecides (.ofList [.ready]) ∧
        (Outcomes.ofList [SelectOutcome.ready] 0 = some .ready → ReadsEnd reads)) ∧
        FirstDecides (.ofList [.ready]) ∧
          (Outcomes.ofList [SelectOutcome.ready] 0 = some .ready →
            WholeWrite [123, 125] (.ofList [.wrote 2])) :=
  stateTransfer_iff (fun text => text = [123, 125]) (by decide) (by decide) (by decide)
    (by decide) _ _ _ _

/-- `state_read` waits for a silent peer for ever, before and after the first byte; an
interruption ends it in its assertion; and `state_write` takes a part for the whole. -/
theorem transfer_unfinished :
    (∀ n, stateRead (fun _ => true) 5 (List.replicate n .timeout) [] = .selecting) ∧
      (∀ n, stateRead (fun _ => true) 5 [.ready]
        (.bytes [123] :: List.replicate n (.failed .eagain)) = .transferring) ∧
      stateRead (fun _ => true) 5 [.failed .eintr] [] = .assertFailed .stateRead ∧
      stateWrite 6 2 [123, 125] [.ready] [.wrote 1] = (.returned 0, [123]) ∧
      ¬ ReadsRight (fun _ => true) 5 (fun _ => some .timeout) (.ofList []) ∧
      ¬ ReadsRight (fun _ => true) 5 (.ofList [.ready]) (.ofList [.bytes [123]]) ∧
      ¬ ReadsRight (fun _ => true) 5 (.ofList [.failed .eintr]) (.ofList []) ∧
      ¬ WritesRight 6 2 [123, 125] (.ofList [.ready]) (.ofList [.wrote 1]) := by
  refine ⟨?_, ?_, rfl, rfl, ?_, ?_, ?_, ?_⟩
  · intro n
    rw [stateRead_eq (by decide)]
    induction n with
    | zero => rfl
    | succ n ih => exact ih
  · intro n
    rw [stateRead_eq (by decide)]
    show stateReadObjects (fun _ => true) [123] (List.replicate n (.failed .eagain)) = _
    induction n with
    | zero => rfl
    | succ n ih => exact ih
  · intro h
    cases h.waits.timeout 0 rfl rfl
  · intro h
    obtain ⟨n, ret, hret⟩ := h.waits.ends
    rcases n with - | - | n <;> cases hret
  · intro h
    exact h.waits.asserts 1 .stateRead rfl
  · intro h
    cases h.complete 1 rfl

end Startup
