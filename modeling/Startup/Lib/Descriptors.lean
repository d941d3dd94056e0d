import Mathlib.Data.Nat.Find
import Mathlib.Logic.Function.Basic
import Mathlib.Tactic.Common

/-!
# The descriptors of a process

A table says what each number is open on, and whether `exec` closes it.  Only
finitely many numbers are open, so that there is a lowest one that is not.

* `Table`: the tables, with `open`, `close`, `dup`, `dup2`, `pipe` and `exec`.
* `Holds`: a table is a base with some descriptors of one's own, each under the
  name of its role.  The rules say what each call does to the roles.
-/

namespace Startup.Lib.Descriptors

variable {α ρ : Type}

/-- An open descriptor: what it is open on, and its close-on-exec flag. -/
structure Entry (α : Type) where
  file : α
  cloexec : Bool
  deriving DecidableEq

/-- The descriptors of a process. -/
@[ext]
structure Table (α : Type) where
  get : Nat → Option (Entry α)
  finite : ∃ b, ∀ n, b ≤ n → get n = none

namespace Table

/-- One number gets another content. -/
def set (t : Table α) (fd : Nat) (e : Option (Entry α)) : Table α where
  get := Function.update t.get fd e
  finite := by
    obtain ⟨b, hb⟩ := t.finite
    refine ⟨b + fd + 1, fun n hn => ?_⟩
    rw [Function.update_of_ne (by omega)]
    exact hb n (by omega)

theorem get_set (t : Table α) (fd : Nat) (e : Option (Entry α)) (n : Nat) :
    (t.set fd e).get n = if n = fd then e else t.get n := by
  by_cases h : n = fd
  · subst h
    simp [set]
  · simp [set, h]

@[simp]
theorem get_set_self (t : Table α) (fd : Nat) (e : Option (Entry α)) :
    (t.set fd e).get fd = e := by
  simp [set]

theorem get_set_ne (t : Table α) {fd n : Nat} (e : Option (Entry α)) (h : n ≠ fd) :
    (t.set fd e).get n = t.get n := by
  rw [get_set, if_neg h]

theorem set_set (t : Table α) (fd : Nat) (e e' : Option (Entry α)) :
    (t.set fd e).set fd e' = t.set fd e' :=
  Table.ext (Function.update_idem ..)

theorem set_comm (t : Table α) {fd fd' : Nat} (e e' : Option (Entry α)) (h : fd ≠ fd') :
    (t.set fd e).set fd' e' = (t.set fd' e').set fd e :=
  Table.ext (Function.update_comm h ..)

theorem exists_closed (t : Table α) : ∃ n, t.get n = none := by
  obtain ⟨b, hb⟩ := t.finite
  exact ⟨b, hb b (Nat.le_refl b)⟩

/-- The lowest number that is not open. -/
def lowest (t : Table α) : Nat :=
  Nat.find (p := fun n => (t.get n).isNone = true)
    (t.exists_closed.imp fun _ h => by simp [h])

@[simp]
theorem get_lowest (t : Table α) : t.get t.lowest = none := by
  have h := Nat.find_spec (p := fun n => (t.get n).isNone = true)
    (t.exists_closed.imp fun _ h => by simp [h])
  exact Option.isNone_iff_eq_none.mp h

theorem lowest_le (t : Table α) {n : Nat} (h : t.get n = none) : t.lowest ≤ n :=
  Nat.find_min' _ (by simp [h])

theorem lowest_ne (t : Table α) {n : Nat} (h : t.get n ≠ none) : t.lowest ≠ n :=
  fun heq => h (heq ▸ t.get_lowest)

/-- The lowest free number, where those before it are known to be open. -/
theorem lowest_eq (t : Table α) {n : Nat} (hfree : t.get n = none)
    (hopen : ∀ m < n, t.get m ≠ none) : t.lowest = n := by
  have hle := t.lowest_le hfree
  by_contra hne
  exact hopen t.lowest (by omega) t.get_lowest

/-- `open`: the lowest number is taken. -/
def alloc (t : Table α) (e : Entry α) : Table α × Nat := (t.set t.lowest (some e), t.lowest)

/-- `close`. -/
def close (t : Table α) (fd : Nat) : Table α := t.set fd none

/-- `close`, if there is a number. -/
def closeIf (t : Table α) : Option Nat → Table α
  | none => t
  | some fd => t.close fd

theorem close_of_free (t : Table α) {fd : Nat} (h : t.get fd = none) : t.close fd = t :=
  Table.ext (by
    show Function.update t.get fd none = t.get
    rw [← h, Function.update_eq_self])

/-- The close-on-exec flag is set or cleared. -/
def setCloexec (t : Table α) (fd : Nat) (b : Bool) : Table α :=
  t.set fd ((t.get fd).map fun e => { e with cloexec := b })

/-- `dup`, of a number that is open. -/
def dup (t : Table α) (fd : Nat) : Option (Table α × Nat) :=
  (t.get fd).map fun e => t.alloc { e with cloexec := false }

/-- `dup2`, of a number that is open. -/
def dup2 (t : Table α) (fd new : Nat) : Option (Table α) :=
  (t.get fd).map fun e =>
    if fd = new then t else t.set new (some { e with cloexec := false })

/-- `pipe`: the reading end, then the writing end. -/
def pipe (t : Table α) (reading writing : α) : Table α × Nat × Nat :=
  let r := t.alloc ⟨reading, false⟩
  let w := r.1.alloc ⟨writing, false⟩
  (w.1, r.2, w.2)

theorem get_close_ne (t : Table α) {fd n : Nat} (h : n ≠ fd) : (t.close fd).get n = t.get n :=
  t.get_set_ne none h

theorem get_closeIf_ne (t : Table α) {fd : Option Nat} {n : Nat} (h : fd ≠ some n) :
    (t.closeIf fd).get n = t.get n := by
  cases fd with
  | none => rfl
  | some fd => exact t.get_close_ne fun heq => h (congrArg some heq.symm)

theorem get_closeIf_of_free (t : Table α) (fd : Option Nat) {n : Nat} (h : t.get n = none) :
    (t.closeIf fd).get n = none := by
  by_cases hfd : fd = some n
  · subst hfd
    exact t.get_set_self n none
  · rw [t.get_closeIf_ne hfd, h]

theorem get_alloc_of_open (t : Table α) (e : Entry α) {n : Nat} (h : t.get n ≠ none) :
    (t.alloc e).1.get n = t.get n :=
  t.get_set_ne _ (t.lowest_ne h).symm

theorem setCloexec_isSome (t : Table α) (fd : Nat) (b : Bool) (n : Nat) :
    ((t.setCloexec fd b).get n).isSome = (t.get n).isSome := by
  rw [setCloexec, get_set]
  split
  · rename_i hn
    rw [Option.isSome_map, hn]
  · rfl

/-- What is open stays open beside a new pipe, whose ends are elsewhere. -/
theorem get_pipe_of_open (t : Table α) (reading writing : α) {n : Nat} (h : t.get n ≠ none) :
    (t.pipe reading writing).1.get n = t.get n ∧ (t.pipe reading writing).2.1 ≠ n ∧
      (t.pipe reading writing).2.2 ≠ n := by
  have hr := t.get_alloc_of_open ⟨reading, false⟩ h
  have hopen : (t.alloc ⟨reading, false⟩).1.get n ≠ none := hr ▸ h
  exact ⟨(get_alloc_of_open _ _ hopen).trans hr, t.lowest_ne h, lowest_ne _ hopen⟩

theorem close_comm (t : Table α) (fd fd' : Nat) :
    (t.close fd).close fd' = (t.close fd').close fd := by
  by_cases h : fd = fd'
  · rw [h]
  · exact t.set_comm none none h

theorem alloc_close (t : Table α) (e : Entry α) : (t.alloc e).1.close (t.alloc e).2 = t :=
  (t.set_set ..).trans (t.close_of_free t.get_lowest)

/-- A pipe that is closed again leaves nothing. -/
theorem pipe_close (t : Table α) (reading writing : α) :
    ((t.pipe reading writing).1.close (t.pipe reading writing).2.1).close
      (t.pipe reading writing).2.2 = t := by
  let r := t.alloc ⟨reading, false⟩
  let w := r.1.alloc ⟨writing, false⟩
  calc (w.1.close r.2).close w.2
      = (w.1.close w.2).close r.2 := close_comm ..
    _ = r.1.close r.2 := congrArg (close · r.2) (r.1.alloc_close _)
    _ = t := t.alloc_close _

/-- What `exec` leaves open. -/
def exec (t : Table α) : Table α where
  get := fun n => (t.get n).filter fun e => !e.cloexec
  finite := by
    obtain ⟨b, hb⟩ := t.finite
    exact ⟨b, fun n hn => by simp [hb n hn]⟩

theorem get_exec (t : Table α) (n : Nat) :
    t.exec.get n = (t.get n).filter fun e => !e.cloexec := rfl

/-- `exec` does not see a descriptor that it closes. -/
theorem exec_set_cloexec (t : Table α) {fd : Nat} (e : Entry α) (he : e.cloexec = true)
    (hfree : t.get fd = none) : (t.set fd (some e)).exec = t.exec := by
  ext1
  funext n
  rw [get_exec, get_exec, get_set]
  split
  · rename_i hn
    simp [hn, he, hfree]
  · rfl

theorem exec_close_cloexec (t : Table α) {fd : Nat} {e : Entry α} (hfd : t.get fd = some e)
    (he : e.cloexec = true) : (t.close fd).exec = t.exec := by
  ext1
  funext n
  rw [get_exec, get_exec, close, get_set]
  split
  · rename_i hn
    rw [hn, hfd, Option.filter_some, he]
    rfl
  · rfl

end Table

/-! ## One's own descriptors beside those that were there -/

/-- The table has, for each role that is filled, the descriptor at its number, and is the
base everywhere else.  The base has nothing at these numbers. -/
structure Holds (base t : Table α) (own : ρ → Option (Nat × Entry α)) : Prop where
  held : ∀ {r n e}, own r = some (n, e) → t.get n = some e
  apart : ∀ {r r' n e e'}, own r = some (n, e) → own r' = some (n, e') → r = r'
  free : ∀ {r n e}, own r = some (n, e) → base.get n = none
  rest : ∀ {n}, (∀ r e, own r ≠ some (n, e)) → t.get n = base.get n

namespace Holds

variable {base t : Table α} {own : ρ → Option (Nat × Entry α)} {r : ρ} {n : Nat} {e : Entry α}

/-- At first there is the base. -/
theorem none (t : Table α) : Holds t t (fun _ : ρ => Option.none) where
  held := nofun
  apart := nofun
  free := nofun
  rest := fun _ => rfl

/-- A number that is not open has no role. -/
theorem not_own (h : Holds base t own) (hn : t.get n = Option.none) (r : ρ) (e : Entry α) :
    own r ≠ some (n, e) := by
  intro hown
  have hheld := h.held hown
  rw [hn] at hheld
  cases hheld

/-- A number that is not open is free in the base. -/
theorem base_free (h : Holds base t own) (hn : t.get n = Option.none) :
    base.get n = Option.none := by
  rw [← h.rest (h.not_own hn), hn]

/-- What is open in the base is open as it is there. -/
theorem get_of_base (h : Holds base t own) (hn : base.get n ≠ Option.none) :
    t.get n = base.get n :=
  h.rest fun _ _ hown => hn (h.free hown)

/-- A role whose descriptor is open after `exec`. -/
theorem get_exec (h : Holds base t own) (hr : own r = some (n, e)) (he : e.cloexec = false) :
    t.exec.get n = some e := by
  rw [Table.get_exec, h.held hr]
  simp [he]

/-- A role whose descriptor `exec` closes. -/
theorem get_exec_cloexec (h : Holds base t own) (hr : own r = some (n, e))
    (he : e.cloexec = true) : t.exec.get n = base.exec.get n := by
  rw [Table.get_exec, Table.get_exec, h.held hr, h.free hr]
  simp [he]

/-- Where no role is open after `exec`, there is what the base has. -/
theorem get_exec_rest (h : Holds base t own)
    (hn : ∀ r e, own r = some (n, e) → e.cloexec = true) : t.exec.get n = base.exec.get n := by
  by_cases hown : ∃ r e, own r = some (n, e)
  · obtain ⟨r, e, hr⟩ := hown
    exact h.get_exec_cloexec hr (hn r e hr)
  · rw [Table.get_exec, Table.get_exec, h.rest fun r e hr => hown ⟨r, e, hr⟩]

/-- `exec` closes all that is one's own. -/
theorem exec_eq (h : Holds base t own) (hown : ∀ r n e, own r = some (n, e) → e.cloexec = true) :
    t.exec = base.exec :=
  Table.ext (funext fun n => h.get_exec_rest fun r e => hown r n e)

/-- A number of the base is closed. -/
theorem closeBase (h : Holds base t own) (hn : ∀ r e, own r ≠ some (n, e)) :
    Holds (base.close n) (t.close n) own := by
  have hne : ∀ {r n' e}, own r = some (n', e) → n' ≠ n := by
    intro r n' e hown
    rintro rfl
    exact hn r e hown
  refine ⟨?_, h.apart, ?_, ?_⟩
  · intro r n' e hown
    rw [Table.close, Table.get_set_ne _ _ (hne hown)]
    exact h.held hown
  · intro r n' e hown
    rw [Table.close, Table.get_set_ne _ _ (hne hown)]
    exact h.free hown
  · intro n' hn'
    by_cases heq : n' = n
    · subst heq
      rw [Table.close, Table.get_set_self, Table.close, Table.get_set_self]
    · rw [Table.close, Table.get_set_ne _ _ heq, Table.close, Table.get_set_ne _ _ heq]
      exact h.rest hn'

variable [DecidableEq ρ]

/-- What is left when a role is given up: the others, at other numbers. -/
theorem own_of_update (h : Holds base t own) (hr : own r = some (n, e)) {r' : ρ} {n' : Nat}
    {e' : Entry α} (hown : Function.update own r Option.none r' = some (n', e')) :
    n' ≠ n ∧ own r' = some (n', e') := by
  by_cases hr' : r' = r
  · subst hr'
    rw [Function.update_self] at hown
    cases hown
  · rw [Function.update_of_ne hr'] at hown
    refine ⟨?_, hown⟩
    rintro rfl
    exact hr' (h.apart hown hr)

/-- A number without a role, when one is given up, had none but that one. -/
theorem not_own_of_update (hr : own r = some (n, e)) {n' : Nat} (hne : n' ≠ n)
    (hn : ∀ r' e', Function.update own r Option.none r' ≠ some (n', e')) (r' : ρ) (e' : Entry α) :
    own r' ≠ some (n', e') := by
  intro hown
  refine hn r' e' ?_
  rw [Function.update_of_ne]
  · exact hown
  · rintro rfl
    rw [hr] at hown
    cases hown
    exact hne rfl

/-- A role whose descriptor is closed is no longer filled. -/
theorem close (h : Holds base t own) (hr : own r = some (n, e)) :
    Holds base (t.close n) (Function.update own r Option.none) := by
  refine ⟨?_, ?_, ?_, ?_⟩
  · intro r' n' e' hown
    obtain ⟨hne, hown⟩ := h.own_of_update hr hown
    rw [Table.close, Table.get_set_ne _ _ hne]
    exact h.held hown
  · intro r₁ r₂ n' e₁ e₂ h₁ h₂
    exact h.apart (h.own_of_update hr h₁).2 (h.own_of_update hr h₂).2
  · intro r' n' e' hown
    exact h.free (h.own_of_update hr hown).2
  · intro n' hn
    by_cases hne : n' = n
    · subst hne
      rw [Table.close, Table.get_set_self, h.free hr]
    · rw [Table.close, Table.get_set_ne _ _ hne]
      exact h.rest (not_own_of_update hr hne hn)

/-- A role that is perhaps filled is no longer. -/
theorem closeIf (h : Holds base t own) {fd : Option Nat} (hr : own r = fd.map fun n => (n, e)) :
    Holds base (t.closeIf fd) (Function.update own r Option.none) := by
  cases fd with
  | none =>
    rw [Function.update_eq_self_iff.mpr hr.symm]
    exact h
  | some n => exact h.close hr

/-- A descriptor that is opened at a number without a role, over what the base has there. -/
theorem replace (h : Holds base t own) (hr : own r = Option.none)
    (hn : ∀ r' e', own r' ≠ some (n, e')) (e : Entry α) :
    Holds (base.close n) (t.set n (some e)) (Function.update own r (some (n, e))) := by
  have hback : ∀ {r' n' e'}, r' ≠ r → Function.update own r (some (n, e)) r' = some (n', e') →
      n' ≠ n ∧ own r' = some (n', e') := by
    intro r' n' e' hr' hown
    rw [Function.update_of_ne hr'] at hown
    refine ⟨?_, hown⟩
    rintro rfl
    exact hn r' e' hown
  refine ⟨?_, ?_, ?_, ?_⟩
  · intro r' n' e' hown
    by_cases hr' : r' = r
    · subst hr'
      rw [Function.update_self] at hown
      cases hown
      exact t.get_set_self _ _
    · obtain ⟨hne, hown⟩ := hback hr' hown
      rw [Table.get_set_ne _ _ hne]
      exact h.held hown
  · intro r₁ r₂ n' e₁ e₂ h₁ h₂
    by_cases hr₁ : r₁ = r <;> by_cases hr₂ : r₂ = r
    · exact hr₁.trans hr₂.symm
    · subst hr₁
      rw [Function.update_self] at h₁
      cases h₁
      exact absurd rfl (hback hr₂ h₂).1
    · subst hr₂
      rw [Function.update_self] at h₂
      cases h₂
      exact absurd rfl (hback hr₁ h₁).1
    · exact h.apart (hback hr₁ h₁).2 (hback hr₂ h₂).2
  · intro r' n' e' hown
    by_cases hr' : r' = r
    · subst hr'
      rw [Function.update_self] at hown
      cases hown
      exact base.get_set_self _ _
    · obtain ⟨hne, hown⟩ := hback hr' hown
      rw [Table.close, Table.get_set_ne _ _ hne]
      exact h.free hown
  · intro n' hn'
    have hne : n' ≠ n := by
      rintro rfl
      exact hn' r e (Function.update_self ..)
    rw [Table.get_set_ne _ _ hne, Table.close, Table.get_set_ne _ _ hne]
    refine h.rest fun r' e' hown => hn' r' e' ?_
    rw [Function.update_of_ne]
    · exact hown
    · rintro rfl
      rw [hr] at hown
      cases hown

/-- A new descriptor fills a role that was not filled. -/
theorem alloc (h : Holds base t own) (hr : own r = Option.none) (e : Entry α) :
    Holds base (t.alloc e).1 (Function.update own r (some ((t.alloc e).2, e))) := by
  have hset := h.replace hr (h.not_own t.get_lowest) e
  rwa [base.close_of_free (h.base_free t.get_lowest)] at hset

/-- The ends of a new pipe fill two roles. -/
theorem pipe (h : Holds base t own) {w : ρ} (hr : own r = Option.none) (hw : own w = Option.none)
    (hne : w ≠ r) (reading writing : α) :
    Holds base (t.pipe reading writing).1
      (Function.update
        (Function.update own r (some ((t.pipe reading writing).2.1, ⟨reading, false⟩)))
        w (some ((t.pipe reading writing).2.2, ⟨writing, false⟩))) :=
  (h.alloc hr _).alloc ((Function.update_of_ne hne _ _).trans hw) _

/-- The descriptor of a role gets another content. -/
theorem change (h : Holds base t own) (hr : own r = some (n, e)) (e' : Entry α) :
    Holds base (t.set n (some e')) (Function.update own r (some (n, e'))) := by
  have hclosed := h.close hr
  have hfree : (t.close n).get n = Option.none := t.get_set_self n Option.none
  have hset := hclosed.replace (Function.update_self ..) (hclosed.not_own hfree) e'
  rwa [base.close_of_free (h.free hr), Function.update_idem, Table.close, Table.set_set] at hset

/-- The flag of a descriptor. -/
theorem setCloexec (h : Holds base t own) (hr : own r = some (n, e)) (b : Bool) :
    Holds base (t.setCloexec n b)
      (Function.update own r (some (n, { e with cloexec := b }))) := by
  have hget : t.get n = some e := h.held hr
  have hset : t.setCloexec n b = t.set n (some { e with cloexec := b }) := by
    rw [Table.setCloexec, hget, Option.map_some]
  rw [hset]
  exact h.change hr _

/-- A descriptor is moved to a number without a role, over what the base has there. -/
theorem relocate (h : Holds base t own) (hr : own r = some (n, e)) {m : Nat} (hne : m ≠ n)
    (hm : ∀ r' e', own r' ≠ some (m, e')) (e' : Entry α) :
    Holds (base.close m) ((t.set m (some e')).close n)
      (Function.update own r (some (m, e'))) := by
  have hset := (h.close hr).replace (Function.update_self ..)
    (fun r' e'' hown => hm r' e'' (h.own_of_update hr hown).2) e'
  have hcomm : (t.set m (some e')).close n = (t.close n).set m (some e') := t.set_comm _ _ hne
  rwa [Function.update_idem, ← hcomm] at hset

/-- A descriptor is moved to the lowest number. -/
theorem move (h : Holds base t own) (hr : own r = some (n, e)) :
    Holds base ((t.alloc { e with cloexec := false }).1.close n)
      (Function.update own r (some (t.lowest, { e with cloexec := false }))) := by
  have hget : t.get n = some e := h.held hr
  have hset := h.relocate hr (t.lowest_ne (by simp [hget])) (h.not_own t.get_lowest)
    { e with cloexec := false }
  rwa [base.close_of_free (h.base_free t.get_lowest)] at hset

/-- A role is given up, and its descriptor is left to the base. -/
theorem giveUp (h : Holds base t own) (hr : own r = some (n, e)) :
    Holds (base.set n (some e)) t (Function.update own r Option.none) := by
  refine ⟨?_, ?_, ?_, ?_⟩
  · intro r' n' e' hown
    exact h.held (h.own_of_update hr hown).2
  · intro r₁ r₂ n' e₁ e₂ h₁ h₂
    exact h.apart (h.own_of_update hr h₁).2 (h.own_of_update hr h₂).2
  · intro r' n' e' hown
    obtain ⟨hne, hown⟩ := h.own_of_update hr hown
    rw [Table.get_set_ne _ _ hne]
    exact h.free hown
  · intro n' hn'
    by_cases hne : n' = n
    · subst hne
      rw [Table.get_set_self, h.held hr]
    · rw [Table.get_set_ne _ _ hne]
      exact h.rest (not_own_of_update hr hne hn')

/-- A role that `exec` closes may be given up. -/
theorem leave (h : Holds base t own) (hr : ∀ n e, own r = some (n, e) → e.cloexec = true) :
    ∃ base', base'.exec = base.exec ∧ (∀ n, base.get n ≠ Option.none → base'.get n = base.get n) ∧
      Holds base' t (Function.update own r Option.none) := by
  cases hown : own r with
  | none =>
    refine ⟨base, rfl, fun _ _ => rfl, ?_⟩
    rw [Function.update_eq_self_iff.mpr hown.symm]
    exact h
  | some x =>
    obtain ⟨n, e⟩ := x
    have hfree := h.free hown
    refine ⟨base.set n (some e), base.exec_set_cloexec e (hr n e hown) hfree, fun m hm => ?_,
      h.giveUp hown⟩
    refine Table.get_set_ne _ _ ?_
    rintro rfl
    exact hm hfree

end Holds

end Startup.Lib.Descriptors
