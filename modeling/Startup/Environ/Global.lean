import Startup.Environ.Remove
import Mathlib.Data.List.Forall2

/-!
# The job environment (`init/job_class.c`)

`job_class_environment_set` and `job_class_environment_unset` change the global
job environment and then that of every running job, in the order in which the hash
tables yield them, up to the first one for which `environ_add` or
`environ_remove` has no result.

* `environmentSet_iff` and `environmentUnset_iff`: when either all tables are updated or none
  is changed.
-/

namespace Startup

/-- An environment, and whether `nih_realloc` moves it when it is shrunk. -/
structure EnvBlock where
  table : EnvTable
  moves : Bool

/-- What the environment holds. -/
abbrev EnvBlock.entries (b : EnvBlock) : List String := b.table.entries

/-- `job_environ` and the environments of the running jobs, in the order of the hash
tables. -/
structure JobEnvirons where
  jobEnviron : EnvBlock
  jobs : List EnvBlock

namespace JobEnvirons

/-- All environments, in the order in which they are changed. -/
def blocks (s : JobEnvirons) : List EnvBlock := s.jobEnviron :: s.jobs

/-- Each of them is a table. -/
def Held (s : JobEnvirons) : Prop := ∀ b ∈ s.blocks, b.table.Holds b.entries

end JobEnvirons

/-- The walk over the environments, the global one and then those of the running jobs: it ends
with the first one for which `op` has no result. -/
def updateJobs (op : EnvBlock → Option EnvTable × Bool) :
    List EnvBlock → List (Option EnvTable) × Bool
  | [] => ([], true)
  | b :: bs =>
    match op b with
    | (p, false) => (p :: bs.map fun b => some b.table, false)
    | (p, true) =>
      let (ps, ok) := updateJobs op bs
      (p :: ps, ok)

/-- `environ_add` without a length, and whether its result is not `NULL`: there is no array
where there was none and nothing was added. -/
def environAddCounted (getenv : String → Option String) (replace : Bool) (var : String)
    (b : EnvBlock) : Option EnvTable × Bool :=
  let t := environAddTo getenv b.table.counted replace var
  (some t, !t.cells.isEmpty)

/-- `job_class_environment_set`: the arrays that it leaves, and whether it returns zero. -/
def jobClassEnvironmentSet (getenv : String → Option String) (s : JobEnvirons) (var : String)
    (replace : Bool) : List (Option EnvTable) × Bool :=
  updateJobs (environAddCounted getenv replace var) s.blocks

/-- `job_class_environment_unset`: the arrays that it leaves, and whether it returns zero. -/
def jobClassEnvironmentUnset (s : JobEnvirons) (name : String) :
    List (Option EnvTable) × Bool :=
  updateJobs (fun b => environRemove b.moves b.table.counted name) s.blocks

variable {s : JobEnvirons} {getenv : String → Option String}
  {op : EnvBlock → Option EnvTable × Bool} {t : EnvTable} {b : EnvBlock} {name : String}

/-! ## The walk over the tables -/

/-- On success all tables have been updated, and on failure none has been changed. -/
def AllOrNothing (updated : List String → List String → Prop) (s : JobEnvirons)
    (r : List (Option EnvTable) × Bool) : Prop :=
  List.Forall₂ (fun b p => ∃ env, PointsTo p env ∧
    if r.2 then updated b.entries env else env = b.entries) s.blocks r.1

/-- The tables that come before the first one that is refused are as they should be. -/
def NothingBefore (refused touched : EnvBlock → Prop) (bs : List EnvBlock) : Prop :=
  ∀ before b after, bs = before ++ b :: after → (∀ u ∈ before, ¬ refused u) → refused b →
    ∀ u ∈ before, ¬ touched u

/-- Either all tables are updated, or those that come before the first refused one are. -/
theorem updateJobs_spec {refused : EnvBlock → Prop} {bs : List EnvBlock}
    (h : ∀ b ∈ bs, (op b).2 = true ↔ ¬ refused b) :
    ((∀ b ∈ bs, ¬ refused b) ∧ updateJobs op bs = (bs.map fun b => (op b).1, true)) ∨
    ∃ before b after, bs = before ++ b :: after ∧ (∀ u ∈ before, ¬ refused u) ∧ refused b ∧
      updateJobs op bs = ((before.map fun b => (op b).1) ++
        (op b).1 :: after.map fun b => some b.table, false) := by
  induction bs with
  | nil => exact .inl ⟨by simp, rfl⟩
  | cons b bs ih =>
    have haccepted := h b List.mem_cons_self
    rw [updateJobs]
    rcases hop : op b with ⟨p, _ | _⟩
    · rw [hop] at haccepted
      have hrefused : refused b := by simpa using haccepted
      exact .inr ⟨[], b, bs, rfl, by simp, hrefused, by simp [hop]⟩
    · rw [hop] at haccepted
      have hnot : ¬ refused b := haccepted.mp rfl
      rcases ih fun u hu => h u (List.mem_cons_of_mem _ hu) with
        ⟨hall, heq⟩ | ⟨before, u, after, rfl, hbefore, hu, heq⟩
      · exact .inl ⟨by simpa using ⟨hnot, hall⟩, by simp [heq, hop]⟩
      · refine .inr ⟨b :: before, u, after, rfl, ?_, hu, by simp [heq, hop]⟩
        simpa using ⟨hnot, hbefore⟩

/-- The first table that is refused is the only one of that kind. -/
theorem first_refused {refused : EnvBlock → Prop} {before before' after after' : List EnvBlock}
    {u : EnvBlock} (heq : before ++ b :: after = before' ++ u :: after')
    (hbefore : ∀ v ∈ before, ¬ refused v) (hb : refused b)
    (hbefore' : ∀ v ∈ before', ¬ refused v) (hu : refused u) : before' = before := by
  rcases List.append_eq_append_iff.mp heq with ⟨rest, rfl, hrest⟩ | ⟨rest, rfl, hrest⟩
  · cases rest with
    | nil => exact List.append_nil before
    | cons v rest =>
      obtain ⟨rfl, -⟩ := List.cons.inj hrest
      exact absurd hb (hbefore' _ (by simp))
  · cases rest with
    | nil => exact (List.append_nil before').symm
    | cons v rest =>
      obtain ⟨rfl, -⟩ := List.cons.inj hrest
      exact absurd hu (hbefore _ (by simp))

/-- What one call of `environ_add` or `environ_remove` does to an environment: when it has no
result, and otherwise when it is right, and when it changes anything. -/
structure Updates (op : EnvBlock → Option EnvTable × Bool)
    (updated : List String → List String → Prop) (refused right touched : EnvBlock → Prop)
    (b : EnvBlock) : Prop where
  accepted : (op b).2 = true ↔ ¬ refused b
  right : ¬ refused b → ((∃ env, PointsTo (op b).1 env ∧ updated b.entries env) ↔ right b)
  kept : (∃ u, refused u) → ¬ refused b → (PointsTo (op b).1 b.entries ↔ ¬ touched b)
  refused : refused b → PointsTo (op b).1 b.entries

/-- What holds of each environment and what it has become, the first ones by `f`. -/
theorem forall₂_walked {R : EnvBlock → Option EnvTable → Prop} {f : EnvBlock → Option EnvTable}
    {before after : List EnvBlock} {ps : List (Option EnvTable)} :
    List.Forall₂ R (before ++ after) (before.map f ++ ps) ↔
      (∀ b ∈ before, R b (f b)) ∧ List.Forall₂ R after ps := by
  induction before with
  | nil => simp
  | cons b before ih => simp [ih, and_assoc]

/-- All tables are updated or none is changed, exactly when each is updated as it should be, if
none is refused, and none of those before the first refused one is touched. -/
theorem updateJobs_iff {updated : List String → List String → Prop}
    {refused right touched : EnvBlock → Prop} (hs : s.Held)
    (h : ∀ b ∈ s.blocks, Updates op updated refused right touched b) :
    AllOrNothing updated s (updateJobs op s.blocks) ↔
      ((∀ b ∈ s.blocks, ¬ refused b) → ∀ b ∈ s.blocks, right b) ∧
        NothingBefore refused touched s.blocks := by
  unfold AllOrNothing
  rcases updateJobs_spec fun b hb => (h b hb).accepted with
    ⟨hall, heq⟩ | ⟨before, b, after, hblocks, hbefore, hb, heq⟩
  · have hnothing : NothingBefore refused touched s.blocks := by
      intro before b after hblocks _ hb
      exact absurd hb (hall b (by rw [hblocks]; simp))
    have hright : ∀ b ∈ s.blocks, ((∃ env, PointsTo (op b).1 env ∧ updated b.entries env) ↔
        right b) := fun b hb => (h b hb).right (hall b hb)
    rw [heq, and_iff_left hnothing, List.forall₂_map_right_iff, List.forall₂_same]
    constructor
    · intro hdone _ b hb
      exact (hright b hb).mp (hdone b hb)
    · intro hdone b hb
      exact (hright b hb).mpr (hdone hall b hb)
  · have hmem : ∀ u, u ∈ before ∨ u = b ∨ u ∈ after → u ∈ s.blocks := by
      intro u hu
      rw [hblocks]
      simpa using hu
    have hwalk : (∀ b ∈ s.blocks, ¬ refused b) → ∀ b ∈ s.blocks, right b :=
      fun hall => absurd hb (hall b (hmem b (.inr (.inl rfl))))
    have hkept : ∀ u ∈ before, (PointsTo (op u).1 u.entries ↔ ¬ touched u) :=
      fun u hu => (h u (hmem u (.inl hu))).kept ⟨b, hb⟩ (hbefore u hu)
    -- those from the refused one on are as they were
    have hrest : List.Forall₂ (fun b p => ∃ env, PointsTo p env ∧ env = b.entries) (b :: after)
        ((op b).1 :: after.map fun b => some b.table) := by
      rw [List.forall₂_cons, List.forall₂_map_right_iff, List.forall₂_same]
      refine ⟨⟨_, (h b (hmem b (.inr (.inl rfl)))).refused hb, rfl⟩, fun u hu => ?_⟩
      exact ⟨_, ⟨_, rfl, hs u (hmem u (.inr (.inr hu)))⟩, rfl⟩
    rw [heq, and_iff_right hwalk, hblocks]
    simp only [Bool.false_eq_true, if_false]
    rw [forall₂_walked, and_iff_left hrest]
    constructor
    · intro hsame before' u after' heq' hbefore' hu v hv
      obtain rfl := first_refused heq' hbefore hb hbefore' hu
      obtain ⟨_, hv', rfl⟩ := hsame v hv
      exact (hkept v hv).mp hv'
    · intro hnothing u hu
      exact ⟨_, (hkept u hu).mpr (hnothing before b after rfl hbefore hb u hu), rfl⟩

/-! ## Unsetting a variable -/

/-- Nothing is removed exactly when no entry matches. -/
theorem removeSkipping_eq_self_iff (name : String) (env : List String) :
    removeSkipping name env = env ↔ ∀ e ∈ env, removeMatches name e = false := by
  fun_induction removeSkipping name env with
  | case1 => simp
  | case2 e hhit => simp [hhit]
  | case3 e hhit => simpa using hhit
  | case4 e next rest hhit ih =>
    refine iff_of_false (fun heq => ?_) fun hall => ?_
    · have hlength := congrArg List.length heq
      have hle := (removeSkipping_sublist name rest).length_le
      simp only [List.length_cons] at hlength
      omega
    · rw [hall e List.mem_cons_self] at hhit
      cases hhit
  | case5 e next rest hhit ih =>
    rw [List.cons_inj_right, ih]
    simp [hhit]

theorem environRemove_updates (h : b.table.Holds b.entries) (name : String) :
    Updates (fun b => environRemove b.moves b.table.counted name)
      (fun env env' => env' = withoutVariable name env) (fun b => b.entries = [])
      (fun b => RemovesExactly name b.entries ∧ b.moves = false)
      (fun b => b.moves = true ∨ ∃ e ∈ b.entries, removeMatches name e = true) b := by
  have hlen := h.len
  have hleft : ∀ env', PointsTo (environRemove b.moves b.table.counted name).1 env' ↔
      (b.moves = false ∨ b.entries = []) ∧ env' = removeSkipping name b.entries := by
    intro env'
    rw [h.counted]
    exact environRemove_pointsTo h b.moves name
  refine ⟨?_, fun hne => ?_, fun _ hne => ?_, fun hnil => ?_⟩
  · rw [h.counted, environRemove]
    by_cases hempty : b.table.len < 1
    · rw [if_pos hempty]
      have hnil : b.entries = [] := List.length_eq_zero_iff.mp (by omega)
      exact iff_of_false Bool.false_ne_true fun hne => hne hnil
    · rw [if_neg hempty]
      refine iff_of_true rfl fun hnil => hempty ?_
      rw [hlen, hnil]
      exact Nat.zero_lt_one
  · rw [exists_eq_right, hleft, or_iff_left hne, and_comm, ← removeSkipping_eq_iff,
      @eq_comm _ (withoutVariable name b.entries)]
  · rw [hleft, or_iff_left hne, @eq_comm _ b.entries (removeSkipping _ _),
      removeSkipping_eq_self_iff]
    simp
  · refine (hleft _).mpr ⟨.inr hnil, ?_⟩
    rw [hnil]
    rfl

/-- When unsetting a variable is right: it can be removed from every environment if none is
empty, and otherwise no environment before the first empty one is changed. -/
def UnsetsRight (name : String) (s : JobEnvirons) : Prop :=
  ((∀ b ∈ s.blocks, ¬ b.entries = []) →
    ∀ b ∈ s.blocks, RemovesExactly name b.entries ∧ b.moves = false) ∧
  NothingBefore (fun b => b.entries = [])
    (fun b => b.moves = true ∨ ∃ e ∈ b.entries, removeMatches name e = true) s.blocks

theorem environmentUnset_iff (hs : s.Held) (name : String) :
    AllOrNothing (fun env env' => env' = withoutVariable name env) s
        (jobClassEnvironmentUnset s name) ↔ UnsetsRight name s :=
  updateJobs_iff hs fun b hb => environRemove_updates (hs b hb) name

/-! ## Setting a variable -/

/-- There is no array after `environ_add` only where there was none and nothing is added. -/
theorem environAddTo_cells_eq_nil (h : t.Holds t.entries) (getenv : String → Option String)
    (replace : Bool) (var : String) :
    (environAddTo getenv t replace var).cells = [] ↔
      t.cells = [] ∧ newEntry getenv var = none := by
  unfold environAddTo
  cases hl : environLookup t.entries (entryKey var) with
  | none =>
    dsimp only
    cases newEntry getenv var with
    | none => simp
    | some new => simp [strArrayAddp]
  | some i =>
    have hi := environLookup_lt hl
    obtain ⟨spare, hcells⟩ := h.of_lt hi
    have hne : t.cells ≠ [] := by simp [hcells]
    refine iff_of_false ?_ fun hnull => hne hnull.1
    dsimp only
    cases replace with
    | false => exact hne
    | true =>
      rw [if_pos rfl]
      cases newEntry getenv var with
      | none =>
        dsimp only
        rw [hcells, h.len, memmove_erase _ spare hi]
        simp
      | some new => simpa using hne

theorem environAdd_updates (h : b.table.Holds b.entries) (hr : Restorable b.entries)
    (getenv : String → Option String) (replace : Bool) (var : String) :
    Updates (environAddCounted getenv replace var) (fun env => Updated getenv env [(replace, var)])
      (fun b => b.table.cells = [] ∧ newEntry getenv var = none) (fun _ => True)
      (fun b => replace = true ∧ (environLookup b.entries (entryKey var)).isSome = true) b := by
  have hadd := environAddTo_holds getenv h replace var
  have hleft : ∀ env', PointsTo (environAddCounted getenv replace var b).1 env' ↔
      env' = environAdd getenv b.entries replace var := by
    intro env'
    unfold environAddCounted
    rw [h.counted]
    exact pointsTo_some hadd
  refine ⟨?_, fun _ => ?_, ?_, ?_⟩
  · unfold environAddCounted
    rw [h.counted, ← environAddTo_cells_eq_nil h getenv replace var]
    simp
  · exact iff_of_true ⟨_, (hleft _).mpr rfl, updated_adds hr [(replace, var)]⟩ trivial
  · rintro ⟨-, -, hnone⟩ -
    rw [hleft, environAdd_eq, hnone]
    cases hl : environLookup b.entries (entryKey var) with
    | none => simp
    | some i =>
      cases replace with
      | false => simp
      | true =>
        refine iff_of_false (fun heq => ?_) fun hnot => hnot ⟨rfl, rfl⟩
        have hlength : b.entries.length = (b.entries.eraseIdx i).length := congrArg _ heq
        have hi := environLookup_lt hl
        rw [List.length_eraseIdx_of_lt hi] at hlength
        omega
  · rintro ⟨hcells, hnone⟩
    have hnil : b.entries = [] := by rw [EnvBlock.entries, EnvTable.entries, hcells]; rfl
    rw [hleft, hnil, environAdd_eq, hnone]
    rfl

/-- When setting a variable is right: no environment is changed before that of the first job
that has none at all, to which a bare name without a value is added. -/
def SetsRight (getenv : String → Option String) (var : String) (replace : Bool)
    (s : JobEnvirons) : Prop :=
  NothingBefore (fun b => b.table.cells = [] ∧ newEntry getenv var = none)
    (fun b => replace = true ∧ (environLookup b.entries (entryKey var)).isSome = true) s.blocks

theorem environmentSet_iff (hs : s.Held) (hr : ∀ b ∈ s.blocks, Restorable b.entries)
    (getenv : String → Option String) (var : String) (replace : Bool) :
    AllOrNothing (fun env => Updated getenv env [(replace, var)]) s
        (jobClassEnvironmentSet getenv s var replace) ↔ SetsRight getenv var replace s := by
  have hiff := updateJobs_iff hs fun b hb =>
    environAdd_updates (hs b hb) (hr b hb) getenv replace var
  exact hiff.trans (and_iff_right fun _ _ _ => trivial)

/-! ## Both -/

/-- For every job environment, all jobs and every variable: setting and unsetting the
variable update all environments or change none exactly when they are right. -/
theorem environment_allOrNothing_iff (hs : s.Held) (hr : ∀ b ∈ s.blocks, Restorable b.entries)
    (getenv : String → Option String) :
    (∀ var replace, AllOrNothing (fun env => Updated getenv env [(replace, var)]) s
        (jobClassEnvironmentSet getenv s var replace) ↔ SetsRight getenv var replace s) ∧
    ∀ name, AllOrNothing (fun env env' => env' = withoutVariable name env) s
      (jobClassEnvironmentUnset s name) ↔ UnsetsRight name s :=
  ⟨fun var replace => environmentSet_iff hs hr getenv var replace,
    fun name => environmentUnset_iff hs name⟩

/-- A job environment and two jobs, the second of which has an empty environment. -/
def twoJobs : JobEnvirons where
  jobEnviron := ⟨⟨[some "A=1", none], 1⟩, false⟩
  jobs := [⟨⟨[some "A=1", some "B=2", none], 2⟩, false⟩, ⟨⟨[none], 0⟩, false⟩]

theorem twoJobs_held : twoJobs.Held := by
  intro b hb
  simp only [twoJobs, JobEnvirons.blocks, List.mem_cons, List.not_mem_nil, or_false] at hb
  rcases hb with rfl | rfl | rfl <;> exact ⟨.inr ⟨[], rfl⟩, rfl⟩

theorem environment_allOrNothing_iff_twoJobs :
    (∀ var replace, AllOrNothing (fun env => Updated (fun _ => none) env [(replace, var)]) twoJobs
        (jobClassEnvironmentSet (fun _ => none) twoJobs var replace) ↔
      SetsRight (fun _ => none) var replace twoJobs) ∧
    ∀ name, AllOrNothing (fun env env' => env' = withoutVariable name env) twoJobs
      (jobClassEnvironmentUnset twoJobs name) ↔ UnsetsRight name twoJobs :=
  environment_allOrNothing_iff twoJobs_held (by decide) fun _ => none

/-- Unsetting a variable fails at a job with an empty environment, and has changed the other
tables. -/
theorem environmentUnset_half :
    twoJobs.Held ∧ (∀ b ∈ twoJobs.blocks, Restorable b.entries) ∧
      jobClassEnvironmentUnset twoJobs "A" =
        ([some ⟨[none], 0⟩, some ⟨[some "B=2", none], 1⟩, some ⟨[none], 0⟩], false) ∧
      ¬ AllOrNothing (fun env env' => env' = withoutVariable "A" env) twoJobs
        (jobClassEnvironmentUnset twoJobs "A") := by
  have hleft : jobClassEnvironmentUnset twoJobs "A" =
      ([some ⟨[none], 0⟩, some ⟨[some "B=2", none], 1⟩, some ⟨[none], 0⟩], false) := rfl
  refine ⟨twoJobs_held, by decide, hleft, fun h => ?_⟩
  rw [hleft, AllOrNothing, JobEnvirons.blocks, List.forall₂_cons] at h
  -- the global environment has lost its entry
  obtain ⟨⟨_, hglobal, rfl⟩, -⟩ := h
  have hempty : (⟨[none], 0⟩ : EnvTable).Holds [] := ⟨.inr ⟨[], rfl⟩, rfl⟩
  exact absurd ((pointsTo_some hempty).mp hglobal) (by decide)

end Startup
