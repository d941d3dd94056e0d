import Startup.World.RegistryFiles
import Startup.World.Runs

/-!
# Every run keeps the table of classes in agreement with the files

Events and requests leave the table as it is, up to the instances that end.  With what files do
to it this gives `reached_registry`, for the runs in which no override has errors.
-/

namespace Startup

open Lib

variable {k : Slack} {x : Host} {w : World} {c : ClassId}

/-! ## Events and requests -/

theorem finishEntry_registry {leak : EventId → Nat} {e : EventId} {entry : Blocked}
    {rest : List Blocked} (hs : Ending leak e (entry :: rest) w) (h : Registry [] none w) :
    Sat (finishEntry x e w entry) (Registry [] none) (fun _ => True) := by
  have hend : ∀ w' : World, Registry [] none w' → Registry [] none
      (w'.setSys (w'.sys.modifyEvent e fun ev => { ev with blocking := ev.blocking.drop 1 })) :=
    fun w' h' => (SameTables.of_sys _).registry h'
  cases entry with
  | job id =>
    dsimp only [finishEntry]
    rw [sat_bind]
    refine (withJob_registry hs.sound.housing h fun job hget => ?_).imp fun w' h' => hend w' h'
    have ho := hs.sound.accounts.owned (Store.mem_of_get? hget)
    have hframed : Framed w.sys { job with blocker := none } (blockerFinished x w.sys job) :=
      blockerFinished_frame ho
    exact hframed.sameOwner
  | emitMethod m =>
    dsimp only [finishEntry]
    split
    · trivial
    · exact hend _ ((SameTables.of_sys _).registry h)
  | _ => trivial

theorem eventFinished_registry {leak : EventId → Nat} {e : EventId} {ev : Event}
    (hs : SoundWith ⟨leak, some e, 0⟩ w) (hev : w.sys.event? e = some ev)
    (hzero : w.sys.blockers e = 0) (h : Registry [] none w) :
    Sat (eventFinished x w e) (Registry [] none) (fun _ => True) := by
  have hentries : ∀ (entries : List Blocked) (w : World), Ending leak e entries w →
      Registry [] none w →
      Sat (entries.foldlM (finishEntry x e) w) (Registry [] none) (fun _ => True) := by
    intro entries
    induction entries with
    | nil => exact fun _ _ h => h
    | cons entry rest ih =>
      intro w hs h
      rw [List.foldlM_cons, sat_bind]
      refine ((finishEntry_sat hs).and (finishEntry_registry hs h)).mono ?_ fun _ _ => trivial
      rintro w₁ ⟨⟨hs₁, -⟩, h₁⟩
      exact ih w₁ hs₁ h₁
  unfold eventFinished
  rw [hev]
  refine sat_assert (fun _ => trivial) fun _ => ?_
  rw [sat_bind]
  refine (hentries ev.blocking w ⟨hs, ⟨ev, hev, rfl⟩, hzero⟩ h).imp fun w₁ h₁ => ?_
  split
  · trivial
  · exact (SameTables.of_sys _).registry h₁

theorem eventPollEvent_registry {leak : EventId → Nat} {e : EventId} {o : HashOrder}
    (hs : WorldSound leak w) (h : Registry [] none w) :
    Sat (eventPollEvent x o w e) (Registry [] none) (fun _ => True) := by
  have hhandled : ∀ (w : World) (ev : Event), WorldSound leak w → Registry [] none w →
      w.sys.event? e = some ev → ev.progress = .handling →
      Sat (pollHandled x w e) (Registry [] none) (fun _ => True) := by
    intro w ev hs h hev hprogress
    unfold pollHandled
    rw [hev]
    dsimp only
    split
    · exact h
    · rename_i hstay
      have hzero : ev.blockers = 0 := by
        by_contra hne
        exact hstay ⟨hprogress, hne⟩
      obtain ⟨hfin, hfound, hblockers⟩ := hs.finish hev hzero
      exact eventFinished_registry hfin hfound hblockers ((SameTables.of_sys _).registry h)
  unfold eventPollEvent
  cases hev : w.sys.event? e with
  | none => exact h
  | some ev =>
    dsimp only
    split
    · rw [sat_bind, eventPending]
      obtain ⟨hhandling, hfound, hqueued⟩ := hs.handle hev
      refine ((eventPendingHandleJobs_holds hhandling hqueued).and
        (eventPendingHandleJobs_tables hhandling hqueued)).mono ?_ fun _ _ => trivial
      rintro w₁ ⟨⟨hg₁, -⟩, ht₁⟩
      obtain ⟨new, hext, -⟩ := hg₁.queue
      obtain ⟨ev₁, hev₁, hbare⟩ := hext.event? hg₁.sound.ties.unique hfound
      have hprogress : ev₁.bare.progress = .handling := by
        rw [hbare]
        rfl
      exact hhandled w₁ ev₁ hg₁.sound (((SameTables.of_sys _).trans ht₁).registry h) hev₁ hprogress
    · rename_i hne
      exact hhandled w ev hs h hev (hs.handling hev hne)

theorem jobClassStart_registry {message : MessageId} {env : List String} {wait : Bool}
    (hs : SoundWith k w) (htable : InTable w c) (h : Registry [] none w) :
    Sat (jobClassStart x w c message env wait) (Registry [] none) (fun _ => True) := by
  have hrefused := (SameTables.of_sys (w.sys.act (.replied message false))).registry h
  obtain ⟨cls, hcls, hreg⟩ := htable
  have hid : cls.id = c := Store.key_of_get? hcls
  subst hid
  unfold jobClassStart World.getClass
  simp only [hcls]
  rw [sat_bind, sat_ok]
  split
  · exact hrefused
  split
  · exact hrefused
  split
  · exact hrefused
  · rw [sat_bind]
    refine ((findOrNew_sat hs hcls hreg).and (findOrNew_tables hs)).mono ?_ fun _ _ => trivial
    rintro ⟨w₁, job⟩ ⟨⟨hg₁, -, -⟩, ht₁⟩
    refine withJob_registry hg₁.sound.housing (ht₁.registry h) fun job' hget => ?_
    exact (jobClassStartInstance_frame
      (hg₁.sound.accounts.owned (Store.mem_of_get? hget))).sameOwner

theorem inductWaiting_tables (hs : SoundWith k w) (htable : InTable w c) :
    Sat (inductWaiting x w c) (SameTables w) (fun _ => True) := by
  obtain ⟨cls, hcls, -⟩ := id htable
  unfold inductWaiting World.getClass
  simp only [hcls]
  rw [sat_bind, sat_ok]
  split
  · exact .refl w
  · rename_i root hroot
    split
    · exact .refl w
    · refine sat_assert (fun _ => trivial) fun _ => ?_
      rw [sat_bind]
      refine (jobClassInductJob_tables hs htable ?_).imp ?_
      · intro cls' hcls'
        rw [hcls] at hcls'
        cases hcls'
        simp [hroot]
      · rintro ⟨w₁, ok⟩ ht₁
        dsimp only at ht₁ ⊢
        split
        · trivial
        · rename_i cls₁ hcls₁
          rw [sat_bind, sat_ok]
          have hid : cls₁.id = c := Store.key_of_get? hcls₁
          subst hid
          exact (resetStartOn_tables { cls₁ with cgmanagerWait := false } hcls₁ rfl).imp
            fun _ ht₂ => ht₁.trans ht₂

theorem jobClassInductJobs_tables {o : HashOrder} (hs : SoundWith k w) :
    Sat (jobClassInductJobs x o w) (SameTables w) (fun _ => True) := by
  unfold jobClassInductJobs
  refine sat_assert (fun _ => trivial) fun _ => ?_
  have htable := hs.inTable_order o
  generalize o.order (w.registered.items.map Registration.cls) = cs at htable
  induction cs generalizing w with
  | nil => exact .refl w
  | cons c cs ih =>
    have hc := htable c List.mem_cons_self
    rw [List.foldlM_cons, sat_bind]
    refine ((inductWaiting_holds hs hc).and (inductWaiting_tables hs hc)).mono ?_
      fun _ _ => trivial
    rintro w₁ ⟨⟨hg₁, hsame₁⟩, ht₁⟩
    exact (ih hg₁.sound fun c' hc' =>
      hsame₁.inTable (htable c' (List.mem_cons_of_mem _ hc'))).imp fun _ ht₂ => ht₁.trans ht₂

/-! ## Every run -/

/-- Init does not execute itself again, and no override file has errors. -/
def Orderly (_ : Host) (_ : World) : WorldInput → Prop
  | .load _ _ _ override => GoodOverride override
  | .reexec => False
  | _ => True

theorem worldStep_registry {leak : EventId → Nat} {i : WorldInput} (hs : WorldSound leak w)
    (h : Registry [] none w) (hi : WorldEnabled x w i) (horderly : Orderly x w i) :
    Sat (worldStep x w i) (Registry [] none) (fun _ => True) := by
  cases i with
  | emit message name env valid wait file =>
    have hsame : SameTables w (controlEmitEvent w message name env valid wait file) := by
      cases message with
      | none => exact .of_sys _
      | some m => exact .of_sys _
    exact hsame.registry h
  | poll e order => exact eventPollEvent_registry hs h
  | job id input =>
    obtain ⟨hdirect, job, hget, henabled⟩ := hi
    show Sat (withJob w .eventPending id fun sys job => jobStep x sys job input) _ _
    refine withJob_registry hs.housing h fun job' hget' => ?_
    rw [hget] at hget'
    cases hget'
    exact (jobStep_acts hs (Store.mem_of_get? hget) hdirect henabled).framed.sameOwner
  | classStart c message env wait =>
    obtain ⟨r, hr, rfl⟩ := hi
    exact jobClassStart_registry hs (hs.inTable hr) h
  | load source path content override =>
    exact (confLoadPathWithOverride_registry hs h horderly).imp fun _ h' => h'.1
  | delete source path => exact (confDeleteHandler_registry hs h).imp fun _ h' => h'.1
  | inductJobs order => exact (jobClassInductJobs_tables hs).imp fun _ ht => ht.registry h
  | reexec => exact horderly.elim

theorem World.Initial.registry (h : w.Initial) : Registry [] none w := by
  have hreg : ∀ n, w.getRegistered n = none := fun n => by
    simp [World.getRegistered, Store.get?, h.registered]
  refine ⟨by simp [h.files], by simp [h.files], by simp [h.files], fun n c hc => ?_, fun n _ _ => ?_,
    by simp [h.classes]⟩
  · rw [hreg] at hc
    cases hc
  · rw [World.select, h.files]
    rfl

theorem reached_registry (h : WorldReached Orderly w) :
    (∃ leak, WorldSound leak w) ∧ Registry [] none w := by
  refine Reach.invariant (I := fun w => (∃ leak, WorldSound leak w) ∧ Registry [] none w) ?_ ?_ h
  · exact fun w hw => ⟨⟨_, hw.sound⟩, hw.registry⟩
  · rintro w ⟨x, i⟩ ⟨⟨leak, hs⟩, hr⟩ ⟨hi, horderly⟩
    refine ((worldStep_sound hs hi).and (worldStep_registry hs hr hi horderly)).mono ?_
      fun _ _ => trivial
    exact fun w' ⟨hs', hr'⟩ => ⟨⟨_, hs'⟩, hr'⟩

/-- In every run in which the override files have no errors, a registered class without instances is
the one that the files choose, no name with a choice is without a registered class, no class stays
behind when its file is gone and its instances have ended, and reading or deleting a file frees no
instance. -/
theorem reached_chosen (h : WorldReached Orderly w) :
    (∀ n c, w.getRegistered n = some c → w.instances c = [] → confSelectJob w n = .ok (some c)) ∧
      (∀ n, w.getRegistered n = none → confSelectJob w n = .ok none) ∧
      (∀ cls ∈ w.classes.items, (∃ file ∈ w.files, file.job = some cls.id) ∨
        cls.deleted = true ∧ w.instances cls.id ≠ []) ∧
      (∀ x source path content override, GoodOverride override →
        Sat (confLoadPathWithOverride x w source path content override)
          (fun w' => w'.jobs = w.jobs) (fun _ => True)) ∧
      ∀ source path, Sat (confDeleteHandler w source path) (fun w' => w'.jobs = w.jobs)
        (fun _ => True) := by
  obtain ⟨⟨leak, hs⟩, hr⟩ := reached_registry h
  refine ⟨fun n c hreg hempty => ?_, fun n hreg => ?_, fun cls hcls => hr.held cls hcls (by simp),
    fun x source path content override hgood => ?_, fun source path => ?_⟩
  · rw [hr.confSelectJob_eq, hr.chosen n c hreg hempty (by simp) (by simp)]
  · rw [hr.confSelectJob_eq, hr.missing n hreg (by simp)]
  · exact (confLoadPathWithOverride_registry hs hr hgood).imp fun _ h' => h'.2
  · exact (confDeleteHandler_registry hs hr).imp fun _ h' => h'.2

/-- A file of the first source takes the place of one of the second. -/
theorem reached_chosen_first :
    ∃ w, WorldReached Orderly w ∧ w.getRegistered "a" = some 2 ∧
      confSelectJob w "a" = .ok (some 2) := by
  have h₁ := (reached_newWorld Orderly).next
    (.load 1 "/two/a.conf" (some onceParsed) none) ⟨trivial, fun _ hf => by cases hf⟩ rfl
  have h₂ := h₁.next (.load 0 "/one/a.conf" (some bothParsed) none)
    ⟨trivial, fun _ hf => by cases hf⟩ rfl
  exact ⟨_, h₂, rfl, (reached_chosen h₂).1 "a" 2 rfl rfl⟩

end Startup
