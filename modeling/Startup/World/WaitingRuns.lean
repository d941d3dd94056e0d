import Startup.World.Waiting

/-!
# Runs in which no start is lost to the cgroup manager

In a run whose steps are all `Undisturbed`, a class waits for the cgroup manager exactly
when its condition is true, and goes on waiting until the manager is there.
-/

namespace Startup

open Lib

variable {x : Host} {w w' w₀ : World} {c : ClassId}

/-! ## Handling an event -/

/-- The class was there and did not wait. -/
def NotWaiting (w : World) (cls' : ClassState) : Prop :=
  ∃ cls ∈ w.classes.items, cls.id = cls'.id ∧ cls.cgmanagerWait = false

theorem NotWaiting.same (cls cls' : ClassState) (h : SameStart cls cls')
    (hn : NotWaiting w cls) : NotWaiting w cls' := by
  obtain ⟨old, hmem, hid, hwait⟩ := hn
  exact ⟨old, hmem, hid.trans h.id.symm, hwait⟩

/-- Before the loop over the classes comes to `cs`, which are still to be offered the
event. -/
structure Handling (x : Host) (event : Event) (w₀ w : World) (cs : List ClassId) : Prop where
  sound : ∀ cls ∈ w.classes.items, WaitSound cls
  kept : KeepsStart (NotWaiting w₀) w₀ w
  completes : ∀ c ∈ cs, ∀ cls, w.classes.get? c = some cls → Completes x event cls

theorem Handling.leaves {event : Event} {cs : List ClassId} (h : Handling x event w₀ w cs)
    (hl : KeepsStart Nobody w w') : Handling x event w₀ w' cs := by
  refine ⟨hl.waitSound (fun _ hf => hf.elim) h.sound,
    h.kept.trans (hl.mono fun _ hf => hf.elim) NotWaiting.same, fun c hc cls' hget' => ?_⟩
  obtain hf | ⟨cls, hcls, hsame⟩ := hl cls' (Store.mem_of_get? hget')
  · exact hf.elim
  · have hid : cls.id = c := hsame.id.symm.trans (Store.key_of_get? hget')
    have hget : w.classes.get? c = some cls := hid ▸ Store.get?_of_mem hcls
    exact hsame.completes (h.completes c hc cls hget)

/-- A class waits as it did, or it did not wait when the loop began. -/
theorem Handling.notWaiting {event : Event} {cs : List ClassId} {cls : ClassState}
    (h : Handling x event w₀ w cs) (hcls : cls ∈ w.classes.items)
    (hidle : x.cgroupManagerAvailable = true → ∀ cls ∈ w₀.classes.items, cls.cgmanagerWait = false) :
    NotWaiting w₀ cls ∨ cls.cgmanagerWait = true ∧ x.cgroupManagerAvailable = false := by
  rcases h.kept cls hcls with hn | ⟨old, hold, hsame⟩
  · exact .inl hn
  · cases hwait : cls.cgmanagerWait with
    | false => exact .inl ⟨old, hold, hsame.id.symm, hsame.wait.symm.trans hwait⟩
    | true =>
      cases havailable : x.cgroupManagerAvailable with
      | false => exact .inr ⟨rfl, rfl⟩
      | true =>
        have hno := hidle havailable old hold
        rw [← hsame.wait, hwait] at hno
        cases hno

/-- An event is not offered to a class that waits. -/
theorem handleStartOn_waiting {cls : ClassState} {event : Event}
    (hget : w.classes.get? c = some cls) (hw : WaitSound cls) (hwait : cls.cgmanagerWait = true)
    (hno : x.cgroupManagerAvailable = false) : handleStartOn x w c event = .ok (w, true) := by
  have hcgroups := hw.cgroups hwait
  unfold handleStartOn World.getClass
  cases hroot : cls.startOn with
  | none => simp only [hget, hroot, bind, Except.bind]
  | some root =>
    simp [hget, hroot, hcgroups, hno, awaitCgroupManager, hwait, bind, Except.bind]

theorem handleStartOn_handling {event : Event} {cs : List ClassId}
    (h : Handling x event w₀ w (c :: cs)) (hnodup : (c :: cs).Nodup)
    (hidle : x.cgroupManagerAvailable = true → ∀ cls ∈ w₀.classes.items, cls.cgmanagerWait = false) :
    Sat (handleStartOn x w c event) (fun r => Handling x event w₀ r.1 cs) (fun _ => True) := by
  have hrest : Handling x event w₀ w cs :=
    ⟨h.sound, h.kept, fun c' hc' => h.completes c' (List.mem_cons_of_mem c hc')⟩
  cases hget : w.classes.get? c with
  | none => simp [handleStartOn, World.getClass, hget, bind, Except.bind]
  | some cls =>
    have hmem := Store.mem_of_get? hget
    rcases h.notWaiting hmem hidle with hn | ⟨hwait, hno⟩
    · refine (handleStartOn_offered hget (h.sound cls hmem)
        (h.completes c List.mem_cons_self cls hget)).imp ?_
      rintro ⟨w', ok⟩ hoffered
      refine ⟨hoffered.waitSound h.sound, ?_, ?_⟩
      · refine h.kept.trans (hoffered.others.mono fun cls' hid' => ?_) NotWaiting.same
        obtain ⟨old, hold, hid, hwait⟩ := hn
        exact ⟨old, hold, hid.trans ((Store.key_of_get? hget).trans hid'.symm), hwait⟩
      · intro c' hc' cls' hget'
        have hne : c' ≠ c := fun heq => (List.nodup_cons.mp hnodup).1 (heq ▸ hc')
        have hid' : cls'.id = c' := Store.key_of_get? hget'
        obtain hid | ⟨old, hold, hsame⟩ := hoffered.others cls' (Store.mem_of_get? hget')
        · exact absurd (hid'.symm.trans hid) hne
        · have hget₀ : w.classes.get? c' = some old := by
            rw [← hid', hsame.id]
            exact Store.get?_of_mem hold
          exact hsame.completes (h.completes c' (List.mem_cons_of_mem c hc') old hget₀)
    · rw [handleStartOn_waiting hget (h.sound cls hmem) hwait hno]
      exact hrest

theorem handleClasses_handling {o : HashOrder} {event : Event} {cs : List ClassId}
    (h : Handling x event w₀ w cs) (hnodup : cs.Nodup)
    (hidle : x.cgroupManagerAvailable = true → ∀ cls ∈ w₀.classes.items, cls.cgmanagerWait = false) :
    Sat (handleClasses x o event w cs) (fun w' => Handling x event w₀ w' []) (fun _ => True) := by
  induction cs generalizing w with
  | nil => exact h
  | cons c cs ih =>
    rw [handleClasses, sat_bind]
    refine (handleInstances_leaves w event _).imp fun w₁ h₁ => ?_
    rw [sat_bind]
    refine (handleStartOn_handling (h.leaves h₁) hnodup hidle).imp ?_
    rintro ⟨w₂, ok⟩ h₂
    cases ok with
    | false => exact ⟨h₂.sound, h₂.kept, by simp⟩
    | true => exact ih h₂ (List.nodup_cons.mp hnodup).2

/-- Each class is in the table once. -/
theorem SoundWith.registered_nodup {k : Slack} (h : SoundWith k w) :
    (w.registered.items.map Registration.cls).Nodup := by
  refine List.Nodup.map_on ?_ (List.Nodup.of_map _ w.registered.nodup)
  intro r hr r' hr' heq
  obtain ⟨cls, hcls, hname⟩ := h.housing.known r hr
  obtain ⟨cls', hcls', hname'⟩ := h.housing.known r' hr'
  rw [heq, hcls'] at hcls
  cases hcls
  exact List.inj_on_of_nodup_map w.registered.nodup hr hr' (hname.symm.trans hname')

/-- What the handling of an event needs: when the manager is there no class waits for it
any more, and otherwise the event completes the conditions that it is a part of. -/
def PollUndisturbed (x : Host) (w : World) (e : EventId) : Prop :=
  ∀ event, w.sys.event? e = some event → event.progress = .pending →
    (x.cgroupManagerAvailable = true → ∀ cls ∈ w.classes.items, cls.cgmanagerWait = false) ∧
      ∀ cls ∈ w.classes.items, Completes x event cls

theorem eventPollEvent_waiting {k : Slack} {o : HashOrder} {e : EventId} (hs : SoundWith k w)
    (hw : ∀ cls ∈ w.classes.items, WaitSound cls) (h : PollUndisturbed x w e) :
    Sat (eventPollEvent x o w e)
      (fun w' => (∀ cls ∈ w'.classes.items, WaitSound cls) ∧ KeepsStart (NotWaiting w) w w')
      (fun _ => True) := by
  have hsame : KeepsStart (NotWaiting w) w w := .of_classes rfl
  have hhandled : ∀ w₁, (∀ cls ∈ w₁.classes.items, WaitSound cls) →
      KeepsStart (NotWaiting w) w w₁ → Sat (pollHandled x w₁ e)
        (fun w' => (∀ cls ∈ w'.classes.items, WaitSound cls) ∧ KeepsStart (NotWaiting w) w w')
        (fun _ => True) := by
    intro w₁ hw₁ hk₁
    refine (pollHandled_leaves w₁ e).imp fun w₂ h₂ => ?_
    exact ⟨h₂.waitSound (fun _ hf => hf.elim) hw₁,
      hk₁.trans (h₂.mono fun _ hf => hf.elim) NotWaiting.same⟩
  unfold eventPollEvent
  split
  · exact ⟨hw, hsame⟩
  · rename_i event hevent
    split
    · rename_i hpending
      obtain ⟨hidle, hcompletes⟩ := h event hevent hpending
      rw [sat_bind]
      have hstart : Handling x event w (w.setSys (w.sys.modifyEvent event.id fun ev =>
          { ev with progress := .handling })) (o.order (w.registered.items.map Registration.cls)) :=
        ⟨hw, hsame, fun c _ cls hget => hcompletes cls (Store.mem_of_get? hget)⟩
      have hnodup := (o.perm _).nodup_iff.mpr hs.registered_nodup
      refine (handleClasses_handling hstart hnodup hidle).imp fun w₁ h₁ => ?_
      exact hhandled w₁ h₁.sound h₁.kept
    · exact hhandled w hw hsame

/-! ## Loading a file -/

/-- A class of a name that has no matches, and does not wait. -/
structure Blank (n : String) (cls : ClassState) : Prop where
  name : cls.config.name = n
  wait : cls.cgmanagerWait = false
  consistent : ∀ root, cls.startOn = some root → root.Consistent
  refs : ∀ root, cls.startOn = some root → root.refs = []
  value : ∀ root, cls.startOn = some root → root.value = false

theorem Blank.same {n : String} (cls cls' : ClassState) (h : SameStart cls cls')
    (hb : Blank n cls) : Blank n cls' := by
  obtain ⟨hname, hwait, hconsistent, hrefs, hvalue⟩ := hb
  rw [← h.startOn] at hconsistent hrefs hvalue
  exact ⟨h.config ▸ hname, h.wait.trans hwait, hconsistent, hrefs, hvalue⟩

theorem Blank.waitSound {n : String} {cls : ClassState} (h : Blank n cls) : WaitSound cls := by
  refine ⟨h.consistent, ?_, ?_⟩
  · rw [h.wait, ClassState.satisfied]
    cases hroot : cls.startOn with
    | none => rfl
    | some root => rw [Option.any_some, h.value root hroot]
  · intro hf
    rw [h.wait] at hf
    cases hf

/-- A condition without matches is false. -/
theorem value_of_no_refs {root : EventOperator} (hl : root.Linked) (hc : root.Consistent)
    (hr : root.refs = []) : root.value = false := by
  induction root with
  | eventMatch name env v ev =>
    have hev : ev = none := by simpa [EventOperator.refs] using hr
    subst hev
    exact hl
  | eventAnd v l r ihl ihr =>
    obtain ⟨hl', hr'⟩ := List.append_eq_nil_iff.mp hr
    show v = false
    rw [hc.1, ihl hl.1 hc.2.1 hl', Bool.false_and]
  | eventOr v l r ihl ihr =>
    obtain ⟨hl', hr'⟩ := List.append_eq_nil_iff.mp hr
    show v = false
    rw [hc.1, ihl hl.1 hc.2.1 hl', ihr hl.2 hc.2.2 hr', Bool.or_self]

/-- All classes of a name are blank. -/
def AllBlank (n : String) (w : World) : Prop :=
  ∀ cls ∈ w.classes.items, cls.config.name = n → Blank n cls

theorem KeepsStart.allBlank {n : String} (h : KeepsStart (Blank n) w w') (hb : AllBlank n w) :
    AllBlank n w' := by
  intro cls' hcls' hname
  rcases h cls' hcls' with hp | ⟨cls, hcls, hsame⟩
  · exact hp
  · exact Blank.same cls cls' hsame (hb cls hcls (by rw [← hsame.config]; exact hname))

theorem blank_unmatched {n : String} {cls : ClassState} {new : Option Unmatched}
    (hname : cls.config.name = n) (hwait : cls.cgmanagerWait = false)
    (hstart : cls.startOn = new.map Unmatched.root) : Blank n cls := by
  have hroot : ∀ root, cls.startOn = some root → ∃ u : Unmatched, root = u.root := by
    intro root hr
    rw [hstart] at hr
    obtain ⟨u, -, rfl⟩ := Option.map_eq_some_iff.mp hr
    exact ⟨u, rfl⟩
  refine ⟨hname, hwait, fun root hr => ?_, fun root hr => ?_, fun root hr => ?_⟩
  · obtain ⟨u, rfl⟩ := hroot root hr
    rw [← u.unmatched]
    exact EventOperator.consistent_reset u.root
  · obtain ⟨u, rfl⟩ := hroot root hr
    exact u.refs
  · obtain ⟨u, rfl⟩ := hroot root hr
    rw [← u.unmatched]
    exact EventOperator.value_reset u.root

/-- The files and the sources are as they were. -/
def SameFiles (w w' : World) : Prop := w'.files = w.files ∧ w'.sources = w.sources

theorem SameFiles.refl (w : World) : SameFiles w w := ⟨rfl, rfl⟩

theorem SameFiles.trans {w'' : World} (h : SameFiles w w') (h' : SameFiles w' w'') :
    SameFiles w w'' := ⟨h'.1.trans h.1, h'.2.trans h.2⟩

/-- What parsing makes of a class: a blank one. -/
theorem parseJob_blank {n : String} {update : Option ClassId} {parsed : Parsed}
    (hupdate : ∀ c, update = some c → ∀ cls, w.classes.get? c = some cls → Blank n cls) :
    Sat (parseJob w update n parsed)
      (fun r => KeepsStart (Blank n) w r.1 ∧ r.1.sources = w.sources ∧
        ∀ c, r.2 = some c → ∀ cls, r.1.classes.get? c = some cls → Blank n cls)
      (fun _ => True) := by
  unfold parseJob
  cases update with
  | none =>
    dsimp only
    split
    · have hblank : Blank n (parsedClass (w.lastClass + 1) n parsed) :=
        blank_unmatched rfl rfl rfl
      refine ⟨KeepsStart.put_of hblank, rfl, ?_⟩
      rintro _ ⟨⟩ cls hget
      have hself : (w.putClass (parsedClass (w.lastClass + 1) n parsed)).classes.get?
          (w.lastClass + 1) = some (parsedClass (w.lastClass + 1) n parsed) := Store.get?_put_self
      obtain rfl := Option.some.inj (hself.symm.trans hget)
      exact hblank
    · exact ⟨.of_classes rfl, rfl, fun c hc => by cases hc⟩
  | some c =>
    dsimp only
    unfold World.getClass
    cases hget : w.classes.get? c with
    | none => trivial
    | some cls =>
      have hid : cls.id = c := Store.key_of_get? hget
      have hold := hupdate c rfl cls hget
      dsimp only
      rw [sat_bind, sat_ok, sat_bind]
      have hparse : Sat (parseOn w.sys cls.startOn parsed.startOn)
          (fun r => r.2 = cls.startOn ∨ ∃ new : Option Unmatched, r.2 = new.map Unmatched.root)
          (fun _ => True) := by
        unfold parseOn
        split
        · exact .inl rfl
        · rw [sat_bind]
          exact (sat_true (m := destroyOperator _ _)).imp fun sys _ => .inr ⟨_, rfl⟩
      refine hparse.imp ?_
      rintro ⟨sys₁, startOn⟩ hstart
      rw [sat_bind]
      refine (sat_true (m := parseOn _ _ _)).imp ?_
      rintro ⟨sys₂, stopOn⟩ -
      have hblank : Blank n { cls with
          config := { parsed.config with name := cls.config.name }
          startOn := startOn
          stopOn := stopOn } := by
        rcases hstart with rfl | ⟨new, rfl⟩
        · exact ⟨hold.name, hold.wait, hold.consistent, hold.refs, hold.value⟩
        · exact blank_unmatched hold.name hold.wait rfl
      refine ⟨KeepsStart.put_of (w := w.setSys sys₂) hblank, rfl, fun c' hc' cls' hget' => ?_⟩
      dsimp only at hc'
      split at hc'
      · cases hc'
        rw [← hid] at hget'
        have hself := Store.get?_put_self (s := w.classes) (a := ({ cls with
          config := { parsed.config with name := cls.config.name }
          startOn := startOn
          stopOn := stopOn } : ClassState))
        obtain rfl := Option.some.inj (hself.symm.trans hget')
        exact hblank
      · cases hc'

/-- From a class without matches nothing is taken over. -/
theorem jobClassEventBlock_blank {old new : ClassId} {cls : ClassState}
    (hget : w.classes.get? old = some cls) (hrefs : ∀ root, cls.startOn = some root → root.refs = []) :
    Sat (jobClassEventBlock x w old new)
      (fun w' => KeepsStart Nobody w w' ∧ SameFiles w w')
      (fun _ => True) := by
  unfold jobClassEventBlock
  have hget' : w.getClass .jobClassEventBlock old = .ok cls := by rw [World.getClass, hget]
  rw [hget', sat_bind, sat_ok, sat_bind]
  refine (getClass_sat rfl).mono ?_ fun _ _ => trivial
  rintro newClass ⟨hnew, hid⟩
  split
  · rename_i oldRoot newRoot hold hnewRoot
    split
    · rw [hrefs oldRoot hold]
      subst hid
      exact ⟨.put hnew ⟨rfl, rfl, hnewRoot.symm, rfl⟩, .refl w⟩
    · exact ⟨.of_classes rfl, .refl w⟩
  · exact ⟨.of_classes rfl, .refl w⟩

theorem resetStartOn_blank {n : String} {cls : ClassState} (hb : Blank n cls) :
    Sat (resetStartOn w cls) (fun w' => KeepsStart (Blank n) w w' ∧ SameFiles w w')
      (fun _ => True) := by
  cases hroot : cls.startOn with
  | none =>
    rw [resetStartOn, hroot]
    exact ⟨.of_classes rfl, .refl w⟩
  | some root =>
    refine (resetStartOn_put hroot).imp ?_
    rintro _ ⟨sys, rfl⟩
    let unmatched : Unmatched := ⟨eventOperatorReset root, EventOperator.reset_reset root⟩
    have hstart : some (eventOperatorReset root) = (some unmatched).map Unmatched.root := rfl
    have hreset : Blank n { cls with startOn := some (eventOperatorReset root) } :=
      blank_unmatched hb.name hb.wait hstart
    exact ⟨.put_of (w := w.setSys sys) hreset, .refl w⟩

/-- The choice of the registered class leaves blank classes blank. -/
theorem jobClassConsider_blank {k : Slack} {n : String} (hs : SoundWith k w) (hb : AllBlank n w)
    (hc : ∀ cls, w.classes.get? c = some cls → cls.config.name = n) :
    Sat (jobClassConsider x w c) (fun r => KeepsStart (Blank n) w r.1 ∧ SameFiles w r.1)
      (fun _ => True) := by
  unfold jobClassConsider
  rw [sat_bind]
  refine (getClass_sat rfl).mono ?_ fun _ _ => trivial
  rintro cls ⟨hget, -⟩
  have hname := hc cls hget
  rw [sat_bind]
  refine selectFrom_sat.mono (fun best hbest => ?_) fun _ _ => trivial
  cases best with
  | none => trivial
  | some best =>
    have hadd : ∀ w₁, KeepsStart (Blank n) w w₁ → SameFiles w w₁ → ∀ b : Bool, Sat
        (jobClassAdd w₁ (some best) >>= fun w' => .ok (w', b))
        (fun r => KeepsStart (Blank n) w r.1 ∧ SameFiles w r.1) (fun _ => True) := by
      intro w₁ hk₁ hf₁ b
      rw [sat_bind]
      refine (jobClassAdd_onlyTable w₁ _).imp ?_
      rintro _ ⟨registered, rfl⟩
      exact ⟨hk₁.trans (.of_classes rfl) Blank.same, hf₁⟩
    cases hreg : w.getRegistered cls.config.name with
    | none => exact hadd w (.of_classes rfl) (.refl w) _
    | some old =>
      dsimp only
      split
      · exact ⟨.of_classes rfl, .refl w⟩
      · obtain ⟨oldClass, hold, holdName⟩ := hs.getRegistered hreg
        have hblank := hb oldClass (Store.mem_of_get? hold) (holdName.trans hname)
        rw [sat_bind]
        refine (jobClassEventBlock_blank hold hblank.refs).imp ?_
        rintro w₁ ⟨h₁, hf₁⟩
        have hk₁ : KeepsStart (Blank n) w w₁ := h₁.mono fun _ hf => hf.elim
        rw [sat_bind]
        refine (sat_true (m := w₁.getClass _ _)).imp fun oldClass₁ _ => ?_
        unfold jobClassRemove
        by_cases hempty : (w₁.instances oldClass₁.id).isEmpty = true
        · simp only [hempty, if_true]
          exact hadd { w₁ with registered := w₁.registered.erase oldClass₁.config.name } hk₁ hf₁ _
        · simp only [hempty, Bool.false_eq_true, if_false]
          rw [sat_bind]
          refine (getClass_sat rfl).mono ?_ fun _ _ => trivial
          rintro b ⟨hget₁, hid⟩
          subst hid
          obtain ⟨b₀, hb₀, hb₀Name⟩ := hbest _ rfl
          obtain hf | hsame := h₁.get hb₀ hget₁
          · exact hf.elim
          · have hb₁ : Blank n b := Blank.same b₀ b hsame
              (hb b₀ (Store.mem_of_get? hb₀) (hb₀Name.trans hname))
            rw [sat_bind]
            refine (resetStartOn_blank hb₁).imp ?_
            rintro w₂ ⟨h₂, hf₂⟩
            exact ⟨hk₁.trans h₂ Blank.same, hf₁.trans hf₂⟩

/-- The class of a file has a name, and all classes of the name are blank. -/
structure Loading (n : String) (source : Nat) (path : String) (w w' : World) : Prop where
  kept : KeepsStart (Blank n) w w'
  sources : w'.sources = w.sources
  named : ∀ c, (w'.confFile? source path).bind ConfFile.job = some c →
    ∀ cls, w'.classes.get? c = some cls → cls.config.name = n

theorem confFileDestroy_files (w : World) (file : ConfFile) :
    Sat (confFileDestroy w file) (SameFiles w) (fun _ => True) := by
  unfold confFileDestroy
  split
  · exact .refl w
  · rw [sat_bind]
    refine (sat_true (m := World.getClass _ _ _)).imp fun cls _ => ?_
    rw [sat_bind]
    refine (jobClassReconsider_onlyTable _ _).imp ?_
    rintro ⟨_, unused⟩ ⟨registered, rfl⟩
    dsimp only
    split
    · unfold freeClass
      rw [sat_bind]
      refine sat_true.imp fun _ _ => ?_
      rw [sat_bind]
      refine sat_true.imp fun _ _ => ?_
      rw [sat_bind]
      exact sat_true.imp fun _ _ => .refl w
    · exact .refl w

theorem destroyOrig_loading {n : String} {source : Nat} {path : String} {orig : Option ConfFile}
    (h : Loading n source path w₀ w) :
    Sat (destroyOrig w orig) (Loading n source path w₀) (fun _ => True) := by
  have hfiles : Sat (destroyOrig w orig) (SameFiles w) (fun _ => True) := by
    cases orig with
    | none => exact .refl w
    | some file => exact confFileDestroy_files w file
  refine ((destroyOrig_leaves w orig).and hfiles).mono ?_ fun _ _ => trivial
  rintro w' ⟨hk, hf, hsources⟩
  refine ⟨h.kept.trans (hk.mono fun _ hf => hf.elim) Blank.same, hsources.trans h.sources,
    fun c hc cls hget => ?_⟩
  have hc' : (w.confFile? source path).bind ConfFile.job = some c := by
    rw [World.confFile?, ← hf]
    exact hc
  obtain hf | ⟨old, hold, hsame⟩ := hk cls (Store.mem_of_get? hget)
  · exact hf.elim
  · rw [hsame.config]
    refine h.named c hc' old ?_
    rw [← show old.id = c from hsame.id.symm.trans (Store.key_of_get? hget)]
    exact Store.get?_of_mem hold

/-- Reading a file whose name has blank classes only. -/
theorem confReloadPath_loading {k : Slack} {source : Nat} {path : String} {overriding : Bool}
    {content : Option Parsed} (hs : SoundWith k w)
    (hb : AllBlank (confToJobName (w.sources.getD source "") path) w)
    (hnamed : overriding = true → ∀ c, (w.confFile? source path).bind ConfFile.job = some c →
      ∀ cls, w.classes.get? c = some cls →
        cls.config.name = confToJobName (w.sources.getD source "") path) :
    Sat (confReloadPath x w source path overriding content)
      (fun r => Loading (confToJobName (w.sources.getD source "") path) source path w r.1)
      (fun _ => True) := by
  generalize hn : confToJobName (w.sources.getD source "") path = n at hb hnamed ⊢
  have hnone := confFile?_removeFile w source path
  -- the file that is there when the text is parsed
  have hbefore : ∃ w₁ orig, SoundWith k w₁ ∧ w₁.classes = w.classes ∧ w₁.sources = w.sources ∧
      (∀ c, (w₁.confFile? source path).bind ConfFile.job = some c →
        ∀ cls, w₁.classes.get? c = some cls → cls.config.name = n) ∧
      w₁ = (if overriding then w else w.removeFile source path) ∧
      orig = (if overriding then none else w.confFile? source path) := by
    cases overriding with
    | true => exact ⟨w, none, hs, rfl, rfl, hnamed rfl, rfl, rfl⟩
    | false =>
      refine ⟨w.removeFile source path, _, (hs.setFiles _).sound, rfl, rfl, fun c hc => ?_, rfl, rfl⟩
      rw [hnone] at hc
      cases hc
  obtain ⟨w₁, orig, hs₁, hclasses₁, hsources₁, hnamed₁, hw₁, horig⟩ := hbefore
  have hb₁ : AllBlank n w₁ := by
    rw [AllBlank, hclasses₁]
    exact hb
  have hk₁ : KeepsStart (Blank n) w w₁ := .of_classes hclasses₁
  unfold confReloadPath
  rw [← hw₁, ← horig]
  cases content with
  | none =>
    dsimp only
    rw [sat_bind]
    exact (destroyOrig_loading ⟨hk₁, hsources₁, hnamed₁⟩).imp fun w' h' => h'
  | some parsed =>
    dsimp only
    rw [hsources₁, hn, sat_bind]
    have hupdate : ∀ c, (w₁.confFile? source path).bind ConfFile.job = some c →
        ∀ cls, w₁.classes.get? c = some cls → Blank n cls := fun c hc cls hget =>
      hb₁ cls (Store.mem_of_get? hget) (hnamed₁ c hc cls hget)
    refine ((parseJob_stays hs₁).and (parseJob_blank hupdate)).mono ?_ fun _ _ => trivial
    rintro ⟨w₂, job⟩ ⟨⟨hs₂, -⟩, hk₂, hsources₂, hjob⟩
    dsimp only at hs₂ hk₂ hsources₂ hjob ⊢
    have hs₃ := (hs₂.sound.setFiles (w₂.putFile ⟨source, path, job⟩).files).sound
    have hk₃ : KeepsStart (Blank n) w (w₂.putFile ⟨source, path, job⟩) := hk₁.trans hk₂ Blank.same
    have hb₃ : AllBlank n (w₂.putFile ⟨source, path, job⟩) := hk₃.allBlank hb
    have hfound := confFile?_putFile w₂ ⟨source, path, job⟩
    have hconsider : Sat (considerParsed x (w₂.putFile ⟨source, path, job⟩) job)
        (fun w' => KeepsStart (Blank n) (w₂.putFile ⟨source, path, job⟩) w' ∧
          SameFiles (w₂.putFile ⟨source, path, job⟩) w') (fun _ => True) := by
      cases job with
      | none => exact ⟨.of_classes rfl, .refl _⟩
      | some c =>
        unfold considerParsed
        dsimp only
        rw [sat_bind]
        exact (jobClassConsider_blank hs₃ hb₃ fun cls hget => (hjob c rfl cls hget).name).imp
          fun r hr => hr
    rw [sat_bind]
    refine hconsider.imp ?_
    rintro w₄ ⟨hk₄, hf₄, hsources₄⟩
    have hloading : Loading n source path w w₄ := by
      refine ⟨hk₃.trans hk₄ Blank.same, hsources₄.trans (hsources₂.trans hsources₁),
        fun c hc cls hget => ?_⟩
      have hc' : job = some c := by
        rw [World.confFile?, hf₄] at hc
        change ((w₂.putFile ⟨source, path, job⟩).confFile? source path).bind ConfFile.job = some c
          at hc
        rw [hfound] at hc
        exact hc
      rcases hk₄ cls (Store.mem_of_get? hget) with hp | ⟨old, hold, hsame⟩
      · exact hp.name
      · rw [hsame.config]
        refine (hjob c hc' old ?_).name
        rw [← show old.id = c from hsame.id.symm.trans (Store.key_of_get? hget)]
        exact Store.get?_of_mem hold
    rw [sat_bind]
    exact (destroyOrig_loading hloading).imp fun w' h' => h'

theorem confLoadPathWithOverride_blank {k : Slack} {source : Nat} {path : String}
    {content : Option Parsed} {override : Option (Option Parsed)} (hs : SoundWith k w)
    (hb : AllBlank (confToJobName (w.sources.getD source "") path) w) :
    Sat (confLoadPathWithOverride x w source path content override)
      (KeepsStart (Blank (confToJobName (w.sources.getD source "") path)) w) (fun _ => True) := by
  unfold confLoadPathWithOverride
  rw [sat_bind]
  have hloading : Sat (confReloadPath x w source path false content) _ _ :=
    confReloadPath_loading hs hb fun hf => by cases hf
  refine ((confReloadPath_stays hs).and hloading).mono ?_ fun _ _ => trivial
  rintro ⟨w₁, ok⟩ ⟨⟨hs₁, -⟩, h₁⟩
  dsimp only at hs₁ h₁ ⊢
  split
  · exact h₁.kept
  · cases override with
    | none => exact h₁.kept
    | some content =>
      dsimp only
      rw [sat_bind]
      have hb₁ := h₁.kept.allBlank hb
      have hnamed := h₁.named
      rw [← h₁.sources] at hb₁ hnamed ⊢
      refine (confReloadPath_loading hs₁.sound hb₁ fun _ => hnamed).imp fun r hr => ?_
      rw [h₁.sources] at hr ⊢
      exact h₁.kept.trans hr.kept Blank.same

/-! ## The cgroup manager -/

/-- A class that waits is started, and another one is left as it is. -/
theorem inductWaiting_eq {cls : ClassState} (hget : w.classes.get? c = some cls)
    (hw : WaitSound cls) :
    inductWaiting x w c = if cls.satisfied then do
        let (w', _) ← jobClassInductJob x w c
        let cls ← w'.getClass .jobClassInductJobs c
        resetStartOn w' { cls with cgmanagerWait := false }
      else .ok w := by
  unfold inductWaiting
  rw [show w.getClass .jobClassInductJobs c = .ok cls by rw [World.getClass, hget]]
  cases hroot : cls.startOn with
  | none => simp [hroot, ClassState.satisfied, bind, Except.bind]
  | some root =>
    have hvalue := hw.value_eq hroot
    have hsatisfied : cls.satisfied = cls.cgmanagerWait := hw.wait.symm
    cases hwait : cls.cgmanagerWait with
    | false => simp [hroot, hsatisfied, hwait, bind, Except.bind]
    | true => simp [hroot, hsatisfied, hwait, hvalue, bind, Except.bind]

theorem inductWaiting_offered (hw : ∀ cls ∈ w.classes.items, WaitSound cls) :
    Sat (inductWaiting x w c) (Offered c WaitSound w) (fun _ => True) := by
  cases hget : w.classes.get? c with
  | none => simp [inductWaiting, World.getClass, hget, bind, Except.bind]
  | some cls =>
    have hsound := hw cls (Store.mem_of_get? hget)
    rw [inductWaiting_eq hget hsound]
    split
    · rename_i hsatisfied
      obtain ⟨root, hroot⟩ : ∃ root, cls.startOn = some root := by
        cases hroot : cls.startOn with
        | none =>
          rw [ClassState.satisfied, hroot] at hsatisfied
          cases hsatisfied
        | some root => exact ⟨root, rfl⟩
      rw [sat_bind]
      refine (jobClassInductJob_offered hget hroot).imp ?_
      rintro ⟨w₁, ok⟩ h₁
      dsimp only at h₁ ⊢
      rw [sat_bind]
      refine (getClass_sat rfl).mono ?_ fun _ _ => trivial
      rintro cls₁ ⟨hget₁, hid₁⟩
      have hsame := h₁.own cls₁ hget₁
      have hroot₁ : ({ cls₁ with cgmanagerWait := false } : ClassState).startOn =
          some (eventOperatorReset root) := hsame.startOn
      refine (resetStartOn_offered hroot₁).imp fun w₂ h₂ => ?_
      have hid : ({ cls₁ with cgmanagerWait := false } : ClassState).id = c := hid₁
      rw [hid] at h₂
      exact (h₁.trans h₂).imp fun cls₂ hsame₂ => hsame₂.waitSound (waitSound_reset rfl rfl)
    · refine ⟨.of_classes rfl, fun cls' hget' => ?_⟩
      rw [hget] at hget'
      cases hget'
      exact hsound

theorem foldlM_inductWaiting {cs : List ClassId} (hw : ∀ cls ∈ w.classes.items, WaitSound cls) :
    Sat (cs.foldlM (inductWaiting x) w) (fun w' => ∀ cls ∈ w'.classes.items, WaitSound cls)
      (fun _ => True) :=
  foldlM_sat hw fun _ hw₁ _ _ => (inductWaiting_offered hw₁).imp fun _ h => h.waitSound hw₁

/-! ## Every run -/

/-- The steps under which the flag and the condition stay together: an event that is a part
of the condition of a waiting class makes it true, the cgroup manager is not there before
`job_class_induct_jobs` has gone through the classes, and a file is read when the classes
of its name have no matches. -/
def Undisturbed (x : Host) (w : World) : WorldInput → Prop
  | .poll e _ => PollUndisturbed x w e
  | .load source path _ _ => ∀ cls ∈ w.classes.items,
      cls.config.name = confToJobName (w.sources.getD source "") path →
        ∀ root, cls.startOn = some root → root.refs = []
  | _ => True

theorem allBlank_of_undisturbed {k : Slack} {n : String} (hs : SoundWith k w)
    (hw : ∀ cls ∈ w.classes.items, WaitSound cls)
    (h : ∀ cls ∈ w.classes.items, cls.config.name = n →
      ∀ root, cls.startOn = some root → root.refs = []) : AllBlank n w := by
  intro cls hcls hname
  have hsound := hw cls hcls
  have hvalue : ∀ root, cls.startOn = some root → root.value = false := fun root hroot =>
    value_of_no_refs ((hs.accounts.linked cls hcls).1 root hroot) (hsound.consistent root hroot)
      (h cls hcls hname root hroot)
  refine ⟨hname, ?_, hsound.consistent, h cls hcls hname, hvalue⟩
  rw [hsound.wait, ClassState.satisfied]
  cases hroot : cls.startOn with
  | none => rfl
  | some root => rw [Option.any_some, hvalue root hroot]

/-- A class that waits goes on waiting, unless it is freed or the cgroup manager has
become available. -/
def GoesOnWaiting (i : WorldInput) (w w' : World) : Prop :=
  (∀ o, i ≠ .inductJobs o) → ∀ cls ∈ w.classes.items, cls.cgmanagerWait = true →
    ∀ cls', w'.classes.get? cls.id = some cls' → cls'.config.name = cls.config.name →
      cls'.startOn = cls.startOn ∧ cls'.cgmanagerWait = true

theorem KeepsStart.goesOnWaiting {P : ClassState → Prop} {i : WorldInput}
    (h : KeepsStart P w w') (hP : ∀ cls ∈ w.classes.items, cls.cgmanagerWait = true →
      ∀ cls', cls'.id = cls.id → cls'.config.name = cls.config.name → ¬ P cls') :
    GoesOnWaiting i w w' := by
  intro _ cls hcls hwait cls' hget' hname
  have hget : w.classes.get? cls.id = some cls := Store.get?_of_mem hcls
  rcases h.get hget hget' with hp | hsame
  · exact absurd hp (hP cls hcls hwait cls' (Store.key_of_get? hget') hname)
  · exact ⟨hsame.startOn, hsame.wait.trans hwait⟩

theorem worldStep_waiting {leak : EventId → Nat} {i : WorldInput} (hs : WorldSound leak w)
    (hw : ∀ cls ∈ w.classes.items, WaitSound cls) (hu : Undisturbed x w i) :
    Sat (worldStep x w i)
      (fun w' => (∀ cls ∈ w'.classes.items, WaitSound cls) ∧ GoesOnWaiting i w w')
      (fun _ => True) := by
  have hleaves : ∀ {m}, LeavesStart Nobody w m → Sat m
      (fun w' => (∀ cls ∈ w'.classes.items, WaitSound cls) ∧ GoesOnWaiting i w w')
      (fun _ => True) := fun hm => Sat.imp hm fun w' h =>
    ⟨h.waitSound (fun _ hf => hf.elim) hw, h.goesOnWaiting fun _ _ _ _ _ _ hf => hf⟩
  cases i with
  | emit message name env valid wait file =>
    refine hleaves (m := .ok (controlEmitEvent w message name env valid wait file)) ?_
    refine KeepsStart.of_classes ?_
    unfold controlEmitEvent
    cases message <;> rfl
  | poll e order =>
    refine (eventPollEvent_waiting hs hw hu).imp ?_
    rintro w' ⟨hw', hk⟩
    refine ⟨hw', hk.goesOnWaiting ?_⟩
    rintro cls hcls hwait cls' hid - ⟨old, hold, hid', hno⟩
    have hget : w.classes.get? cls.id = some cls := Store.get?_of_mem hcls
    have hget' : w.classes.get? old.id = some old := Store.get?_of_mem hold
    rw [hid', hid, hget] at hget'
    cases hget'
    rw [hwait] at hno
    cases hno
  | job id input =>
    exact hleaves (m := withJob w .eventPending id fun sys job => jobStep x sys job input)
      (withJob_leaves w _ id _)
  | classStart c message env wait => exact hleaves (jobClassStart_leaves w c message env wait)
  | load source path content override =>
    have hb := allBlank_of_undisturbed hs hw hu
    refine (confLoadPathWithOverride_blank hs hb).imp fun w' hk => ?_
    refine ⟨hk.waitSound (fun _ h => h.waitSound) hw, hk.goesOnWaiting ?_⟩
    intro cls hcls hwait cls' _ hname hblank
    have hno := (hb cls hcls (hname.symm.trans hblank.name)).wait
    rw [hwait] at hno
    cases hno
  | delete source path => exact hleaves (confDeleteHandler_leaves w source path)
  | inductJobs order =>
    unfold worldStep jobClassInductJobs
    dsimp only
    rw [sat_bind]
    refine sat_true.imp fun _ _ => ?_
    refine (foldlM_inductWaiting hw).imp fun w' hw' => ⟨hw', fun hno => ?_⟩
    exact absurd rfl (hno order)
  | reexec => exact hleaves (stateFromString_leaves w)

/-- In every run of undisturbed steps

* whenever `job_class_induct_jobs` comes to a class that waits its condition is true, and
  exactly the classes whose condition is true are started;
* a class whose condition is true goes on waiting until then;
* an event is added to the matches that a condition has, whether the cgroup manager is
  there or not. -/
theorem reached_waiting (h : WorldReached Undisturbed w) :
    (∀ x (o : HashOrder) before c after w₁ cls,
      o.order (w.registered.items.map Registration.cls) = before ++ c :: after →
      before.foldlM (inductWaiting x) w = .ok w₁ → w₁.classes.get? c = some cls →
        (cls.cgmanagerWait = true → ∃ root, cls.startOn = some root ∧ root.value = true) ∧
        inductWaiting x w₁ c = if cls.satisfied then do
            let (w', _) ← jobClassInductJob x w₁ c
            let cls ← w'.getClass .jobClassInductJobs c
            resetStartOn w' { cls with cgmanagerWait := false }
          else .ok w₁) ∧
    (∀ cls ∈ w.classes.items, cls.cgmanagerWait = cls.satisfied) ∧
    (∀ x i w', Undisturbed x w i → worldStep x w i = .ok w' → GoesOnWaiting i w w') ∧
    (∀ x event cls root, w.classes.get? cls.id = some cls → cls.startOn = some root →
      cls.satisfied = false → cls.config.cgroups = true →
      if x.cgroupManagerAvailable then
        handleStartOn x w cls.id event = offerStartOn x w cls root event
      else Sat (handleStartOn x w cls.id event) (fun r => ∃ cls', r.1.classes.get? cls.id = some cls' ∧
        cls'.startOn = some (eventOperatorHandle x event [] root).1) (fun _ => True)) := by
  obtain ⟨⟨leak, hs⟩, hw⟩ : (∃ leak, WorldSound leak w) ∧ ∀ cls ∈ w.classes.items, WaitSound cls := by
    refine ⟨reached_worldSound h, ?_⟩
    refine (Reach.invariant (I := fun w => (∃ leak, WorldSound leak w) ∧
      ∀ cls ∈ w.classes.items, WaitSound cls) ?_ ?_ h).2
    · intro w hinit
      exact ⟨⟨_, hinit.sound⟩, by simp [hinit.classes]⟩
    · rintro w ⟨x, i⟩ ⟨⟨leak, hs⟩, hw⟩ ⟨hi, hu⟩
      refine ((worldStep_sound hs hi).and (worldStep_waiting hs hw hu)).mono ?_ fun _ _ => trivial
      exact fun w' h' => ⟨⟨_, h'.1⟩, h'.2.1⟩
  refine ⟨?_, fun cls hcls => (hw cls hcls).wait, ?_, ?_⟩
  · intro x o before c after w₁ cls _ hrun hget
    have hsound := (foldlM_inductWaiting hw).of_ok hrun cls (Store.mem_of_get? hget)
    refine ⟨fun hwait => ?_, inductWaiting_eq hget hsound⟩
    rw [hsound.wait, ClassState.satisfied, Option.any_eq_true] at hwait
    exact hwait
  · intro x i w' hu hstep
    exact ((worldStep_waiting hs hw hu).of_ok hstep).2
  · intro x event cls root hget hroot hsatisfied hcgroups
    have hsound := hw cls (Store.mem_of_get? hget)
    have hwait : cls.cgmanagerWait = false := hsound.wait.trans hsatisfied
    unfold handleStartOn
    rw [show w.getClass .eventPending cls.id = .ok cls by rw [World.getClass, hget]]
    split
    · rename_i havailable
      simp [hroot, hcgroups, hwait, havailable, bind, Except.bind]
    · rename_i hno
      have hno' : x.cgroupManagerAvailable = false := by simpa using hno
      rw [sat_bind, sat_ok, hroot]
      simp only [hcgroups, hno', Bool.not_true, Bool.not_false, Bool.false_eq_true, if_false, if_true]
      rw [sat_bind, awaitCgroupManager, hwait]
      simp only [Bool.false_eq_true, if_false]
      rw [sat_bind]
      refine (handleOperator_tree x w.sys root event).imp ?_
      rintro ⟨sys, root', matched⟩ ⟨rfl, rfl⟩
      exact ⟨_, Store.get?_put_self, rfl⟩

/-- A host without a cgroup manager. -/
def noManagerHost : Host := { plainHost with cgroupManagerAvailable := false }

theorem onEvent_unmatched : eventOperatorReset (.eventMatch "e" [] false none) =
    .eventMatch "e" [] false none := rfl

/-- A file whose class needs the cgroup manager and starts on an event. -/
def cgroupParsed : Parsed where
  ok := true
  config := { plainClass [.main] with cgroups := true }
  startOn := some (some ⟨.eventMatch "e" [] false none, onEvent_unmatched⟩)

/-- The event has come before the cgroup manager, and the class waits. -/
theorem reached_waiting_event :
    ∃ w cls, WorldReached Undisturbed w ∧ w.classes.get? 1 = some cls ∧
      cls.cgmanagerWait = true ∧ ∃ root, cls.startOn = some root ∧ root.value = true := by
  have h₁ := (reached_newWorld Undisturbed).next
    (.load 1 "/two/a.conf" (some cgroupParsed) none) ⟨trivial, fun _ hf => by cases hf⟩ rfl
  have h₂ := h₁.next (.emit none "e" [] rfl false (-1)) ⟨trivial, trivial⟩ rfl
  have hstep : ∀ {w w'}, WorldReached Undisturbed w → PollUndisturbed noManagerHost w 1 →
      worldStep noManagerHost w (.poll 1 listOrder) = .ok w' → WorldReached Undisturbed w' :=
    fun h hu hs => .step (i := (noManagerHost, .poll 1 listOrder)) h ⟨trivial, hu⟩ hs
  have h₃ := hstep h₂ (fun event hevent _ => by
    refine ⟨fun hno => absurd hno (by decide), fun cls hcls _ _ _ root hroot _ => ?_⟩
    cases hevent
    cases List.mem_singleton.mp hcls
    cases hroot
    rfl) rfl
  exact ⟨_, _, h₃, rfl, rfl, ((reached_waiting h₃).1 plainHost listOrder [] 1 [] _ _ rfl rfl rfl).1 rfl⟩

/-- A file whose class needs the cgroup manager and starts on two events. -/
def cgroupBothParsed : Parsed where
  ok := true
  config := { plainClass [.main] with cgroups := true }
  startOn := some (some onBoth)

/-- The class waits after the first of its two events, and the assertion fails. -/
theorem waiting_assertion :
    ∃ w, WorldReached Anything w ∧ WorldEnabled plainHost w (.inductJobs listOrder) ∧
      worldStep plainHost w (.inductJobs listOrder) =
        .error (.assertFailed .jobClassInductJobs) := by
  have h₁ := (reached_newWorld Anything).next
    (.load 1 "/two/a.conf" (some cgroupBothParsed) none) ⟨trivial, trivial⟩ rfl
  have h₂ := h₁.next (.emit none "e" [] rfl false (-1)) ⟨trivial, trivial⟩ rfl
  have hstep : ∀ {w w'}, WorldReached Anything w →
      worldStep noManagerHost w (.poll 1 listOrder) = .ok w' → WorldReached Anything w' :=
    fun h hs => .step (i := (noManagerHost, .poll 1 listOrder)) h ⟨trivial, trivial⟩ hs
  have h₃ := hstep h₂ rfl
  exact ⟨_, h₃, rfl, rfl⟩

end Startup
