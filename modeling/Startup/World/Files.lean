import Startup.World.Classes
import Startup.World.Conf

/-!
# Reading and deleting files keeps the invariant

The functions of `Startup.World.Conf` keep the invariant.  What a file is parsed
to has no matches, and a class that a file is parsed into gives back those that
it had in a condition that is replaced.
-/

namespace Startup

open Lib

variable {k : Slack} {x : Host} {w : World}

/-! ## Parsing -/

theorem Unmatched.refs (u : Unmatched) : u.root.refs = [] := by
  rw [← u.unmatched]
  exact EventOperator.refs_reset u.root

theorem Unmatched.linked (u : Unmatched) : u.root.Linked := by
  rw [← u.unmatched]
  exact EventOperator.linked_reset u.root

/-- A condition is kept, or its matches are given back. -/
theorem parseOn_sat {sys : Sys} {old : Option EventOperator} {parsed : Option (Option Unmatched)}
    (hle : ∀ e, (old.elim [] EventOperator.refs).count e ≤ sys.blockers e)
    (hlinked : ∀ root, old = some root → root.Linked) :
    Sat (parseOn sys old parsed)
      (fun r => Touches sys r.1 ∧ (∀ root, r.2 = some root → root.Linked) ∧
        ∀ e, r.1.blockers e + (old.elim [] EventOperator.refs).count e =
          sys.blockers e + (r.2.elim [] EventOperator.refs).count e)
      (fun _ => False) := by
  unfold parseOn
  split
  · exact ⟨.refl sys, hlinked, fun _ => rfl⟩
  · rename_i new
    rw [sat_bind]
    refine (destroyOperator_sat hle).imp ?_
    rintro sys' ⟨htouch, hb⟩
    refine ⟨htouch, ?_, fun e => ?_⟩
    · intro root hr
      obtain ⟨u, -, rfl⟩ := Option.map_eq_some_iff.mp hr
      exact u.linked
    · have hrefs : ((new.map Unmatched.root).elim [] EventOperator.refs) = [] := by
        cases new with
        | none => rfl
        | some u => exact u.refs
      rw [hrefs]
      exact hb e

theorem parseJob_stays {update : Option ClassId} {name : String} {parsed : Parsed}
    (h : SoundWith k w) : StaysWith k w (fun _ _ => True) (parseJob w update name parsed) := by
  unfold parseJob StaysWith
  split
  · split
    · refine ⟨⟨h.newClass rfl ?_ ⟨?_, ?_⟩, [], .refl _, by simp⟩, trivial⟩
      · have hnil : ∀ o : Option Unmatched,
            (o.map Unmatched.root).elim [] EventOperator.refs = [] := by
          rintro (_ | u)
          · rfl
          · exact u.refs
        simp only [ClassState.refs, hnil, List.append_nil]
      · intro root hr
        obtain ⟨u, -, rfl⟩ := Option.map_eq_some_iff.mp hr
        exact u.linked
      · intro root hr
        obtain ⟨u, -, rfl⟩ := Option.map_eq_some_iff.mp hr
        exact u.linked
    · exact ⟨.refl h, trivial⟩
  · rename_i c
    rw [sat_bind]
    refine (getClass_sat rfl).imp fun cls hget => ?_
    obtain ⟨hcls, hid⟩ := hget
    subst hid
    have hmem := Store.mem_of_get? hcls
    obtain ⟨hstart, hstop⟩ := h.accounts.linked cls hmem
    have hle := h.accounts.class_le hmem
    have hcount : ∀ e, cls.refs.count e = (cls.startOn.elim [] EventOperator.refs).count e +
        (cls.stopOn.elim [] EventOperator.refs).count e := fun e => List.count_append
    rw [sat_bind]
    refine (parseOn_sat (fun e => ?_) hstart).mono ?_ fun _ hf => hf.elim
    · have h₁ := hle e
      have h₂ := hcount e
      omega
    rintro ⟨sys₁, startOn⟩ ⟨ht₁, hl₁, hb₁⟩
    rw [sat_bind]
    refine (parseOn_sat (fun e => ?_) hstop).mono ?_ fun _ hf => hf.elim
    · have h₁ := hle e
      have h₂ := hcount e
      have h₃ := hb₁ e
      dsimp only at h₃ ⊢
      omega
    rintro ⟨sys₂, stopOn⟩ ⟨ht₂, hl₂, hb₂⟩
    have htouch := ht₁.trans ht₂
    refine ⟨⟨h.putClass _ hcls htouch (fun e => ?_) ⟨hl₁, hl₂⟩ rfl, [], htouch.toExtends, by simp⟩,
      trivial⟩
    have h₂ := hcount e
    have h₃ := hb₁ e
    have h₄ := hb₂ e
    dsimp only at h₃ h₄
    have hnew : sys₂.blockers e + cls.refs.count e = w.sys.blockers e +
        (startOn.elim [] EventOperator.refs ++ stopOn.elim [] EventOperator.refs).count e := by
      rw [List.count_append]
      omega
    exact hnew

/-! ## Files -/

/-- The files are no part of the invariant. -/
theorem SoundWith.setFiles (h : SoundWith k w) (files : List ConfFile) :
    Goes k w { w with files := files } :=
  ⟨⟨h.accounts, h.ties, h.housing, h.progress, h.classIds, h.jobIds, h.settled, h.names⟩, [],
    .refl _, by simp⟩

theorem confFileDestroy_stays {file : ConfFile} (h : SoundWith k w) :
    Stays k w (confFileDestroy w file) := by
  unfold confFileDestroy Stays
  split
  · exact .refl h
  · rename_i c
    rw [sat_bind]
    refine (getClass_sat rfl).imp fun cls ⟨hcls, hid⟩ => ?_
    subst hid
    have hput : Goes k w (w.putClass { cls with deleted := true }) :=
      ⟨h.putClass { cls with deleted := true } hcls (.refl _) (fun _ => rfl)
        (h.accounts.linked cls (Store.mem_of_get? hcls)) rfl, [], .refl _, by simp⟩
    have hget : (w.putClass { cls with deleted := true }).classes.get? cls.id =
        some { cls with deleted := true } := Store.get?_put_self
    dsimp only
    rw [sat_bind]
    refine (jobClassReconsider_sat hput.sound).imp ?_
    rintro ⟨w₁, unused⟩ ⟨h₁, honly, hunused⟩
    dsimp only at h₁ honly hunused ⊢
    split
    · rename_i hfree
      have hget₁ : w₁.classes.get? cls.id = some { cls with deleted := true } := by
        rw [honly.getClass]
        exact hget
      obtain ⟨hempty, hreg⟩ := h₁.sound.unregistered hget₁ (hunused hfree _ hget)
      exact (freeClass_sat h₁.sound hget₁ rfl rfl hempty hreg).imp fun _ h' =>
        (hput.trans h₁).trans h'.1
    · exact hput.trans h₁

theorem destroyOrig_stays {orig : Option ConfFile} (h : SoundWith k w) :
    Stays k w (destroyOrig w orig) := by
  unfold destroyOrig
  split
  · exact Goes.refl h
  · exact confFileDestroy_stays h

theorem considerParsed_stays {job : Option ClassId} (h : SoundWith k w) :
    Stays k w (considerParsed x w job) := by
  unfold considerParsed
  split
  · exact Goes.refl h
  · exact (jobClassConsider_stays h).bind fun w' _ hw' _ => Goes.refl hw'

theorem confReloadPath_stays {source : Nat} {path : String} {overriding : Bool}
    {content : Option Parsed} (h : SoundWith k w) :
    StaysWith k w (fun _ _ => True) (confReloadPath x w source path overriding content) := by
  have hfirst : Goes k w (if overriding then w else w.removeFile source path) := by
    split
    · exact .refl h
    · exact h.setFiles _
  unfold confReloadPath StaysWith
  dsimp only
  split
  · rw [sat_bind]
    exact (destroyOrig_stays hfirst.sound).imp fun w' h' => ⟨hfirst.trans h', trivial⟩
  · rw [sat_bind]
    refine (parseJob_stays hfirst.sound).imp fun r h₁ => ?_
    have hfile := h₁.1.sound.setFiles
      (r.1.putFile ⟨source, path, r.2⟩).files
    rw [sat_bind]
    refine (considerParsed_stays hfile.sound).imp fun w₂ h₂ => ?_
    rw [sat_bind]
    refine (destroyOrig_stays h₂.sound).imp fun w₃ h₃ => ?_
    exact ⟨((hfirst.trans h₁.1).trans hfile).trans (h₂.trans h₃), trivial⟩

theorem confLoadPathWithOverride_stays {source : Nat} {path : String} {content : Option Parsed}
    {override : Option (Option Parsed)} (h : SoundWith k w) :
    Stays k w (confLoadPathWithOverride x w source path content override) := by
  unfold confLoadPathWithOverride
  refine (confReloadPath_stays h).bind fun w₁ ok h₁ _ => ?_
  dsimp only
  split
  · exact Goes.refl h₁
  · split
    · exact Goes.refl h₁
    · exact (confReloadPath_stays h₁).bind fun w₂ _ h₂ _ => Goes.refl h₂

theorem confDeleteHandler_stays {source : Nat} {path : String} (h : SoundWith k w) :
    Stays k w (confDeleteHandler w source path) := by
  unfold confDeleteHandler
  split
  · exact Goes.refl h
  · have hfile := h.setFiles (w.removeFile source path).files
    exact (confFileDestroy_stays hfile.sound).after hfile

end Startup
