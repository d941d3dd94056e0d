import Mathlib.Data.List.Basic
import Mathlib.Data.List.Nodup
import Mathlib.Tactic.Common

/-!
# JSON values

Values as a parser yields them, with the look-ups of a decoder, and the objects
that an encoder writes field by field.

* `get?` and `items?` access the parts of a value.
* `record` is an object some fields of which may be absent; `get?_record` finds
  each of them again.
* The lemmas about `mapM` are for arrays, element by element.
-/

namespace Startup.Lib

/-- A JSON value. -/
inductive Json where
  | null
  | boolean (b : Bool)
  | int (n : Int)
  | double (digits : String)
  | string (s : String)
  | array (items : List Json)
  | object (fields : List (String × Json))

namespace Json

/-- The value of a key of an object. -/
def get? : Json → String → Option Json
  | object fields, key => fields.lookup key
  | _, _ => none

/-- The elements of an array. -/
def items? : Json → Option (List Json)
  | array items => some items
  | _ => none

def isObject : Json → Bool
  | object _ => true
  | _ => false

def isNull : Json → Bool
  | null => true
  | _ => false

/-- The object of the fields that are there. -/
def record (fields : List (String × Option Json)) : Json :=
  object (fields.filterMap fun f => f.2.map (f.1, ·))

variable {fields : List (String × Option Json)} {key : String}

private theorem lookup_filterMap_none (h : key ∉ fields.map Prod.fst) :
    (fields.filterMap fun f => f.2.map (f.1, ·)).lookup key = none := by
  induction fields with
  | nil => rfl
  | cons f fields ih =>
    rw [List.map_cons, List.mem_cons, not_or] at h
    obtain ⟨name, value⟩ := f
    have hne : (key == name) = false := by simpa using h.1
    cases value with
    | none => simpa using ih h.2
    | some value =>
      rw [List.filterMap_cons]
      simp only [Option.map_some, List.lookup_cons, hne]
      exact ih h.2

/-- A field is found under its name. -/
theorem get?_record (key : String) (fields : List (String × Option Json))
    (h : (fields.map Prod.fst).Nodup) :
    (record fields).get? key = (fields.lookup key).join := by
  induction fields with
  | nil => rfl
  | cons f fields ih =>
    rw [List.map_cons, List.nodup_cons] at h
    obtain ⟨name, value⟩ := f
    simp only [record, get?] at ih ⊢
    by_cases hkey : key = name
    · subst hkey
      cases value with
      | none =>
        rw [List.filterMap_cons]
        simp only [Option.map_none, List.lookup_cons, beq_self_eq_true]
        exact lookup_filterMap_none h.1
      | some value => simp
    · have hne : (key == name) = false := by simpa using hkey
      cases value with
      | none =>
        rw [List.filterMap_cons]
        simp only [Option.map_none, List.lookup_cons, hne]
        exact ih h.2
      | some value =>
        rw [List.filterMap_cons]
        simp only [Option.map_some, List.lookup_cons, hne]
        exact ih h.2

@[simp] theorem isObject_record : (record fields).isObject = true := rfl

@[simp] theorem isNull_record : (record fields).isNull = false := rfl

end Json

/-! ## Arrays -/

section Arrays

variable {α β γ ε : Type}

/-- The elements of an array are decoded as they have been encoded. -/
theorem mapM_map_ok {f : β → Except ε γ} {g : α → β} {h : α → γ} {l : List α}
    (hl : ∀ a ∈ l, f (g a) = .ok (h a)) :
    (l.map g).mapM f = .ok (l.map h) := by
  induction l with
  | nil => rfl
  | cons a l ih =>
    rw [List.map_cons, List.mapM_cons, hl a List.mem_cons_self,
      ih fun b hb => hl b (List.mem_cons_of_mem a hb)]
    rfl

/-- The encoder only matters at the elements. -/
theorem mapM_congr_mem {f g : α → Option β} {l : List α} (h : ∀ a ∈ l, f a = g a) :
    l.mapM f = l.mapM g := by
  induction l with
  | nil => rfl
  | cons a l ih =>
    rw [List.mapM_cons, List.mapM_cons, h a List.mem_cons_self,
      ih fun b hb => h b (List.mem_cons_of_mem a hb)]

/-- Every element can be encoded, and `P` relates it to its code. -/
theorem mapM_forall₂ {f : α → Option β} {P : α → β → Prop} {l : List α}
    (hl : ∀ a ∈ l, ∃ b, f a = some b ∧ P a b) :
    ∃ bs, l.mapM f = some bs ∧ List.Forall₂ P l bs := by
  induction l with
  | nil => exact ⟨[], rfl, .nil⟩
  | cons a l ih =>
    obtain ⟨b, hb, hp⟩ := hl a List.mem_cons_self
    obtain ⟨bs, hbs, hps⟩ := ih fun a ha => hl a (List.mem_cons_of_mem _ ha)
    refine ⟨b :: bs, ?_, .cons hp hps⟩
    rw [List.mapM_cons, hb, hbs]
    rfl

/-- When all elements are encoded, each of them is. -/
theorem isSome_of_mapM {f : α → Option β} {l : List α} {bs : List β} (h : l.mapM f = some bs)
    {a : α} (ha : a ∈ l) : (f a).isSome = true := by
  induction l generalizing bs with
  | nil => cases ha
  | cons c l ih =>
    rw [List.mapM_cons] at h
    obtain ⟨b, hb, h⟩ := Option.bind_eq_some_iff.mp h
    obtain ⟨bs, hbs, -⟩ := Option.bind_eq_some_iff.mp h
    rcases List.mem_cons.mp ha with rfl | ha
    · rw [hb]
      rfl
    · exact ih hbs ha

/-- Each code is that of an element. -/
theorem exists_of_mem_mapM {f : α → Option β} {l : List α} {bs : List β} (h : l.mapM f = some bs)
    {b : β} (hb : b ∈ bs) : ∃ a ∈ l, f a = some b := by
  induction l generalizing bs with
  | nil =>
    cases h
    cases hb
  | cons a l ih =>
    rw [List.mapM_cons] at h
    obtain ⟨b', hb', h⟩ := Option.bind_eq_some_iff.mp h
    obtain ⟨bs', hbs', h⟩ := Option.bind_eq_some_iff.mp h
    cases h
    rcases List.mem_cons.mp hb with rfl | hb
    · exact ⟨a, List.mem_cons_self, hb'⟩
    · obtain ⟨a', ha', hf⟩ := ih hbs' hb
      exact ⟨a', List.mem_cons_of_mem _ ha', hf⟩

/-- An array each element of which can be decoded, to something with a property. -/
theorem exists_mapM_ok {P : β → Prop} {f : α → Except ε β} {l : List α}
    (h : ∀ a ∈ l, ∃ b, P b ∧ f a = .ok b) : ∃ bs, (∀ b ∈ bs, P b) ∧ l.mapM f = .ok bs := by
  induction l with
  | nil => exact ⟨[], fun b hb => absurd hb List.not_mem_nil, rfl⟩
  | cons a l ih =>
    obtain ⟨b, hP, hb⟩ := h a List.mem_cons_self
    obtain ⟨bs, hall, hbs⟩ := ih fun a ha => h a (List.mem_cons_of_mem _ ha)
    exact ⟨b :: bs, List.forall_mem_cons.mpr ⟨hP, hall⟩, by rw [List.mapM_cons, hb, hbs]; rfl⟩

/-- Codes that `P` relates to elements are decoded. -/
theorem mapM_of_forall₂ {f : β → Except ε γ} {g : α → γ} {P : α → β → Prop} {l : List α}
    {bs : List β} (h : List.Forall₂ P l bs) (hf : ∀ a ∈ l, ∀ b, P a b → f b = .ok (g a)) :
    bs.mapM f = .ok (l.map g) := by
  induction h with
  | nil => rfl
  | cons hp _ ih =>
    rw [List.mapM_cons, hf _ List.mem_cons_self _ hp,
      ih fun a ha => hf a (List.mem_cons_of_mem _ ha)]
    rfl

/-- An element is found again by its key. -/
theorem find?_of_forall₂ {κ : Type} [DecidableEq κ] {f : α → κ} {g : β → κ} {P : α → β → Prop}
    {l : List α} {bs : List β} (h : List.Forall₂ P l bs) (hkey : ∀ a b, P a b → g b = f a)
    (hl : (l.map f).Nodup) {a : α} (ha : a ∈ l) :
    ∃ b, bs.find? (fun b => g b = f a) = some b ∧ P a b := by
  induction h with
  | nil => cases ha
  | @cons c b l bs hp _ ih =>
    rw [List.map_cons, List.nodup_cons] at hl
    rcases List.mem_cons.mp ha with rfl | ha
    · refine ⟨b, ?_, hp⟩
      rw [List.find?_cons_of_pos]
      simpa using hkey a b hp
    · obtain ⟨b', hb', hp'⟩ := ih hl.2 ha
      refine ⟨b', ?_, hp'⟩
      have hne : g b ≠ f a := fun heq =>
        hl.1 (List.mem_map.mpr ⟨a, ha, heq.symm.trans (hkey c b hp)⟩)
      rw [List.find?_cons_of_neg, hb']
      simpa using hne

/-- Nothing else has the key of an element. -/
theorem filter_key_eq {κ : Type} [DecidableEq κ] {f : α → κ} {l : List α} (hl : (l.map f).Nodup)
    {a : α} (ha : a ∈ l) : l.filter (fun b => f b = f a) = [a] := by
  induction l with
  | nil => cases ha
  | cons c l ih =>
    rw [List.map_cons, List.nodup_cons] at hl
    rcases List.mem_cons.mp ha with rfl | ha
    · have hnone : l.filter (fun b => f b = f a) = [] := by
        apply List.filter_eq_nil_iff.mpr
        intro b hb heq
        exact hl.1 (List.mem_map.mpr ⟨b, hb, by simpa using heq⟩)
      rw [List.filter_cons_of_pos (by simp), hnone]
    · have hne : f c ≠ f a := fun heq => hl.1 (List.mem_map.mpr ⟨a, ha, heq.symm⟩)
      rw [List.filter_cons_of_neg (by simpa using hne), ih hl.2 ha]

end Arrays

end Startup.Lib
