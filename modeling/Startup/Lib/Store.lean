import Mathlib.Algebra.GroupWithZero.Nat
import Mathlib.Algebra.Order.BigOperators.Group.List
import Mathlib.Algebra.Order.Group.Nat
import Mathlib.Data.List.Nodup
import Mathlib.Tactic.Common

/-!
# Stores of objects

A store is a list of objects each of which has a key, its address, that no
other object of the store has.  The structure carries the uniqueness of the keys,
so that no operation has to establish it again.

* `get?`, `put`, `erase`, `filter` and `map`, with what `get?` and membership
  find after each.
* `tally f`: the sum of a count over the objects, with what each operation
  adds and takes away.
-/

namespace Startup.Lib

universe u v

/-- Objects that have an address. -/
class Keyed (α : Type u) (κ : outParam (Type v)) where
  key : α → κ

export Keyed (key)

/-- Objects no two of which have the same address. -/
structure Store (α : Type u) {κ : Type v} [Keyed α κ] where
  items : List α
  nodup : (items.map key).Nodup

namespace Store

variable {α : Type u} {κ : Type v} [Keyed α κ] [DecidableEq κ]

/-- No objects. -/
def empty : Store α := ⟨[], List.nodup_nil⟩

/-- The object at an address. -/
def get? (s : Store α) (k : κ) : Option α :=
  s.items.find? fun a => key a = k

/-- The list in which `a` takes the place of the object at its address. -/
def replace (a : α) (items : List α) : List α :=
  items.map fun b => if key b = key a then a else b

theorem map_key_replace (a : α) (items : List α) :
    (replace a items).map key = items.map key := by
  simp only [replace, List.map_map]
  refine List.map_congr_left fun b _ => ?_
  simp only [Function.comp]
  split
  · rename_i h
    exact h.symm
  · rfl

/-- Write an object at its address, which may be a new one. -/
def put (s : Store α) (a : α) : Store α :=
  if h : key a ∈ s.items.map key then
    ⟨replace a s.items, by rw [map_key_replace]; exact s.nodup⟩
  else
    ⟨s.items ++ [a], by
      rw [List.map_append]
      refine List.nodup_append.mpr ⟨s.nodup, by simp, ?_⟩
      rintro k hk k' hk' rfl
      simp only [List.map_cons, List.map_nil, List.mem_singleton] at hk'
      exact h (hk' ▸ hk)⟩

/-- The objects that satisfy a condition. -/
def filter (s : Store α) (p : α → Bool) : Store α :=
  ⟨s.items.filter p, s.nodup.sublist (List.filter_sublist.map key)⟩

/-- Free the object at an address. -/
def erase (s : Store α) (k : κ) : Store α :=
  s.filter fun a => key a ≠ k

/-- Change every object where it is. -/
def map (s : Store α) (f : α → α) (hf : ∀ a, key (f a) = key a) : Store α :=
  ⟨s.items.map f, by
    rw [List.map_map]
    exact (List.map_congr_left fun a _ => hf a : s.items.map (key ∘ f) = s.items.map key) ▸
      s.nodup⟩

variable {s : Store α} {a b : α} {k k' : κ}

/-! ## What is in a store -/

theorem get?_eq_some : s.get? k = some a ↔ a ∈ s.items ∧ key a = k := by
  constructor
  · intro h
    exact ⟨List.mem_of_find?_eq_some h, by simpa using List.find?_some h⟩
  · rintro ⟨ha, rfl⟩
    cases hf : s.get? (key a) with
    | none => exact absurd (List.find?_eq_none.mp hf a ha) (by simp)
    | some b =>
      have hb : b ∈ s.items ∧ key b = key a :=
        ⟨List.mem_of_find?_eq_some hf, by simpa using List.find?_some hf⟩
      rw [List.inj_on_of_nodup_map s.nodup hb.1 ha hb.2]

theorem get?_eq_none : s.get? k = none ↔ ∀ a ∈ s.items, key a ≠ k := by
  simp [get?]

theorem key_of_get? (h : s.get? k = some a) : key a = k := (get?_eq_some.mp h).2

theorem mem_of_get? (h : s.get? k = some a) : a ∈ s.items := (get?_eq_some.mp h).1

theorem get?_of_mem (h : a ∈ s.items) : s.get? (key a) = some a := get?_eq_some.mpr ⟨h, rfl⟩

theorem mem_put : b ∈ (s.put a).items ↔ b = a ∨ b ∈ s.items ∧ key b ≠ key a := by
  unfold put
  split
  · rename_i hmem
    simp only [replace, List.mem_map]
    constructor
    · rintro ⟨c, hc, rfl⟩
      split
      · exact .inl rfl
      · rename_i hne
        exact .inr ⟨hc, hne⟩
    · rintro (rfl | ⟨hb, hne⟩)
      · obtain ⟨c, hc, hkey⟩ := List.mem_map.mp hmem
        exact ⟨c, hc, by rw [if_pos hkey]⟩
      · exact ⟨b, hb, by rw [if_neg hne]⟩
  · rename_i hmem
    simp only [List.mem_append, List.mem_singleton]
    constructor
    · rintro (hb | rfl)
      · exact .inr ⟨hb, fun hkey => hmem (hkey ▸ List.mem_map_of_mem hb)⟩
      · exact .inl rfl
    · rintro (rfl | ⟨hb, -⟩)
      · exact .inr rfl
      · exact .inl hb

omit [DecidableEq κ] in
theorem mem_filter {p : α → Bool} : a ∈ (s.filter p).items ↔ a ∈ s.items ∧ p a = true :=
  List.mem_filter

theorem mem_erase : a ∈ (s.erase k).items ↔ a ∈ s.items ∧ key a ≠ k := by
  simp [erase, mem_filter]

omit [DecidableEq κ] in
theorem mem_map {f : α → α} {hf : ∀ a, key (f a) = key a} :
    b ∈ (s.map f hf).items ↔ ∃ a ∈ s.items, f a = b :=
  List.mem_map

theorem get?_put_self : (s.put a).get? (key a) = some a :=
  get?_of_mem (mem_put.mpr (.inl rfl))

theorem get?_put_ne (h : k ≠ key a) : (s.put a).get? k = s.get? k := by
  refine Option.ext fun b => ?_
  rw [get?_eq_some, get?_eq_some, mem_put]
  constructor
  · rintro ⟨rfl | ⟨hb, -⟩, rfl⟩
    · exact absurd rfl h
    · exact ⟨hb, rfl⟩
  · rintro ⟨hb, rfl⟩
    exact ⟨.inr ⟨hb, h⟩, rfl⟩

theorem get?_erase_self : (s.erase k).get? k = none :=
  get?_eq_none.mpr fun _ ha => (mem_erase.mp ha).2

theorem get?_erase_ne (h : k' ≠ k) : (s.erase k).get? k' = s.get? k' := by
  refine Option.ext fun b => ?_
  rw [get?_eq_some, get?_eq_some, mem_erase]
  constructor
  · rintro ⟨⟨hb, -⟩, hk⟩
    exact ⟨hb, hk⟩
  · rintro ⟨hb, rfl⟩
    exact ⟨⟨hb, h⟩, rfl⟩

theorem get?_map {f : α → α} {hf : ∀ a, key (f a) = key a} :
    (s.map f hf).get? k = (s.get? k).map f := by
  simp only [get?, map, List.find?_map]
  congr 1
  congr 1
  funext a
  simp [Function.comp, hf]

omit [DecidableEq κ] in
theorem ext {s t : Store α} (h : s.items = t.items) : s = t := by
  cases s
  cases t
  simp_all

/-- Of two objects written at one address the second stays. -/
theorem put_put (h : key a = key b) : (s.put a).put b = s.put b := by
  have hreplace : ∀ items : List α, replace b (replace a items) = replace b items := by
    intro items
    simp only [replace, List.map_map]
    refine List.map_congr_left fun c _ => ?_
    simp only [Function.comp]
    split <;> simp_all
  have hitems : ∀ {t : Store α} {c : α}, key c ∈ t.items.map key →
      (t.put c).items = replace c t.items := fun hc => by rw [put, dif_pos hc]
  have hitems' : ∀ {t : Store α} {c : α}, key c ∉ t.items.map key →
      (t.put c).items = t.items ++ [c] := fun hc => by rw [put, dif_neg hc]
  apply ext
  by_cases hmem : key b ∈ s.items.map key
  · have ha := hitems (h ▸ hmem : key a ∈ s.items.map key)
    rw [hitems (by rw [ha, map_key_replace]; exact hmem), ha, hreplace, hitems hmem]
  · have ha := hitems' (h ▸ hmem : key a ∉ s.items.map key)
    rw [hitems (by simp [ha, h]), ha, hitems' hmem]
    simp only [replace, List.map_append, List.map_cons, List.map_nil, h, if_true]
    congr 1
    refine (List.map_congr_left fun c hc => ?_).trans (List.map_id _)
    have hne : key c ≠ key b := fun heq => hmem (heq ▸ List.mem_map_of_mem hc)
    rw [if_neg hne, id]

/-- Writing an object does not matter if it is then freed. -/
theorem erase_put : (s.put a).erase (key a) = s.erase (key a) := by
  apply ext
  simp only [erase, filter, put]
  split
  · simp only [replace, List.filter_map]
    rw [show (fun b => decide (key b ≠ key a)) ∘ (fun b => if key b = key a then a else b) =
      fun b => decide (key b ≠ key a) from funext fun b => by
        simp only [Function.comp]
        split <;> simp_all]
    refine (List.map_congr_left fun b hb => ?_).trans (List.map_id _)
    rw [if_neg (by simpa using (List.mem_filter.mp hb).2), id]
  · simp

/-! ## Counting over a store -/

/-- The sum of a count over the objects. -/
def tally (f : α → Nat) (s : Store α) : Nat :=
  (s.items.map f).sum

omit [DecidableEq κ] in
theorem tally_congr {f g : α → Nat} (h : ∀ a ∈ s.items, f a = g a) : s.tally f = s.tally g := by
  rw [tally, tally, List.map_congr_left h]

omit [DecidableEq κ] in
theorem tally_eq_zero {f : α → Nat} : s.tally f = 0 ↔ ∀ a ∈ s.items, f a = 0 := by
  simp [tally, List.sum_eq_zero_iff_forall_eq_nat]

omit [DecidableEq κ] in
/-- An object does not count more than the store. -/
theorem le_tally {f : α → Nat} (h : a ∈ s.items) : f a ≤ s.tally f :=
  List.le_sum_of_mem (List.mem_map_of_mem h)

private theorem sum_filter_add (f : α → Nat) {items : List α} (h : (items.map key).Nodup) :
    ((items.filter fun a => key a ≠ k).map f).sum +
      (((items.find? fun a => key a = k).map f).getD 0) = (items.map f).sum := by
  induction items with
  | nil => rfl
  | cons b items ih =>
    rw [List.map_cons, List.nodup_cons] at h
    by_cases hb : key b = k
    · -- no other object has the address
      have hall : items.filter (fun a => key a ≠ k) = items := by
        refine List.filter_eq_self.mpr fun a ha => ?_
        have : key a ≠ key b := fun heq => h.1 (heq ▸ List.mem_map_of_mem ha)
        simpa [hb] using this
      rw [List.filter_cons_of_neg (by simp [hb]), hall]
      simp [hb, Nat.add_comm]
    · rw [List.filter_cons_of_pos (by simp [hb]), List.map_cons, List.map_cons, List.sum_cons,
        List.sum_cons, List.find?_cons_of_neg (by simp [hb])]
      have := ih h.2
      omega

/-- Freeing an object takes away what it counts. -/
theorem tally_erase (f : α → Nat) (s : Store α) (k : κ) :
    (s.erase k).tally f + ((s.get? k).map f).getD 0 = s.tally f :=
  sum_filter_add f s.nodup

private theorem sum_replace_add (f : α → Nat) (a : α) {items : List α}
    (h : (items.map key).Nodup) (hmem : key a ∈ items.map key) :
    ((replace a items).map f).sum +
      (((items.find? fun b => key b = key a).map f).getD 0) = (items.map f).sum + f a := by
  induction items with
  | nil => simp at hmem
  | cons b items ih =>
    rw [List.map_cons, List.nodup_cons] at h
    by_cases hb : key b = key a
    · have hsame : replace a items = items := by
        refine (List.map_congr_left fun c hc => ?_).trans (List.map_id items)
        have : key c ≠ key a := fun heq => h.1 (hb ▸ heq ▸ List.mem_map_of_mem hc)
        rw [if_neg this, id]
      have hcons : replace a (b :: items) = a :: items := by
        rw [← hsame]
        simp only [replace, List.map_cons, if_pos hb, List.map_map]
        congr 1
        refine List.map_congr_left fun c _ => ?_
        simp only [Function.comp]
        split <;> simp_all
      rw [hcons, List.find?_cons_of_pos (by simp [hb])]
      simp
      omega
    · have hmem : key a ∈ items.map key := by
        rw [List.map_cons, List.mem_cons] at hmem
        exact hmem.resolve_left (Ne.symm hb)
      have hcons : replace a (b :: items) = b :: replace a items := by
        simp only [replace, List.map_cons, if_neg hb]
      rw [hcons, List.find?_cons_of_neg (by simp [hb]), List.map_cons, List.map_cons,
        List.sum_cons, List.sum_cons]
      have := ih h.2 hmem
      omega

/-- Writing an object takes away what was counted at its address. -/
theorem tally_put (f : α → Nat) (s : Store α) (a : α) :
    (s.put a).tally f + ((s.get? (key a)).map f).getD 0 = s.tally f + f a := by
  unfold put
  split
  · rename_i hmem
    exact sum_replace_add f a s.nodup hmem
  · rename_i hmem
    have hnone : s.get? (key a) = none :=
      get?_eq_none.mpr fun b hb hkey => hmem (hkey ▸ List.mem_map_of_mem hb)
    simp [hnone, tally]

/-- Writing to an object that is there. -/
theorem tally_put_of_get? (f : α → Nat) (h : s.get? (key a) = some b) :
    (s.put a).tally f + f b = s.tally f + f a := by
  have := tally_put f s a
  simpa [h] using this

omit [DecidableEq κ] in
theorem tally_add (s : Store α) (f g : α → Nat) :
    (s.tally fun a => f a + g a) = s.tally f + s.tally g :=
  List.sum_map_add

omit [DecidableEq κ] in
theorem tally_filter (s : Store α) (p : α → Bool) (f : α → Nat) :
    (s.filter p).tally f = s.tally fun a => if p a then f a else 0 := by
  show ((s.items.filter p).map f).sum = (s.items.map fun a => if p a then f a else 0).sum
  induction s.items with
  | nil => rfl
  | cons a items ih =>
    rw [List.map_cons, List.sum_cons]
    cases hp : p a with
    | true => rw [List.filter_cons_of_pos hp, List.map_cons, List.sum_cons, ih, if_pos rfl]
    | false =>
      rw [List.filter_cons_of_neg (by rw [hp]; decide), ih, if_neg (by decide), Nat.zero_add]

omit [DecidableEq κ] in
/-- What a filter leaves out is missing from the count. -/
theorem tally_filter_add (s : Store α) (p : α → Bool) (f : α → Nat) :
    (s.filter p).tally f + s.tally (fun a => if p a then 0 else f a) = s.tally f := by
  rw [tally_filter, ← tally_add]
  refine tally_congr fun a _ => ?_
  split
  · rfl
  · exact Nat.zero_add _

omit [DecidableEq κ] in
theorem tally_map {f : α → α} {hf : ∀ a, key (f a) = key a} (g : α → Nat) :
    (s.map f hf).tally g = s.tally fun a => g (f a) := by
  simp [tally, map, List.map_map, Function.comp_def]

end Store

end Startup.Lib
