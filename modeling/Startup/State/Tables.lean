import Startup.State.Fields

/-!
# Tables of a fixed size (`init/process.c`, `init/state.c`)

`process_deserialise_all` and `state_rlimit_deserialise_all` fill a table of pointers from a JSON
array.  The table has a fixed number of entries; the number of elements is that of the document.

* `storeLoop`: the loop, with every store that it makes;
* `storeLoop_map`: an array that fits is read whole;
* `storesWithin_iff`: when no store is behind the table.
-/

namespace Startup

open Lib

/-- The loop over the elements from the index `i` on: the stores, by index, and whether it ends
without an error.  `last` is the index that the assertion of `fn` still admits. -/
def storeLoop {α : Type} (fn : SourceFn) (last : Nat) (restore : Json → Restored α) :
    Nat → List Json → List (Nat × α) × Restored Unit
  | _, [] => ([], .ok ())
  | i, json :: items =>
    if i ≤ last then
      match restore json with
      | .error e => ([], .error e)
      | .ok a =>
        let (stores, r) := storeLoop fn last restore (i + 1) items
        ((i, a) :: stores, r)
    else ([], .error (.fault (.assertFailed fn)))

/-- The loop over an array of the document. -/
def storeArray {α : Type} (fn : SourceFn) (last : Nat) (restore : Json → Restored α) (json : Json)
    (name : String) : List (Nat × α) × Restored Unit :=
  match getArray json name with
  | .error e => ([], .error e)
  | .ok items => storeLoop fn last restore 0 items

/-- No store is behind a table of `size` entries, and an array that is longer is an error, not a
failed assertion. -/
def StoresWithin {α : Type} (size : Nat) (json : Json) (name : String)
    (run : List (Nat × α) × Restored Unit) : Prop :=
  (∀ store ∈ run.1, store.1 < size) ∧
    ∀ items, json.get? name = some (.array items) → size < items.length → run.2 = notRestored

/-- An array is no longer than the table, or one of the elements up to the first that has no
place is not of the kind `p`. -/
def FitsTable (size : Nat) (json : Json) (name : String) (p : Json → Prop) : Prop :=
  ∀ items, json.get? name = some (.array items) →
    items.length ≤ size ∨ ∃ item ∈ items.take (size + 1), ¬ p item

variable {α : Type} {fn : SourceFn} {last size i : Nat} {restore : Json → Restored α}
  {items : List Json} {json : Json} {name : String}

theorem getArray_get (h : getArray json name = .ok items) :
    json.get? name = some (.array items) := by
  unfold getArray getEx at h
  cases hget : json.get? name with
  | none =>
    rw [hget] at h
    cases h
  | some value =>
    rw [hget] at h
    cases value with
    | array items' =>
      cases h
      rfl
    | _ => cases h

/-! ## An array that fits -/

/-- An array that was written with the table's size is read back. -/
theorem storeLoop_map (fn : SourceFn) (last : Nat) {β : Type} {f : β → Json} {h : β → α}
    (l : List β) (hl : ∀ b ∈ l, restore (f b) = .ok (h b)) (hlength : i + l.length ≤ last + 1) :
    ∃ stores, storeLoop fn last restore i (l.map f) = (stores, .ok ()) ∧
      stores.map Prod.snd = l.map h := by
  induction l generalizing i with
  | nil => exact ⟨[], rfl, rfl⟩
  | cons b l ih =>
    rw [List.length_cons] at hlength
    rw [List.forall_mem_cons] at hl
    obtain ⟨stores, hloop, hmap⟩ := ih hl.2 (i := i + 1) (by omega)
    refine ⟨(i, h b) :: stores, ?_, by rw [List.map_cons, hmap, List.map_cons]⟩
    rw [List.map_cons, storeLoop, if_pos (by omega), hl.1]
    dsimp only
    rw [hloop]

/-! ## Stores -/

/-- The stores are at the indices of the elements. -/
theorem storeLoop_lt : ∀ store ∈ (storeLoop fn last restore i items).1,
    store.1 < i + items.length := by
  induction items generalizing i with
  | nil => exact nofun
  | cons json items ih =>
    intro store hstore
    rw [storeLoop] at hstore
    split at hstore
    · split at hstore
      · cases hstore
      · rcases List.mem_cons.mp hstore with rfl | hstore
        · rw [List.length_cons]
          omega
        · have hlt := ih store hstore
          rw [List.length_cons]
          omega
    · cases hstore

/-- An element up to the last index that is refused ends the loop in time. -/
theorem storeLoop_refused (hi : i ≤ last)
    (h : ∃ item ∈ items.take (last + 1 - i), restore item = notRestored)
    (hrestore : ∀ item a, restore item ≠ .error (.fault a)) :
    (∀ store ∈ (storeLoop fn last restore i items).1, store.1 < last) ∧
      (storeLoop fn last restore i items).2 = notRestored := by
  induction items generalizing i with
  | nil =>
    obtain ⟨item, hitem, -⟩ := h
    rw [List.take_nil] at hitem
    cases hitem
  | cons json items ih =>
    have htake : last + 1 - i = (last - i) + 1 := by omega
    rw [htake, List.take_succ_cons] at h
    rw [storeLoop, if_pos hi]
    cases hjson : restore json with
    | error e =>
      cases e with
      | refused => exact ⟨nofun, rfl⟩
      | fault f => exact absurd hjson (hrestore json f)
    | ok a =>
      obtain ⟨item, hitem, hrefused⟩ := h
      rcases List.mem_cons.mp hitem with rfl | hitem
      · rw [hjson] at hrefused
        cases hrefused
      have hlt : i < last := by
        by_contra hge
        rw [Nat.sub_eq_zero_of_le (Nat.le_of_not_lt hge), List.take_zero] at hitem
        cases hitem
      have hrest : last + 1 - (i + 1) = last - i := by omega
      obtain ⟨hstores, hresult⟩ := ih (i := i + 1) hlt ⟨item, by rwa [hrest], hrefused⟩
      refine ⟨?_, hresult⟩
      intro store hstore
      rcases List.mem_cons.mp hstore with rfl | hstore
      · exact hlt
      · exact hstores store hstore

/-- An array with more elements, of which none is refused up to the last index, is stored there. -/
theorem storeLoop_last (hi : i ≤ last) (hlength : last < i + items.length)
    (h : ∀ item ∈ items.take (last + 1 - i), ∃ a, restore item = .ok a) :
    ∃ store ∈ (storeLoop fn last restore i items).1, store.1 = last := by
  induction items generalizing i with
  | nil =>
    rw [List.length_nil] at hlength
    omega
  | cons json items ih =>
    have htake : last + 1 - i = (last - i) + 1 := by omega
    rw [htake, List.take_succ_cons, List.forall_mem_cons] at h
    obtain ⟨⟨a, ha⟩, hitems⟩ := h
    rw [storeLoop, if_pos hi, ha]
    rcases Nat.lt_or_eq_of_le hi with hlt | rfl
    · have hrest : last + 1 - (i + 1) = last - i := by omega
      rw [List.length_cons] at hlength
      obtain ⟨store, hstore, hindex⟩ := ih (i := i + 1) hlt (by omega) (by rwa [hrest])
      exact ⟨store, List.mem_cons_of_mem _ hstore, hindex⟩
    · exact ⟨_, List.mem_cons_self, rfl⟩

/-- No store is behind the table exactly if the array fits. -/
theorem storesWithin_iff {p : Json → Prop} (hp : ∀ item, p item ↔ ∃ a, restore item = .ok a)
    (hrestore : ∀ item a, restore item ≠ .error (.fault a)) :
    StoresWithin size json name (storeArray fn size restore json name) ↔
      FitsTable size json name p := by
  have hrefused : ∀ item, ¬ p item → restore item = notRestored := by
    intro item hitem
    rw [hp] at hitem
    cases hresult : restore item with
    | ok a => exact absurd ⟨a, hresult⟩ hitem
    | error e =>
      cases e with
      | refused => rfl
      | fault f => exact absurd hresult (hrestore item f)
  unfold FitsTable storeArray
  constructor
  · intro h items hget
    by_contra hnot
    rw [not_or, not_le] at hnot
    have hall : ∀ item ∈ items.take (size + 1 - 0), ∃ a, restore item = .ok a := by
      intro item hitem
      by_contra hnone
      exact hnot.2 ⟨item, hitem, fun hitem => hnone ((hp item).mp hitem)⟩
    obtain ⟨store, hstore, hindex⟩ : ∃ store ∈ (storeLoop fn size restore 0 items).1,
        store.1 = size := storeLoop_last (Nat.zero_le size) (by omega) hall
    rw [getArray_ok hget] at h
    have hlt := h.1 store hstore
    omega
  · intro h
    cases harray : getArray json name with
    | error e =>
      refine ⟨nofun, ?_⟩
      intro items hget
      rw [getArray_ok hget] at harray
      cases harray
    | ok items =>
      have hget := getArray_get harray
      rcases h items hget with hle | ⟨item, hitem, hnot⟩
      · refine ⟨fun store hstore => ?_, fun items' hget' hlt => ?_⟩
        · have hlt := storeLoop_lt store hstore
          omega
        · rw [hget] at hget'
          cases hget'
          omega
      · have hitem' : ∃ item ∈ items.take (size + 1 - 0), restore item = notRestored :=
          ⟨item, hitem, hrefused item hnot⟩
        obtain ⟨hstores, hresult⟩ := storeLoop_refused (Nat.zero_le size) hitem' hrestore
        exact ⟨hstores, fun _ _ _ => hresult⟩

end Startup
