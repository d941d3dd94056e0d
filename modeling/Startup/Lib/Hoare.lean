import Startup.Lib.Sat

/-!
# Pre- and postconditions for programs with a state

A program reads and writes a state, and it returns or stops with a fault.
`Meets P m Q E` says that from every state with `P` the program `m` returns with
`Q`, or stops with a fault that `E` allows.

There is one rule for each way of putting programs together; in a loop over a
list, the invariant speaks of the elements that have been gone through.
-/

namespace Startup.Lib

variable {σ ε α β : Type}

/-- From a state with `P`, `m` returns with `Q` or stops with a fault that `E` allows. -/
def Meets (P : σ → Prop) (m : StateT σ (Except ε) α) (Q : α → σ → Prop) (E : ε → Prop) : Prop :=
  ∀ s, P s → Sat (m s) (fun r => Q r.1 r.2) E

variable {P P' : σ → Prop} {Q Q' : α → σ → Prop} {R : β → σ → Prop} {E E' : ε → Prop}
  {m m' : StateT σ (Except ε) α}

/-- The rule of consequence. -/
theorem Meets.mono (h : Meets P m Q E) (hP : ∀ s, P' s → P s) (hQ : ∀ a s, Q a s → Q' a s)
    (hE : ∀ e, E e → E' e) : Meets P' m Q' E' :=
  fun s hs => (h s (hP s hs)).mono (fun r hr => hQ r.1 r.2 hr) hE

/-- The rule of consequence, with the faults kept. -/
theorem Meets.post (h : Meets P m Q E) (hQ : ∀ a s, Q a s → Q' a s) : Meets P m Q' E :=
  h.mono (fun _ hs => hs) hQ fun _ he => he

theorem Meets.pre (h : Meets P m Q E) (hP : ∀ s, P' s → P s) : Meets P' m Q E :=
  h.mono hP (fun _ _ hq => hq) fun _ he => he

@[simp]
theorem meets_pure {a : α} : Meets P (pure a) Q E ↔ ∀ s, P s → Q a s := Iff.rfl

/-- Sequencing, from one state. -/
theorem Sat.bindState {f : α → StateT σ (Except ε) β} {s : σ} {A : α × σ → Prop}
    {B : β × σ → Prop} (hm : Sat (m s) A E) (hf : ∀ a s, A (a, s) → Sat (f a s) B E) :
    Sat ((m >>= f) s) B E := by
  show Sat (m s >>= fun r => f r.1 r.2) B E
  rw [sat_bind]
  exact hm.imp fun r hr => hf r.1 r.2 hr

/-- Sequencing. -/
theorem Meets.bind {f : α → StateT σ (Except ε) β} (hm : Meets P m Q E)
    (hf : ∀ a, Meets (Q a) (f a) R E) : Meets P (m >>= f) R E :=
  fun s hs => (hm s hs).bindState fun a s hr => hf a s hr

/-- Sequencing, where the first program returns nothing. -/
theorem Meets.seq {m : StateT σ (Except ε) PUnit} {Q : σ → Prop} {n : StateT σ (Except ε) β}
    (hm : Meets P m (fun _ => Q) E) (hn : Meets Q n R E) : Meets P (m >>= fun _ => n) R E :=
  hm.bind fun _ => hn

/-- What holds of the state may be used for the program. -/
theorem Meets.of_state (h : ∀ s, P s → Meets (fun s' => s' = s) m Q E) : Meets P m Q E :=
  fun s hs => h s hs s rfl

/-- A loop, with an invariant for the elements that it has gone through. -/
theorem Meets.forM {γ : Type} {f : γ → StateT σ (Except ε) PUnit} {I : List γ → σ → Prop}
    (l : List γ)
    (h : ∀ done a rest, l = done ++ a :: rest → Meets (I done) (f a) (fun _ => I (done ++ [a])) E) :
    Meets (I []) (l.forM f) (fun _ => I l) E := by
  suffices hrest : ∀ rest done, l = done ++ rest →
      Meets (I done) (rest.forM f) (fun _ => I l) E from hrest l [] rfl
  intro rest
  induction rest with
  | nil =>
    intro done hl s hs
    rw [List.append_nil] at hl
    subst hl
    exact hs
  | cons a rest ih =>
    intro done hl
    show Meets _ (f a >>= fun _ => rest.forM f) _ _
    exact (h done a rest hl).seq (ih (done ++ [a]) (by rw [hl, List.append_assoc]; rfl))

end Startup.Lib
