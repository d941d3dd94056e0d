import Mathlib.Data.List.Infix
import Mathlib.Data.List.TakeWhile
import Mathlib.Tactic.Common

/-!
# Paths as text

A path is a list of names, and is written as a text in which each name follows a
slash.  `render` writes a path and `components` reads one; a text is canonical when
it is what `render` writes.

* `components_render`: reading finds the names that have been written.
* `dirname_render`, `dirname_single`: the directory of a canonical text, as
  `dirname` of the C library computes it.
* `skipSlashes_render`, `getLast?_render`: a canonical text begins with one slash
  and does not end in one.
* `Canonical.ext`: two canonical texts with the same names are the same.
-/

namespace Startup.Lib

/-- A text. -/
abbrev Text := List Char

/-- A name can be a component of a path. -/
def IsName (n : Text) : Prop := n ≠ [] ∧ '/' ∉ n ∧ n ≠ ['.'] ∧ n ≠ ['.', '.']

/-- A path, as a list of names. -/
def IsPath (c : List Text) : Prop := ∀ n ∈ c, IsName n

instance (n : Text) : Decidable (IsName n) :=
  inferInstanceAs (Decidable (n ≠ [] ∧ '/' ∉ n ∧ n ≠ ['.'] ∧ n ≠ ['.', '.']))

instance (c : List Text) : Decidable (IsPath c) :=
  inferInstanceAs (Decidable (∀ n ∈ c, IsName n))

/-- The text of a path. -/
def render (c : List Text) : Text := c.flatMap ('/' :: ·)

/-- The names in a text. -/
def components (s : Text) : List Text :=
  (s.splitOn '/').filter fun n => n ≠ [] ∧ n ≠ ['.']

/-- `dirname` of the C library. -/
def dirname (path : Text) : Text :=
  let body := path.reverse.dropWhile (· = '/')
  if body.isEmpty then if path.isEmpty then ['.'] else ['/']
  else
    let dir := body.dropWhile (· ≠ '/')
    if dir.isEmpty then ['.']
    else
      let dir := dir.dropWhile (· = '/')
      if dir.isEmpty then ['/'] else dir.reverse

/-- `basename` of the C library. -/
def basename (path : Text) : Text :=
  let body := path.reverse.dropWhile (· = '/')
  if body.isEmpty then if path.isEmpty then ['.'] else ['/']
  else (body.takeWhile (· ≠ '/')).reverse

/-- Several slashes at the beginning become one. -/
def skipSlashes : Text → Text
  | '/' :: '/' :: s => skipSlashes ('/' :: s)
  | s => s

variable {c d : List Text} {n : Text}

theorem IsPath.append : IsPath (c ++ d) ↔ IsPath c ∧ IsPath d := by
  simp only [IsPath, List.mem_append]
  constructor
  · intro h
    exact ⟨fun n hn => h n (.inl hn), fun n hn => h n (.inr hn)⟩
  · rintro ⟨hc, hd⟩ n (hn | hn)
    · exact hc n hn
    · exact hd n hn

theorem IsPath.above (h : c <+: d) (hd : IsPath d) : IsPath c := fun n hn =>
  hd n (h.subset hn)

@[simp] theorem render_nil : render [] = [] := rfl

@[simp] theorem render_cons : render (n :: c) = '/' :: (n ++ render c) := rfl

@[simp] theorem render_append : render (c ++ d) = render c ++ render d :=
  List.flatMap_append

theorem render_snoc : render (c ++ [n]) = render c ++ '/' :: n := by
  rw [render_append, render_cons, render_nil, List.append_nil]

/-! ## Reading -/

theorem splitOn_append_render (hn : IsName n) (hc : IsPath c) :
    (n ++ render c).splitOn '/' = n :: c := by
  induction c generalizing n with
  | nil =>
    rw [render_nil, List.append_nil]
    exact List.splitOn_eq_singleton hn.2.1
  | cons m c ih =>
    rw [render_cons, List.splitOn_append_cons_self_of_not_mem hn.2.1,
      ih (hc m List.mem_cons_self) fun k hk => hc k (List.mem_cons_of_mem m hk)]

/-- Reading finds the names that have been written. -/
theorem components_render (hc : IsPath c) : components (render c) = c := by
  have hnames : ∀ {c : List Text}, IsPath c →
      c.filter (fun n => decide (n ≠ [] ∧ n ≠ ['.'])) = c := fun hc =>
    List.filter_eq_self.mpr fun n hn => decide_eq_true ⟨(hc n hn).1, (hc n hn).2.2.1⟩
  cases c with
  | nil => rfl
  | cons n c =>
    have hsplit : (render (n :: c)).splitOn '/' = [] :: n :: c := by
      show ([] ++ '/' :: (n ++ render c)).splitOn '/' = _
      rw [List.splitOn_append_cons_self_of_not_mem List.not_mem_nil,
        splitOn_append_render (hc n List.mem_cons_self) fun k hk =>
          hc k (List.mem_cons_of_mem n hk)]
    rw [components, hsplit, List.filter_cons_of_neg (by simp)]
    exact hnames hc

/-! ## The ends of a text -/

/-- A name ends in a character that is not a slash. -/
theorem IsName.reverse_cons (hn : IsName n) : ∃ ch s, n.reverse = ch :: s ∧ ch ≠ '/' := by
  obtain ⟨hne, hslash, -⟩ := hn
  cases hr : n.reverse with
  | nil => exact absurd (List.reverse_eq_nil_iff.mp hr) hne
  | cons ch s =>
    refine ⟨ch, s, rfl, fun heq => hslash ?_⟩
    rw [← List.mem_reverse, hr, heq]
    exact List.mem_cons_self

/-- So does a path. -/
theorem render_reverse (hc : IsPath c) (hne : c ≠ []) :
    ∃ ch s, (render c).reverse = ch :: s ∧ ch ≠ '/' := by
  obtain ⟨c, n, rfl⟩ := List.eq_nil_or_concat' c |>.resolve_left hne
  obtain ⟨ch, s, hrev, hch⟩ := (hc n (by simp)).reverse_cons
  refine ⟨ch, s ++ '/' :: (render c).reverse, ?_, hch⟩
  rw [render_snoc, List.reverse_append, List.reverse_cons, hrev]
  simp

theorem getLast?_render (hc : IsPath c) : (render c).getLast? ≠ some '/' := by
  by_cases hne : c = []
  · subst hne
    exact fun h => by cases h
  · obtain ⟨ch, s, hrev, hch⟩ := render_reverse hc hne
    rw [List.getLast?_eq_head?_reverse, hrev]
    exact fun h => hch (Option.some.inj h)

theorem skipSlashes_render (hc : IsPath c) : skipSlashes (render c) = render c := by
  cases c with
  | nil => rfl
  | cons n c =>
    obtain ⟨hne, hslash, -⟩ := hc n List.mem_cons_self
    cases n with
    | nil => exact absurd rfl hne
    | cons ch n =>
      have hch : ch ≠ '/' := fun heq => hslash (heq ▸ List.mem_cons_self)
      rw [render_cons, List.cons_append, skipSlashes]
      rintro s ⟨⟩
      exact hch rfl

/-! ## The directory -/

/-- The directory of an absolute path is absolute. -/
theorem head?_dirname {path : Text} (h : path.head? = some '/') :
    (dirname path).head? = some '/' := by
  have hlast : path.reverse.getLast? = some '/' := by rwa [List.getLast?_reverse]
  have hends : ∀ t, t <:+ path.reverse → t ≠ [] → t.getLast? = some '/' := by
    intro t ht hne
    obtain ⟨s, hs⟩ := ht
    rw [← hs, List.getLast?_append_of_ne_nil _ hne] at hlast
    exact hlast
  unfold dirname
  dsimp only
  split
  · split
    · rename_i hempty
      rw [List.isEmpty_iff.mp hempty] at h
      contradiction
    · rfl
  · rename_i hbody
    have hsuffix := List.dropWhile_suffix (fun c => decide (c = '/')) (l := path.reverse)
    have hslash := List.mem_of_getLast? (hends _ hsuffix (by simpa using hbody))
    split
    · rename_i hdir
      have hall := List.dropWhile_eq_nil_iff.mp (List.isEmpty_iff.mp hdir) _ hslash
      simp at hall
    · split
      · rfl
      · rename_i hrest
        rw [List.head?_reverse]
        refine hends _ ?_ (by simpa using hrest)
        exact ((List.dropWhile_suffix _).trans (List.dropWhile_suffix _)).trans hsuffix

/-- What `dirname` leaves of a text that ends in a name. -/
theorem dirname_append (hn : IsName n) (s : Text) : dirname (s ++ '/' :: n) =
    if (s.reverse.dropWhile (· = '/')).isEmpty then ['/']
    else (s.reverse.dropWhile (· = '/')).reverse := by
  obtain ⟨ch, l, hrev, hch⟩ := hn.reverse_cons
  have hall : ∀ a ∈ n.reverse, decide (a ≠ '/') = true := fun a ha =>
    decide_eq_true fun heq => hn.2.1 (heq ▸ List.mem_reverse.mp ha)
  have hbody : (s ++ '/' :: n).reverse.dropWhile (· = '/') = n.reverse ++ '/' :: s.reverse := by
    rw [List.reverse_append, List.reverse_cons, List.append_assoc, hrev]
    exact List.dropWhile_cons_of_neg (by simpa using hch)
  have hdir : (n.reverse ++ '/' :: s.reverse).dropWhile (· ≠ '/') = '/' :: s.reverse := by
    rw [List.dropWhile_append_of_pos hall, List.dropWhile_cons_of_neg (by simp)]
  have hslash : ('/' :: s.reverse).dropWhile (· = '/') = s.reverse.dropWhile (· = '/') :=
    List.dropWhile_cons_of_pos (by simp)
  simp only [dirname, hbody, hdir, hslash]
  rw [if_neg (by simp), if_neg (by simp)]

theorem dirname_single (hn : IsName n) : dirname (render [n]) = ['/'] := by
  have h := dirname_append hn []
  simpa using h

theorem dirname_render (hc : IsPath c) (hne : c ≠ []) (hn : IsName n) :
    dirname (render (c ++ [n])) = render c := by
  obtain ⟨ch, s, hrev, hch⟩ := render_reverse hc hne
  have hkeep : (render c).reverse.dropWhile (· = '/') = (render c).reverse := by
    rw [hrev, List.dropWhile_cons_of_neg (by simpa using hch)]
  rw [render_snoc, dirname_append hn, hkeep, if_neg (by simp [hrev]), List.reverse_reverse]

/-! ## Canonical texts -/

/-- A text is what `render` writes for its names. -/
def Canonical (s : Text) : Prop := IsPath (components s) ∧ render (components s) = s

theorem canonical_render (hc : IsPath c) : Canonical (render c) := by
  rw [Canonical, components_render hc]
  exact ⟨hc, rfl⟩

/-- A canonical text is known by its names. -/
theorem Canonical.ext {s t : Text} (hs : Canonical s) (ht : Canonical t)
    (h : components s = components t) : s = t := by
  rw [← hs.2, h, ht.2]

theorem Canonical.getLast? {s : Text} (hs : Canonical s) : s.getLast? ≠ some '/' := by
  rw [← hs.2]
  exact getLast?_render hs.1

/-- The directory of a canonical text is the root or has all names but the last. -/
theorem Canonical.dirname {s : Text} (hs : Canonical s) (hne : components s ≠ []) :
    (components s).dropLast = [] ∧ dirname s = ['/'] ∨
      (components s).dropLast ≠ [] ∧ Canonical (dirname s) ∧
        components (dirname s) = (components s).dropLast := by
  obtain ⟨hpath, htext⟩ := hs
  obtain ⟨c, n, hc⟩ := List.eq_nil_or_concat' (components s) |>.resolve_left hne
  rw [hc] at hpath htext
  obtain ⟨hpathc, hpathn⟩ := IsPath.append.mp hpath
  have hn : IsName n := hpathn n List.mem_cons_self
  have hdrop : (components s).dropLast = c := by rw [hc, List.dropLast_concat]
  rw [hdrop]
  by_cases hnil : c = []
  · subst hnil
    rw [← htext]
    exact .inl ⟨rfl, dirname_single hn⟩
  · rw [← htext, dirname_render hpathc hnil hn]
    exact .inr ⟨hnil, canonical_render hpathc, components_render hpathc⟩

example : dirname (render [['v', 'a', 'r'], ['l', 'o', 'g']]) = ['/', 'v', 'a', 'r'] := by decide

end Startup.Lib
