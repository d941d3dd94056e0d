import Startup.World.Poll
import Startup.World.Machine

/-!
# Finding the file of a class (`init/conf.c`)

`conf_file_find` looks for the file of a class by the last component of its path, not by the name
that `conf_to_job_name` gives the file.

* `Accepted`: the paths that the function takes for those of a name;
* `FindsRight`: it finds the file that has the name;
* `confFileFind_iff`: it does so exactly where another file of the name makes up for each one that
  it misses, and stands before each one that it mistakes for one of the name.
-/

namespace Startup

open Lib

/-- The name of a file. -/
def World.nameOf (w : World) (file : ConfFile) : String :=
  confToJobName (w.sources.getD file.source "") file.path

/-- The file of a name is found, in the first source that has one, and nothing is found for other
names. -/
structure FindsRight (w : World) (name : String) : Prop where
  found : ∀ file, confFileFind w name = some file → w.nameOf file = name ∧
    ∀ other ∈ w.files, w.nameOf other = name → file.source ≤ other.source
  notFound : confFileFind w name = none → ∀ other ∈ w.files, w.nameOf other ≠ name

/-- The last component of a path begins with the name and `.conf`, and no component does so
before. -/
def Accepted (path name : List Char) : Prop :=
  ∃ dir rest, path = dir ++ ('/' :: (name ++ ".conf".toList) ++ rest) ∧ '/' ∉ name ∧ '/' ∉ rest ∧
    ∀ i < dir.length, ¬ ('/' :: (name ++ ".conf".toList)) <+: path.drop i

/-- A file of a name that is accepted for it. -/
def World.Findable (w : World) (name : String) (file : ConfFile) : Prop :=
  file ∈ w.files ∧ w.nameOf file = name ∧ Accepted file.path.toList name.toList

/-- For each file of the name that is not accepted, there is one that is, in the same source or in
an earlier one; and before each file that is accepted, but has another name, there is one that has
the name. -/
def MadeUpFor (w : World) (name : String) : Prop :=
  (∀ file ∈ w.files, w.nameOf file = name → ¬ Accepted file.path.toList name.toList →
    ∃ other, w.Findable name other ∧ other.source ≤ file.source) ∧
  ∀ before file after, w.files = before ++ file :: after → w.nameOf file ≠ name →
    Accepted file.path.toList name.toList → ∃ other ∈ before, w.Findable name other

variable {w : World} {name : String} {file : ConfFile} {str pat path : List Char} {c : Char}
  {i : Nat}

/-! ## Searching a text -/

theorem strstr_eq_some : strstr str pat = some i ↔
    pat <+: str.drop i ∧ i ≤ str.length ∧ ∀ j < i, ¬ pat <+: str.drop j := by
  rw [strstr, List.find?_range_eq_some]
  simp only [List.isPrefixOf_iff_prefix, List.mem_range, Nat.lt_succ_iff, Bool.not_eq_true',
    ← Bool.not_eq_true]

theorem find?_reverse_range {p : Nat → Bool} (n : Nat) :
    (List.range n).reverse.find? p = some i ↔
      p i = true ∧ i < n ∧ ∀ j, i < j → j < n → p j = false := by
  induction n with
  | zero => simp
  | succ n ih =>
    rw [List.range_succ, List.reverse_append, List.reverse_singleton, List.singleton_append,
      List.find?_cons]
    cases hn : p n with
    | true =>
      rw [Option.some.injEq]
      constructor
      · intro h
        subst h
        exact ⟨hn, Nat.lt_succ_self _, fun j hj hlt => absurd hlt (by omega)⟩
      · intro h
        by_contra hne
        have hfalse := h.2.2 n (by omega) (Nat.lt_succ_self n)
        rw [hn] at hfalse
        cases hfalse
    | false =>
      rw [ih]
      constructor
      · intro h
        refine ⟨h.1, by omega, ?_⟩
        intro j hij hj
        rcases Nat.lt_succ_iff_lt_or_eq.mp hj with hlt | rfl
        · exact h.2.2 j hij hlt
        · exact hn
      · intro h
        have hne : i ≠ n := by
          intro heq
          rw [heq, hn] at h
          cases h.1
        exact ⟨h.1, by omega, fun j hij hj => h.2.2 j hij (by omega)⟩

theorem strrchr_eq_some : strrchr str c = some i ↔ str[i]? = some c ∧ c ∉ str.drop (i + 1) := by
  rw [strrchr, find?_reverse_range]
  simp only [decide_eq_true_eq, decide_eq_false_iff_not]
  constructor
  · intro h
    refine ⟨h.1, ?_⟩
    intro hmem
    obtain ⟨k, hk⟩ := List.mem_iff_getElem?.mp hmem
    rw [List.getElem?_drop] at hk
    have hlt := (List.getElem?_eq_some_iff.mp hk).1
    exact h.2.2 (i + 1 + k) (by omega) hlt hk
  · intro h
    obtain ⟨hc, hnot⟩ := h
    refine ⟨hc, (List.getElem?_eq_some_iff.mp hc).1, ?_⟩
    intro j hij _ hj
    apply hnot
    rw [List.mem_iff_getElem?]
    refine ⟨j - (i + 1), ?_⟩
    rw [List.getElem?_drop, show i + 1 + (j - (i + 1)) = j by omega, hj]

/-- What the function compares for one file. -/
theorem accepted_iff {name : List Char} :
    (∃ k, strstr path ('/' :: (name ++ ".conf".toList)) = some k ∧
      strrchr path '/' = some k) ↔ Accepted path name := by
  constructor
  · intro h
    obtain ⟨k, hstr, hchr⟩ := h
    obtain ⟨hbegins, hle, hfirst⟩ := strstr_eq_some.mp hstr
    obtain ⟨-, hlast⟩ := strrchr_eq_some.mp hchr
    obtain ⟨rest, hrest⟩ := hbegins
    have hbehind : path.drop (k + 1) = (name ++ ".conf".toList) ++ rest := by
      rw [← List.drop_drop, ← hrest]
      rfl
    rw [hbehind, List.mem_append, List.mem_append, not_or, not_or] at hlast
    refine ⟨path.take k, rest, ?_, hlast.1.1, hlast.2, ?_⟩
    · rw [hrest, List.take_append_drop]
    · intro i hi
      rw [List.length_take] at hi
      exact hfirst i (by omega)
  · intro h
    obtain ⟨dir, rest, hpath, hname, hrest, hfirst⟩ := h
    have hdrop : path.drop dir.length = '/' :: (name ++ ".conf".toList) ++ rest := by
      rw [hpath, List.drop_left]
    have hlength := congrArg List.length hpath
    rw [List.length_append] at hlength
    refine ⟨dir.length, strstr_eq_some.mpr ⟨?_, by omega, hfirst⟩, strrchr_eq_some.mpr ⟨?_, ?_⟩⟩
    · rw [hdrop]
      exact List.prefix_append _ _
    · rw [hpath]
      simp
    · rw [← List.drop_drop, hdrop]
      simp [hname, hrest]

/-! ## The first file -/

/-- The test of `conf_file_find`. -/
def isFileOf (name : String) (file : ConfFile) : Bool :=
  let found := strstr file.path.toList ("/" ++ name ++ ".conf").toList
  found.isSome && found = strrchr file.path.toList '/'

theorem confFileFind_eq (w : World) (name : String) :
    confFileFind w name = w.files.find? (isFileOf name) := rfl

theorem isFileOf_iff (name : String) (file : ConfFile) :
    isFileOf name file = true ↔ Accepted file.path.toList name.toList := by
  have hpat : ("/" ++ name ++ ".conf").toList = '/' :: (name.toList ++ ".conf".toList) := by simp
  rw [← accepted_iff, isFileOf, hpat]
  cases strstr file.path.toList ('/' :: (name.toList ++ ".conf".toList)) with
  | none => simp
  | some k => simp [eq_comm]

/-- A file is found if it is the first that is accepted. -/
theorem confFileFind_eq_some : confFileFind w name = some file ↔
    Accepted file.path.toList name.toList ∧ ∃ before after, w.files = before ++ file :: after ∧
      ∀ other ∈ before, ¬ Accepted other.path.toList name.toList := by
  rw [confFileFind_eq, List.find?_eq_some_iff_append, isFileOf_iff]
  simp only [Bool.not_eq_true', ← Bool.not_eq_true, isFileOf_iff]

theorem confFileFind_eq_none : confFileFind w name = none ↔
    ∀ other ∈ w.files, ¬ Accepted other.path.toList name.toList := by
  rw [confFileFind_eq, List.find?_eq_none]
  simp only [isFileOf_iff]

/-! ## When it is the right one -/

/-- What is found stands in no later source than another file that is accepted. -/
theorem source_le_of_found (hsorted : w.files.Pairwise fun a b => a.source ≤ b.source)
    {other : ConfFile} (h : confFileFind w name = some file) (hmem : other ∈ w.files)
    (haccepted : Accepted other.path.toList name.toList) : file.source ≤ other.source := by
  obtain ⟨-, before, after, hfiles, hbefore⟩ := confFileFind_eq_some.mp h
  rw [hfiles] at hsorted hmem
  rcases List.mem_append.mp hmem with hmem | hmem
  · exact absurd haccepted (hbefore other hmem)
  · rcases List.mem_cons.mp hmem with rfl | hmem
    · exact Nat.le_refl _
    · exact (List.pairwise_cons.mp (List.pairwise_append.mp hsorted).2.1).1 other hmem

theorem madeUpFor_of_findsRight (h : FindsRight w name) : MadeUpFor w name := by
  cases hfound : confFileFind w name with
  | none =>
    have hnone := confFileFind_eq_none.mp hfound
    refine ⟨fun file hmem hname => absurd hname (h.notFound hfound file hmem), ?_⟩
    intro before file after hfiles _ haccepted
    have hmem : file ∈ w.files := by
      rw [hfiles]
      exact List.mem_append_right _ List.mem_cons_self
    exact absurd haccepted (hnone file hmem)
  | some found =>
    obtain ⟨hname, hfirst⟩ := h.found found hfound
    obtain ⟨haccepted, before, after, hfiles, hbefore⟩ := confFileFind_eq_some.mp hfound
    have hmem : found ∈ w.files := by
      rw [hfiles]
      exact List.mem_append_right _ List.mem_cons_self
    have hfindable : w.Findable name found := ⟨hmem, hname, haccepted⟩
    constructor
    · intro file hfile hnamed _
      exact ⟨found, hfindable, hfirst file hfile hnamed⟩
    · intro before' file after' hfiles' hother hmistaken
      refine ⟨found, ?_, hfindable⟩
      rw [hfiles'] at hfiles
      rcases List.append_eq_append_iff.mp hfiles with ⟨mid, hmid, htail⟩ | ⟨mid, hmid, htail⟩
      · cases mid with
        | nil =>
          cases htail
          exact absurd hname hother
        | cons first mid =>
          cases htail
          rw [hmid, List.forall_mem_append] at hbefore
          exact absurd hmistaken (hbefore.2 file List.mem_cons_self)
      · cases mid with
        | nil =>
          cases htail
          exact absurd hname hother
        | cons first mid =>
          cases htail
          rw [hmid]
          exact List.mem_append_right _ List.mem_cons_self

theorem findsRight_of_madeUpFor (hsorted : w.files.Pairwise fun a b => a.source ≤ b.source)
    (h : MadeUpFor w name) : FindsRight w name := by
  obtain ⟨hmissed, hmistaken⟩ := h
  constructor
  · intro file hfound
    obtain ⟨haccepted, before, after, hfiles, hbefore⟩ := confFileFind_eq_some.mp hfound
    have hname : w.nameOf file = name := by
      by_contra hother
      obtain ⟨right, hright, hfindable⟩ := hmistaken before file after hfiles hother haccepted
      exact hbefore right hright hfindable.2.2
    refine ⟨hname, ?_⟩
    intro other hmem hnamed
    by_cases hother : Accepted other.path.toList name.toList
    · exact source_le_of_found hsorted hfound hmem hother
    · obtain ⟨right, hfindable, hle⟩ := hmissed other hmem hnamed hother
      exact Nat.le_trans (source_le_of_found hsorted hfound hfindable.1 hfindable.2.2) hle
  · intro hnone other hmem hnamed
    have hall := confFileFind_eq_none.mp hnone
    obtain ⟨right, hfindable, -⟩ := hmissed other hmem hnamed (hall other hmem)
    exact hall right hfindable.1 hfindable.2.2

/-! ## After a re-exec -/

/-- What the class of a file is named after, where what is found for the classes is right. -/
structure GoesBack (w : World) : Prop where
  named : ∀ file ∈ w.files, ∀ cls, (restoreFile w file).job = some cls →
    ∃ r ∈ w.registered.items, r.cls = cls ∧ w.nameOf file = r.name
  given : ∀ r ∈ w.registered.items, (∃ file ∈ w.files, w.nameOf file = r.name) →
    ∃ file ∈ w.files, w.nameOf file = r.name ∧ (restoreFile w file).job = some r.cls

/-- The registration that a file is given back to. -/
def ownerOf (w : World) (file : ConfFile) : Option Registration :=
  w.registered.items.reverse.find? fun r =>
    match confFileFind w r.name with
    | none => false
    | some found => found.source = file.source ∧ found.path = file.path

theorem restoreFile_job (w : World) (file : ConfFile) :
    (restoreFile w file).job = (ownerOf w file).map Registration.cls := rfl

theorem ownerOf_mem {r : Registration} (howner : ownerOf w file = some r) :
    r ∈ w.registered.items :=
  List.mem_reverse.mp (List.mem_of_find?_eq_some howner)

theorem ownerOf_named {r : Registration} (h : FindsRight w r.name)
    (howner : ownerOf w file = some r) : w.nameOf file = r.name := by
  have hsame := List.find?_some howner
  cases hfound : confFileFind w r.name with
  | none => simp [hfound] at hsame
  | some found =>
    simp only [hfound, decide_eq_true_eq] at hsame
    rw [← (h.found found hfound).1, World.nameOf, World.nameOf, hsame.1, hsame.2]

theorem goesBack_of_findsRight (h : ∀ name, FindsRight w name) : GoesBack w := by
  constructor
  · intro file _ cls hjob
    obtain ⟨r, howner, rfl⟩ := Option.map_eq_some_iff.mp hjob
    exact ⟨r, ownerOf_mem howner, rfl, ownerOf_named (h r.name) howner⟩
  · intro r hr hfile
    obtain ⟨file, hmem, hname⟩ := hfile
    cases hfound : confFileFind w r.name with
    | none => exact absurd hname ((h r.name).notFound hfound file hmem)
    | some found =>
      have hnamed := ((h r.name).found found hfound).1
      refine ⟨found, List.mem_of_find?_eq_some hfound, hnamed, ?_⟩
      have hsome : (ownerOf w found).isSome = true := by
        rw [ownerOf, List.find?_isSome]
        exact ⟨r, List.mem_reverse.mpr hr, by simp [hfound]⟩
      obtain ⟨r', howner⟩ := Option.isSome_iff_exists.mp hsome
      have hsame : r'.name = r.name := (ownerOf_named (h r'.name) howner).symm.trans hnamed
      have hr' : r' = r := by
        have hget := Store.get?_of_mem (s := w.registered) hr
        have hget' := Store.get?_of_mem (s := w.registered) (ownerOf_mem howner)
        have hkey : Keyed.key r' = Keyed.key r := hsame
        rw [hkey, hget] at hget'
        exact (Option.some.inj hget').symm
      rw [restoreFile_job, howner, hr']
      rfl

/-- `conf_file_find` is right for a name exactly where each file of the name that it misses, and
each other file that it accepts, is made up for; and where it is right for every name, each class
goes back to a file of its name. -/
theorem confFileFind_iff (w : World)
    (hsorted : w.files.Pairwise fun a b => a.source ≤ b.source) :
    (∀ name, FindsRight w name ↔ MadeUpFor w name) ∧
      ((∀ name, MadeUpFor w name) → GoesBack w) := by
  refine ⟨fun name => ⟨madeUpFor_of_findsRight, findsRight_of_madeUpFor hsorted⟩, ?_⟩
  intro h
  exact goesBack_of_findsRight fun name => findsRight_of_madeUpFor hsorted (h name)

/-- Two sources of jobs, with a file of one name in each. -/
def twoSources : World :=
  { newWorld with
    sources := ["/etc/init", "/usr/share/init"]
    files := [⟨0, "/etc/init/tty.conf", none⟩, ⟨1, "/usr/share/init/tty.conf", none⟩] }

theorem confFileFind_iff_twoSources :
    (∀ name, FindsRight twoSources name ↔ MadeUpFor twoSources name) ∧
      ((∀ name, MadeUpFor twoSources name) → GoesBack twoSources) :=
  confFileFind_iff twoSources (by decide)

/-- A source with a job in a directory below it. -/
def nestedJob : World :=
  { newWorld with
    sources := ["/etc/init"]
    files := [⟨0, "/etc/init/net/eth0.conf", none⟩] }

/-- The job is not found under its name, but under the last part of it. -/
theorem nestedJob_missed :
    confToJobName "/etc/init" "/etc/init/net/eth0.conf" = "net/eth0" ∧
      confFileFind nestedJob "net/eth0" = none ∧
      (confFileFind nestedJob "eth0").isSome = true ∧
      ¬ FindsRight nestedJob "net/eth0" ∧ ¬ FindsRight nestedJob "eth0" := by
  have hname : confToJobName "/etc/init" "/etc/init/net/eth0.conf" = "net/eth0" := by decide
  have hmissed : confFileFind nestedJob "net/eth0" = none := by decide
  have hfound : confFileFind nestedJob "eth0" = some ⟨0, "/etc/init/net/eth0.conf", none⟩ := by
    rfl
  refine ⟨hname, hmissed, by rw [hfound]; rfl, ?_, ?_⟩
  · intro h
    exact h.notFound hmissed _ (List.mem_singleton.mpr rfl) hname
  · intro h
    exact absurd ((h.found _ hfound).1.symm.trans hname) (by decide)

end Startup
