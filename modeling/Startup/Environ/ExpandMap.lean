import Startup.Environ.ExpandMemory

/-!
# The expansion over the map that a table is (`init/environ.c`)

The reference semantics looks names up in the map of a table: the key of an entry is the
text before its first `=`, and its value is the text behind that.  `environ_lookup` compares
the whole name with the beginning of each entry, so that a name with an `=` in it can find
an entry whose key is shorter.

* `environGetn_eq`: a name without `=` has the value that the map has;
* `environExpandIn_mapped`: `environ_expand` ends within the string, and is the reference
  semantics where each name that is looked up has the value that the map has.
-/

namespace Startup

variable {env : List String} {string : List Char}

/-- The value in the map that the table is. -/
def Mapped (env : List String) (name : List Char) (value : Option (List Char)) : Prop :=
  value = tableValue (env.filter hasValue) name

/-- Each name that the expansion of a string looks up has the value that the map has. -/
def NamesMapped (env : List String) (string : List Char) : Prop :=
  ∃ r, Expands (fun name value => Mapped env name value ∧ Found env name value) [] string r

/-- What comes out of a string is its expansion. -/
def Expanded (env : List String) (string : List Char) (r : Except EnvironError (List Char)) :
    Prop :=
  Expands (Mapped env) [] string (r.map fun out => (out, []))

/-! ## Names -/

/-- A name without `=` has the value that the map has. -/
theorem environGetn_eq (env : List String) {name : List Char} (hname : '=' ∉ name) :
    environGetn env name = tableValue (env.filter hasValue) name := by
  have hkey : entryKey (String.ofList name) = name := by
    rw [entryKey, String.toList_ofList, takeWhile_eq_self hname]
  have hnext : ∀ {e : String} {es : List String}, (name ++ ['=']).isPrefixOf e.toList = false →
      environGetn (e :: es) name = environGetn es name := by
    intro e es he
    unfold environGetn environLookup
    rw [List.findIdx?_cons, he, if_neg Bool.false_ne_true, Option.map_map]
    rfl
  induction env with
  | nil => rfl
  | cons e es ih =>
    rw [List.filter_cons]
    by_cases he : hasValue e = true
    · have hstarts := @isPrefixOf_entry (String.ofList name) e he
      rw [hkey] at hstarts
      rw [if_pos he]
      by_cases hfound : entryKey e = name
      · unfold environGetn environLookup tableValue
        rw [List.findIdx?_cons, hstarts.mpr hfound, if_pos rfl,
          List.find?_cons_of_pos (by simp [hfound])]
        rfl
      · have hskip : tableValue (e :: es.filter hasValue) name =
            tableValue (es.filter hasValue) name := by
          unfold tableValue
          rw [List.find?_cons_of_neg (by simp [hfound])]
        rw [hskip, hnext (Bool.eq_false_iff.mpr fun h => hfound (hstarts.mp h)), ih]
    · have hstarts : (name ++ ['=']).isPrefixOf e.toList = false := by
        rw [Bool.eq_false_iff]
        intro h
        have hmem := (List.isPrefixOf_iff_prefix.mp h).subset (List.mem_append_right _
          (List.mem_singleton.mpr rfl))
        exact he (List.contains_iff_mem.mpr hmem)
      rw [if_neg he, hnext hstarts, ih]

/-- Names without `=` are mapped. -/
theorem namesMapped_of_plain {r : Expansion}
    (h : Expands (fun name value => Mapped env name value ∧ '=' ∉ name) [] string r) :
    NamesMapped env string :=
  ⟨r, h.mono fun _ _ ⟨hvalue, hname⟩ => ⟨hvalue, hvalue.trans (environGetn_eq env hname).symm⟩⟩

/-! ## Texts without NUL -/

/-- A text that nothing ends is expanded to its end. -/
theorem Expands.rest_nil {look : List Char → Option (List Char) → Prop}
    {stops out rest : List Char} (hstops : stops = [])
    (h : Expands look stops string (.ok (out, rest))) : rest = [] := by
  generalize hr : (.ok (out, rest) : Expansion) = r at h
  induction h generalizing out with
  | last => cases hr; rfl
  | stop _ hstop => exact absurd (hstops ▸ hstop) List.not_mem_nil
  | plain _ _ _ ih | lone _ _ ih | dollar _ ih | simple _ _ _ ih =>
    obtain ⟨out', hr⟩ := prefixed_eq_ok hr.symm
    exact ih hstops hr.symm
  | bracketed _ _ _ _ _ _ _ _ _ ih =>
    obtain ⟨out', hr⟩ := prefixed_eq_ok hr.symm
    exact ih hstops hr.symm
  | _ => cases hr

theorem substitute_nul {op : ExpandOp} {ignoreEmpty : Bool} {name arg text : List Char}
    {value : Option (List Char)} (harg : '\x00' ∉ arg) (hvalue : ∀ v, value = some v → '\x00' ∉ v)
    (h : substitute op ignoreEmpty name arg value = .ok text) : '\x00' ∉ text := by
  rw [substitute_eq] at h
  cases op with
  | value =>
    cases value with
    | none => cases h
    | some v =>
      cases h
      exact hvalue _ rfl
  | default =>
    cases value with
    | none =>
      cases h
      exact harg
    | some v =>
      cases h
      split
      · exact harg
      · exact hvalue v rfl
  | alternate =>
    cases value with
    | none =>
      cases h
      exact List.not_mem_nil
    | some v =>
      cases h
      split
      · exact List.not_mem_nil
      · exact harg

theorem nul_prefixed {text out rest : List Char} {r : Expansion} (htext : '\x00' ∉ text)
    (h : prefixed text r = .ok (out, rest))
    (ih : ∀ out, r = .ok (out, rest) → '\x00' ∉ out) : '\x00' ∉ out := by
  cases r with
  | error e => cases h
  | ok p =>
    obtain ⟨out', rest'⟩ := p
    cases h
    rw [List.mem_append, not_or]
    exact ⟨htext, ih out' rfl⟩

/-- No NUL gets into the expansion where there is none in the string and in the values. -/
theorem Expands.out_nul {look : List Char → Option (List Char) → Prop} {stops out rest : List Char}
    (hlook : ∀ name v, look name (some v) → '\x00' ∉ v)
    (h : Expands look stops string (.ok (out, rest))) (hstring : '\x00' ∉ string) :
    '\x00' ∉ out := by
  generalize hr : (.ok (out, rest) : Expansion) = r at h
  induction h generalizing out rest with
  | last => cases hr; exact List.not_mem_nil
  | stop => cases hr; exact List.not_mem_nil
  | plain _ _ _ ih =>
    rw [List.mem_cons, not_or] at hstring
    refine nul_prefixed ?_ hr.symm fun out h => ih hstring.2 h.symm
    rw [List.mem_singleton]
    exact hstring.1
  | lone _ _ ih =>
    rw [List.mem_cons, not_or] at hstring
    exact nul_prefixed (by decide) hr.symm fun out h => ih hstring.2 h.symm
  | dollar _ ih =>
    refine nul_prefixed (by decide) hr.symm fun out h => ih (fun hmem => hstring ?_) h.symm
    exact List.mem_cons_of_mem _ (List.mem_cons_of_mem _ (List.mem_cons_of_mem _ hmem))
  | simple _ hvalue _ ih =>
    refine nul_prefixed (hlook _ _ hvalue) hr.symm fun out h => ih (fun hmem => hstring ?_) h.symm
    exact List.mem_cons_of_mem _ (List.mem_cons_of_mem _ ((List.dropWhile_suffix _).subset hmem))
  | @bracketed _ cs name tail _ _ word arg after value text _ _ hname hop hword hvalue hsubst _
      _ ihword ih =>
    have hcs : '\x00' ∉ cs :=
      fun hmem => hstring (List.mem_cons_of_mem _ (List.mem_cons_of_mem _ hmem))
    have hword_nul : '\x00' ∉ word :=
      fun hmem => hcs (hname.rest_suffix.subset ((operatorOf_suffix hop).subset hmem))
    have harg := ihword hword_nul rfl
    have htext := substitute_nul harg (fun v hv => hlook name v (hv ▸ hvalue)) hsubst
    refine nul_prefixed htext hr.symm fun out h => ih (fun hmem => hword_nul ?_) h.symm
    exact hword.rest_suffix.subset (List.mem_cons_of_mem _ hmem)
  | _ => cases hr

theorem environGetn_nul {name v : List Char} (henv : ∀ e ∈ env, '\x00' ∉ e.toList)
    (h : some v = environGetn env name) : '\x00' ∉ v := by
  obtain ⟨i, hi, rfl⟩ := Option.map_eq_some_iff.mp h.symm
  obtain ⟨hlt, -, -⟩ := List.findIdx?_eq_some_iff_getElem.mp hi
  rw [List.getD_eq_getElem?_getD, List.getElem?_eq_getElem hlt, Option.getD_some]
  intro hmem
  exact henv _ (List.getElem_mem hlt)
    ((List.dropWhile_suffix _).subset ((List.drop_suffix _ _).subset hmem))

/-! ## `environ_expand` -/

/-- What `environ_expand` makes in memory is the expansion with the values that
`environ_getn` finds. -/
theorem environExpandIn_found (junk : Char) (henv : ∀ e ∈ env, '\x00' ∉ e.toList)
    (hstring : '\x00' ∉ string) :
    ∃ r : Except EnvironError (List Char),
      Expands (Found env) [] string (r.map fun out => (out, [])) ∧
      environExpandIn env junk string = r.mapError .raised := by
  have hahead : Ahead string 0 (string.length + 1) :=
    ⟨Nat.zero_le _, hstring, Nat.lt_succ_self _⟩
  have hat : ExpandBuffer.At ⟨string ++ ['\x00'], string.length, 0⟩ string 0 :=
    ⟨⟨[], rfl⟩, rfl, rfl⟩
  have hrun := environExpandUntilIn_simulates env junk (string.length + 1) List.not_mem_nil hat
    hahead
  obtain ⟨r, hr, heq⟩ := environExpandUntil_expands env (string.length + 1) [] [] string
    List.not_mem_nil hstring (Nat.lt_succ_self _)
  rw [List.nil_append, List.length_nil] at heq
  rw [heq] at hrun
  cases r with
  | error e =>
    refine ⟨.error e, hr, ?_⟩
    rw [environExpandIn, show environExpandUntilIn env junk _ [] _ = _ from hrun]
    rfl
  | ok p =>
    obtain ⟨out, rest⟩ := p
    cases hr.rest_nil rfl
    obtain ⟨b, hb, hat⟩ := hrun
    have hout := hr.out_nul (fun name v hv => environGetn_nul henv hv) hstring
    refine ⟨.ok out, hr, ?_⟩
    obtain ⟨spare, hstr⟩ := hat.str
    rw [environExpandIn, hb]
    show Except.ok (b.str.takeWhile _) = _
    rw [hstr, List.nil_append, List.append_nil, List.takeWhile_append_of_pos]
    · rw [List.takeWhile_cons_of_neg (by decide), List.append_nil]
      rfl
    · intro c hc
      rw [decide_eq_true_iff]
      rintro rfl
      exact hout hc

theorem mapError_raised_injective {r r' : Except EnvironError (List Char)}
    (h : r.mapError ExpandFault.raised = r'.mapError ExpandFault.raised) : r = r' := by
  cases r with
  | error e =>
    cases r' with
    | error e' => cases h; rfl
    | ok out => cases h
  | ok out =>
    cases r' with
    | error e' => cases h
    | ok out' => cases h; rfl

theorem map_rest_injective {r r' : Except EnvironError (List Char)}
    (h : (r.map fun out => (out, ([] : List Char))) = r'.map fun out => (out, [])) : r = r' := by
  cases r with
  | error e =>
    cases r' with
    | error e' => cases h; rfl
    | ok out => cases h
  | ok out =>
    cases r' with
    | error e' => cases h
    | ok out' => cases h; rfl

/-- `environ_expand` ends, and reads and moves nothing that is not within its string; and where
the map has the values that the code finds, it is the reference semantics. -/
theorem environExpandIn_mapped (env : List String) (junk : Char) (string : List Char)
    (henv : ∀ e ∈ env, '\x00' ∉ e.toList) (hstring : '\x00' ∉ string) :
    (environExpandIn env junk string ≠ .error .outside ∧
      environExpandIn env junk string ≠ .error .running) ∧
    (NamesMapped env string → ∀ r : Except EnvironError (List Char),
      environExpandIn env junk string = r.mapError .raised ↔ Expanded env string r) := by
  obtain ⟨r₀, hfound, heq⟩ := environExpandIn_found junk henv hstring
  rw [heq]
  refine ⟨?_, fun hnames r => ?_⟩
  · cases r₀ with
    | error e => exact ⟨nofun, nofun⟩
    | ok out => exact ⟨nofun, nofun⟩
  · obtain ⟨r₁, hboth⟩ := hnames
    have hsame := Expands.unique (fun _ _ _ h h' => h.trans h'.symm) hfound
      (hboth.mono fun _ _ h => h.2)
    have hmapped := hboth.mono fun _ _ h => h.1
    constructor
    · intro h
      cases mapError_raised_injective h
      unfold Expanded
      rw [hsame]
      exact hmapped
    · intro h
      have hunique := Expands.unique (fun _ _ _ h h' => h.trans h'.symm) hmapped h
      rw [map_rest_injective (hsame.trans hunique)]

/-- A reference with an operator and a word. -/
theorem environExpandIn_mapped_default :
    environExpandIn ["A=x"] '?' "$\x7bA:-y\x7d.".toList = (Except.ok "x.".toList).mapError .raised ↔
      Expanded ["A=x"] "$\x7bA:-y\x7d.".toList (.ok "x.".toList) := by
  have hname : ∀ look, Expands look nameStops "A:-y\x7d.".toList
      (.ok (['A'], [':', '-', 'y', '}', '.'])) := fun _ =>
    .plains ['A'] (by simp [nameStops]) (.stop (by decide) (by decide))
  have hword : ∀ look, Expands look ['}'] ['y', '}', '.'] (.ok (['y'], ['}', '.'])) := fun _ =>
    .plains ['y'] (by simp) (.stop (by decide) (by decide))
  have hrest : ∀ look, Expands look [] ['.'] (.ok (['.'], [])) := fun _ =>
    .plains ['.'] (by simp) .last
  have hvalue : Mapped ["A=x"] ['A'] (some ['x']) ∧ '=' ∉ ['A'] :=
    ⟨by unfold Mapped; decide, by decide⟩
  exact (environExpandIn_mapped ["A=x"] '?' "$\x7bA:-y\x7d.".toList (by decide) (by decide)).2
    (namesMapped_of_plain (.bracketed (by decide) (hname _) rfl (hword _) hvalue rfl (hrest _)))
    (.ok "x.".toList)

/-- The name `A=B` finds the entry of `A`. -/
theorem equalsName_not_expanded :
    ∃ (env : List String) (string : List Char), (∀ e ∈ env, '\x00' ∉ e.toList) ∧
      '\x00' ∉ string ∧ environExpandIn env '?' string = .ok "B=c".toList ∧
      Expanded env string (.error (.unknownParam "A=B".toList)) := by
  refine ⟨["A=B=c"], "$\x7bA=B\x7d".toList, by decide, by decide, by decide, ?_⟩
  have hname : Expands (Mapped ["A=B=c"]) nameStops "A=B\x7d".toList (.ok ("A=B".toList, ['}'])) :=
    .plains ['A', '=', 'B'] (by simp [nameStops]) (.stop (by decide) (by decide))
  have hvalue : Mapped ["A=B=c"] "A=B".toList none := by
    unfold Mapped
    decide
  exact .unset (by decide) hname rfl (.stop (by decide) (by decide)) hvalue rfl

end Startup
