import Startup.Event.RoundTrip
import Startup.Util.Conditions

/-!
# `initctl show-config` (`util/initctl.c`)

The condition is put together on the stack of `job_class_parse_events`, as
`event_operator_collapse` puts it together on its own, but the arguments are printed as they are,
up to the first empty one.

* `showCondition`: what is displayed, without result where the stack is empty for an operator.
* `showText`: the text, from the tree.
* `showText_eq`: it is that of `event_operator_collapse`, if no argument is quoted there or empty.
* `Agree`: both texts are read as one condition.
* `agree_iff`: they are only then.
-/

namespace Startup.Initctl

open EventOperator Lib.Postfix ParseJob

/-! ## The text -/

/-- What `job_class_parse_events` displays as the condition, if there are arrays. -/
def showCondition (variants : List Variant) : Option (Option (List Char)) :=
  (jobClassParseEvents .showConfig variants).map List.head?

/-- The condition, fully bracketed. -/
def showText : EventOperator → List Char
  | eventMatch name env _ _ => eventElement .showConfig ⟨name, env⟩
  | eventAnd _ l r => bracket true (showText l) (showText r)
  | eventOr _ l r => bracket false (showText l) (showText r)

/-- It is not called as an operator is, no argument is empty, and none has a space or tab in its
value. -/
structure Variant.Unquoted (variant : Variant) : Prop where
  not_operator : isOperator variant.token = false
  not_empty : ∀ arg ∈ variant.args, arg ≠ ""
  no_blank : ∀ arg ∈ variant.args, ∀ c ∈ arg.toList.dropWhile (· ≠ '='), c ≠ ' ' ∧ c ≠ '\t'

variable {tree : EventOperator} {variant : Variant} {T : Tokeniser} {file : List Char}
  {c : Cursor}

theorem parseStep_showConfig (stack : List (List Char)) (variant : Variant) :
    parseStep .showConfig stack variant =
      Lib.Postfix.step (eventElement .showConfig) bracket stack variant.toToken := by
  unfold parseStep
  rw [Variant.toToken]
  cases isOperator variant.token with
  | false => rfl
  | true =>
    cases stack with
    | nil => rfl
    | cons first stack =>
      cases stack with
      | nil => rfl
      | cons second stack => rfl

theorem jobClassParseEvents_showConfig (variants : List Variant) :
    jobClassParseEvents .showConfig variants =
      run (eventElement .showConfig) bracket [] (variants.map Variant.toToken) := by
  rw [run, List.foldlM_map, jobClassParseEvents]
  congr 1
  funext stack variant
  exact parseStep_showConfig stack variant

theorem fold_conditionTree (tree : EventOperator) :
    (conditionTree tree).fold (eventElement .showConfig) bracket = showText tree := by
  induction tree with
  | eventMatch name env value event => rfl
  | eventAnd value l r ihl ihr => rw [conditionTree, Tree.fold, ihl, ihr, showText]
  | eventOr value l r ihl ihr => rw [conditionTree, Tree.fold, ihl, ihr, showText]

/-- The text of the condition is displayed. -/
theorem showCondition_eq
    (hnames : ∀ variant ∈ eventArrays tree, isOperator variant.token = false) :
    showCondition (jobClassGetStartOn (some tree)) = some (some (showText tree)) := by
  rw [showCondition, jobClassGetStartOn, jobClassParseEvents_showConfig,
    conditionArrays_tokens hnames, run_tokens, fold_conditionTree]
  rfl

/-- An event that is called as an operator is leaves an operator without operands. -/
theorem showCondition_marker (hmem : variant ∈ eventArrays tree)
    (hmarker : isOperator variant.token = true) :
    showCondition (jobClassGetStartOn (some tree)) = none := by
  rw [showCondition, jobClassGetStartOn, jobClassParseEvents_showConfig,
    run_marker _ _ hmem hmarker, Option.map_none]

/-! ## The same text -/

theorem eventElement_showConfig {name : String} {env : List String} (h : ∀ arg ∈ env, arg ≠ "") :
    eventElement .showConfig ⟨name, env⟩ =
      name.toList ++ env.flatMap fun arg => ' ' :: arg.toList := by
  have hargs : env.takeWhile (· ≠ "") = env :=
    List.takeWhile_eq_self_iff.mpr fun arg harg => decide_eq_true (h arg harg)
  show name.toList ++ (env.takeWhile (· ≠ "")).flatMap _ = _
  rw [hargs]

/-- Nothing is quoted in the text of `event_operator_collapse`. -/
theorem Variant.Unquoted.text {name : String} {env : List String}
    (h : Variant.Unquoted ⟨name, env⟩) :
    eventElement .showConfig ⟨name, env⟩ = collapseEvent name env := by
  have hargs : ∀ arg ∈ env, (argWord arg).text = arg.toList := by
    intro arg harg
    rw [argWord_text, collapseElem, if_neg]
    rw [List.any_eq_true]
    intro hblank
    obtain ⟨c, hc, hblank⟩ := hblank
    obtain ⟨hspace, htab⟩ := h.no_blank arg harg c hc
    simp [hspace, htab] at hblank
  rw [eventElement_showConfig h.not_empty, collapseEvent_eq, nameWord_text, List.flatMap_map]
  congr 1
  exact List.flatMap_congr fun arg harg => by rw [hargs arg harg]

theorem showText_eq (h : ∀ variant ∈ eventArrays tree, variant.Unquoted) :
    showText tree = collapseText tree := by
  induction tree with
  | eventMatch name env value event => exact (h ⟨name, env⟩ (List.mem_singleton_self _)).text
  | eventAnd value l r ihl ihr =>
    rw [showText, ihl fun variant hvariant => h variant (List.mem_append_left _ hvariant),
      ihr fun variant hvariant => h variant (List.mem_append_right _ hvariant)]
    simp [bracket, collapseText]
  | eventOr value l r ihl ihr =>
    rw [showText, ihl fun variant hvariant => h variant (List.mem_append_left _ hvariant),
      ihr fun variant hvariant => h variant (List.mem_append_right _ hvariant)]
    simp [bracket, collapseText]

/-! ## The text that is read -/

/-- The words of an event. -/
theorem eventMatch_chars (name : String) (env : List String) (value : Bool)
    (event : Option EventId) :
    (treeWords (eventMatch name env value event)).flatMap PrintedWord.chars =
      name.toList ++ env.flatMap String.toList := by
  rw [treeWords, List.flatMap_cons, nameWord_chars, List.flatMap_map]
  congr 1
  exact List.flatMap_congr fun arg _ => argWord_chars arg

/-- What is not punctuation in the text is in the words. -/
theorem count_showText {ch : Char} (hch : ch ∉ ['(', ')', ' ', 'a', 'n', 'd', 'o', 'r'])
    (hargs : ∀ variant ∈ eventArrays tree, ∀ arg ∈ variant.args, arg ≠ "") :
    (showText tree).count ch = ((treeWords tree).flatMap PrintedWord.chars).count ch := by
  have hnode : ∀ (isAnd : Bool) (l r : List Char),
      (bracket isAnd l r).count ch = l.count ch + r.count ch := by
    intro isAnd l r
    simp only [List.mem_cons, not_or, List.not_mem_nil, not_false_eq_true] at hch
    cases isAnd <;> simp [bracket, hch, Ne.symm]
  induction tree with
  | eventMatch name env value event =>
    have hspace : ' ' ≠ ch := fun h => hch (by simp [← h])
    rw [showText, eventElement_showConfig (hargs ⟨name, env⟩ (List.mem_singleton_self _)),
      eventMatch_chars, List.count_append, List.count_append]
    clear hargs
    congr 1
    induction env with
    | nil => rfl
    | cons arg env ih =>
      rw [List.flatMap_cons, List.flatMap_cons, List.count_append, List.count_append, ih,
        List.count_cons_of_ne hspace]
  | eventAnd value l r ihl ihr =>
    rw [showText, hnode, treeWords, List.flatMap_append, List.count_append,
      ihl fun variant hvariant => hargs variant (List.mem_append_left _ hvariant),
      ihr fun variant hvariant => hargs variant (List.mem_append_right _ hvariant)]
  | eventOr value l r ihl ihr =>
    rw [showText, hnode, treeWords, List.flatMap_append, List.count_append,
      ihl fun variant hvariant => hargs variant (List.mem_append_left _ hvariant),
      ihr fun variant hvariant => hargs variant (List.mem_append_right _ hvariant)]

/-- The name and arguments of each event of a condition that can be printed. -/
theorem Printable.plainArgs (h : Printable tree) (hmem : variant ∈ eventArrays tree) :
    ∀ arg ∈ variant.args, PlainArg arg.toList := by
  induction tree with
  | eventMatch name env value event =>
    obtain rfl : variant = ⟨name, env⟩ := List.mem_singleton.mp hmem
    exact h.2
  | eventAnd value l r ihl ihr => exact (List.mem_append.mp hmem).elim (ihl h.1) (ihr h.2)
  | eventOr value l r ihl ihr => exact (List.mem_append.mp hmem).elim (ihl h.1) (ihr h.2)

theorem Printable.not_empty (h : Printable tree) :
    ∀ variant ∈ eventArrays tree, ∀ arg ∈ variant.args, arg ≠ "" := by
  intro variant hmem arg harg hempty
  have hplain := Printable.plainArgs h hmem arg harg
  rw [hempty] at hplain
  exact absurd hplain (by decide)

/-- The arguments are among the words. -/
theorem mem_chars {arg : String} {ch : Char} (hmem : variant ∈ eventArrays tree)
    (harg : arg ∈ variant.args) (hch : ch ∈ arg.toList) :
    ch ∈ (treeWords tree).flatMap PrintedWord.chars := by
  induction tree with
  | eventMatch name env value event =>
    obtain rfl : variant = ⟨name, env⟩ := List.mem_singleton.mp hmem
    rw [eventMatch_chars]
    exact List.mem_append_right _ (List.mem_flatMap.mpr ⟨arg, harg, hch⟩)
  | eventAnd value l r ihl ihr =>
    rw [treeWords, List.flatMap_append]
    exact List.mem_append.mpr ((List.mem_append.mp hmem).imp ihl ihr)
  | eventOr value l r ihl ihr =>
    rw [treeWords, List.flatMap_append]
    exact List.mem_append.mpr ((List.mem_append.mp hmem).imp ihl ihr)

/-- The words of a condition that can be printed have no double quote and no backslash. -/
theorem Printable.not_mem (h : Printable tree) :
    '"' ∉ (treeWords tree).flatMap PrintedWord.chars ∧
      '\\' ∉ (treeWords tree).flatMap PrintedWord.chars := by
  have hword : ∀ w ∈ treeWords tree, ∀ ch ∈ w.chars, ch ≠ '"' ∧ ch ≠ '\\' := by
    intro w hw ch hch
    have hplain := ((printable_iff tree).mp h w hw).1
    rcases List.mem_append.mp hch with hraw | hquoted
    · have hch := hplain.1 ch hraw
      constructor
      · intro heq
        rw [heq] at hch
        cases hch
      · intro heq
        rw [heq] at hch
        cases hch
    · exact hplain.2 ch hquoted
  constructor
  · intro hmem
    obtain ⟨w, hw, hch⟩ := List.mem_flatMap.mp hmem
    exact (hword w hw _ hch).1 rfl
  · intro hmem
    obtain ⟨w, hw, hch⟩ := List.mem_flatMap.mp hmem
    exact (hword w hw _ hch).2 rfl

/-- The text of a condition whose words have no line end and no NUL. -/
theorem clean_showText (hargs : ∀ variant ∈ eventArrays tree, ∀ arg ∈ variant.args, arg ≠ "")
    (h : Clean ((treeWords tree).flatMap PrintedWord.chars)) : Clean (showText tree) := by
  have hmem : ∀ ch ∉ ['(', ')', ' ', 'a', 'n', 'd', 'o', 'r'], ch ∈ showText tree →
      ch ∈ (treeWords tree).flatMap PrintedWord.chars := by
    intro ch hch hshow
    rw [← List.count_pos_iff, ← count_showText hch hargs]
    exact List.count_pos_iff.mpr hshow
  intro ch hch
  constructor
  · intro heq
    rw [heq] at hch
    exact (h _ (hmem '\n' (by decide) hch)).1 rfl
  · intro heq
    rw [heq] at hch
    exact (h _ (hmem '\x00' (by decide) hch)).2 rfl

/-- Where the text is read as the condition, no character of a word needs quotes, since it has
none. -/
theorem plain_of_parseOnSimple (hT : T.Quoting) (hclean : Clean (showText tree))
    (h : Printable tree) (hparse : parseOnSimple T (showText tree) = .ok tree) :
    ∀ ch ∈ (treeWords tree).flatMap PrintedWord.chars, isPlain ch = true := by
  obtain ⟨ts, hlexes, hderives⟩ := parseOn_lexes hT hclean hparse
  have hwords := hderives.words.1
  rw [List.drop_zero] at hlexes
  have hdrop := (showText tree).dropWhile_sublist isWs
  have hargs := Printable.not_empty h
  obtain ⟨hquote, hslash⟩ := Printable.not_mem h
  rw [← List.count_eq_zero, ← count_showText (by decide) hargs, List.count_eq_zero] at hquote hslash
  -- no single quote is read as one
  have hsingle : (ts.flatMap OnToken.chars).count '\'' =
      ((showText tree).dropWhile isWs).count '\'' := by
    have hle := hlexes.words_sublist.1.count_le '\''
    have hle' := hdrop.count_le '\''
    rw [hwords, ← count_showText (by decide) hargs] at hle ⊢
    omega
  have hcount := (hlexes.quotedChars (fun hmem => hslash (hdrop.mem hmem)) hsingle).2
  have hnone := quotedChars_append hquote false []
  rw [List.append_nil, quotedChars, if_neg Bool.false_ne_true, List.append_nil] at hnone
  rw [quotedChars_dropWhile, hnone, hwords, List.countP_nil, Nat.le_zero,
    List.countP_eq_zero] at hcount
  intro ch hch
  simpa using hcount ch hch

/-! ## Both texts -/

/-- Both texts of the condition are read, as one condition. -/
def Agree (T : Tokeniser) (tree : EventOperator) : Prop :=
  ∃ shown collapsed read, showCondition (jobClassGetStartOn (some tree)) = some (some shown) ∧
    eventOperatorCollapse tree = some collapsed ∧
    parseOnSimple T shown = .ok read ∧ parseOnSimple T collapsed = .ok read

/-- Where nothing would be quoted, both texts are one. -/
theorem agree_of_unquoted (h : ∀ variant ∈ eventArrays tree, variant.Unquoted) :
    Agree T tree ↔
      ∃ text read, eventOperatorCollapse tree = some text ∧ parseOnSimple T text = .ok read := by
  constructor
  · intro hagree
    obtain ⟨shown, collapsed, read, -, hcollapsed, -, hread⟩ := hagree
    exact ⟨collapsed, read, hcollapsed, hread⟩
  · intro hcollapse
    obtain ⟨text, read, htext, hread⟩ := hcollapse
    have hshow := showCondition_eq fun variant hvariant => (h variant hvariant).not_operator
    rw [showText_eq h] at hshow
    rw [eventOperatorCollapse_eq, Option.some.injEq] at htext
    rw [← htext] at hread
    exact ⟨_, _, read, hshow, eventOperatorCollapse_eq tree, hread, hread⟩

/-- The two printers agree on a condition that `parse_on` has built and that is read back from
the text of `event_operator_collapse` exactly if nothing in it would be quoted; and where nothing
would be quoted, they agree on any condition whose text is read back at all. -/
theorem agree_iff (hT : T.Quoting) (hfile : T.Lawful file) (hnul : StepsOverNul T file)
    (hclean : CleanTokens T file) (h : (parseOn T file c).1 = .ok tree) :
    (RoundTrips T tree →
      (Agree T tree ↔ ∀ variant ∈ eventArrays tree, variant.Unquoted)) ∧
    ((∀ variant ∈ eventArrays tree, variant.Unquoted) →
      (Agree T tree ↔
        ∃ text read, eventOperatorCollapse tree = some text ∧ parseOnSimple T text = .ok read)) := by
  obtain ⟨⟨ts, hlexed, hderives⟩, -⟩ := parseOn_ok hfile hnul h
  have hwords := hlexed.clean hclean
  rw [hderives.words.1] at hwords
  constructor
  · intro htrip
    have hprint := htrip.printable hT (clean_collapseText hwords)
    have hargs := Printable.not_empty hprint
    obtain ⟨text, htext, hread⟩ := htrip
    constructor
    · intro hagree
      obtain ⟨shown, collapsed, read, hshow, hcollapsed, hshown, hread'⟩ := hagree
      have hnames : ∀ variant ∈ eventArrays tree, isOperator variant.token = false := by
        intro variant hmem
        cases hmarker : isOperator variant.token with
        | false => rfl
        | true =>
          rw [showCondition_marker hmem hmarker] at hshow
          cases hshow
      rw [showCondition_eq hnames, Option.some.injEq, Option.some.injEq] at hshow
      rw [htext, Option.some.injEq] at hcollapsed
      rw [← hcollapsed, hread, Except.ok.injEq] at hread'
      rw [← hshow, ← hread'] at hshown
      have hplain := plain_of_parseOnSimple hT (clean_showText hargs hwords) hprint hshown
      intro variant hmem
      refine ⟨hnames variant hmem, hargs variant hmem, ?_⟩
      intro arg harg ch hch
      have hch := hplain ch (mem_chars hmem harg ((List.dropWhile_sublist _).mem hch))
      constructor
      · intro heq
        rw [heq] at hch
        cases hch
      · intro heq
        rw [heq] at hch
        cases hch
    · intro hunquoted
      exact (agree_of_unquoted hunquoted).mpr ⟨text, tree, htext, hread⟩
  · exact agree_of_unquoted

/-- `a 'X=1 Y=2' or b` -/
def spacedArgument : EventOperator :=
  .eventOr false (.eventMatch "a" ["X=1 Y=2"] false none) (.eventMatch "b" [] false none)

theorem agree_iff_spacedArgument :
    (RoundTrips quotingTokeniser spacedArgument →
      (Agree quotingTokeniser spacedArgument ↔
        ∀ variant ∈ eventArrays spacedArgument, variant.Unquoted)) ∧
    ((∀ variant ∈ eventArrays spacedArgument, variant.Unquoted) →
      (Agree quotingTokeniser spacedArgument ↔
        ∃ text read, eventOperatorCollapse spacedArgument = some text ∧
          parseOnSimple quotingTokeniser text = .ok read)) :=
  have hclean : Clean "a 'X=1 Y=2' or b".toList := by decide
  have hparse : (parseOn quotingTokeniser "a 'X=1 Y=2' or b".toList ⟨0, 1⟩).1 =
      .ok spacedArgument := by decide +kernel
  agree_iff quotingTokeniser_quoting (quotingTokeniser_quoting.lawful hclean)
    (hclean.stepsOverNul _) (quotingTokeniser_quoting.cleanTokens hclean) hparse

/-- `show-config` prints `(a X=1 Y=2 or b)`, where the event has two arguments. -/
theorem spacedArgument_not_agree :
    quotingTokeniser.Quoting ∧
      (parseOn quotingTokeniser "a 'X=1 Y=2' or b".toList ⟨0, 1⟩).1 = .ok spacedArgument ∧
      RoundTrips quotingTokeniser spacedArgument ∧
      ¬ Agree quotingTokeniser spacedArgument := by
  have hshow : showCondition (jobClassGetStartOn (some spacedArgument)) =
      some (some "(a X=1 Y=2 or b)".toList) := by decide +kernel
  have hcollapse : eventOperatorCollapse spacedArgument =
      some "(a X=\"1 Y=2\" or b)".toList := by decide +kernel
  have hshown : parseOnSimple quotingTokeniser "(a X=1 Y=2 or b)".toList =
      .ok (.eventOr false (.eventMatch "a" ["X=1", "Y=2"] false none)
        (.eventMatch "b" [] false none)) := by decide +kernel
  have hcollapsed : parseOnSimple quotingTokeniser "(a X=\"1 Y=2\" or b)".toList =
      .ok spacedArgument := by decide +kernel
  refine ⟨quotingTokeniser_quoting, by decide +kernel, ⟨_, hcollapse, hcollapsed⟩, ?_⟩
  intro hagree
  obtain ⟨shown, collapsed, read, hshow', hcollapse', hread, hread'⟩ := hagree
  rw [hshow, Option.some.injEq, Option.some.injEq] at hshow'
  rw [hcollapse, Option.some.injEq] at hcollapse'
  rw [← hshow', hshown, Except.ok.injEq] at hread
  rw [← hcollapse', hcollapsed, Except.ok.injEq, ← hread] at hread'
  exact absurd hread' (by decide)

end Startup.Initctl
