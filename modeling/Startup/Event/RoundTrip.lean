import Startup.Event.Collapse
import Startup.Event.Quoting

/-!
# Reading a collapsed condition (`init/event_operator.c`, `init/parse_job.c`)

`event_operator_collapse` quotes the value of an argument with a space or tab in it, and nothing
else.  What it prints is read back by `parse_on_simple`.

* `Printable`: the names and arguments that stand for themselves in a text;
* `lexes_collapseText`: the tokens of a printed condition;
* `quotedChars`: the characters of a text within double quotes;
* `roundTrips_iff`: a condition is read back exactly if it is printable.
-/

namespace Startup.ParseJob

open EventOperator

/-! ## Words -/

/-- A word that stands for itself: it is not empty, has no quote, backslash or character that ends
tokens, and is neither `and` nor `or`. -/
def PlainWord (word : List Char) : Prop :=
  word ≠ [] ∧ (∀ c ∈ word, isPlain c = true) ∧ onOperator (String.ofList word) = none

/-- An argument is a plain word, or has a space or tab in its value, no double quote and no
backslash in it, and plain characters before. -/
def PlainArg (arg : List Char) : Prop :=
  if (arg.dropWhile (· ≠ '=')).any fun c => c = ' ' ∨ c = '\t' then
    (∀ c ∈ arg.takeWhile (· ≠ '='), isPlain c = true) ∧
      ∀ c ∈ arg.dropWhile (· ≠ '='), c ≠ '"' ∧ c ≠ '\\'
  else PlainWord arg

instance (word : List Char) : Decidable (PlainWord word) :=
  decidable_of_iff (word ≠ [] ∧ word.all isPlain = true ∧ onOperator (String.ofList word) = none)
    (by rw [PlainWord, List.all_eq_true])

instance (arg : List Char) : Decidable (PlainArg arg) :=
  decidable_of_iff (if (arg.dropWhile (· ≠ '=')).any fun c => c = ' ' ∨ c = '\t' then
      (arg.takeWhile (· ≠ '=')).all isPlain = true ∧
        (arg.dropWhile (· ≠ '=')).all (fun c => c ≠ '"' ∧ c ≠ '\\') = true
    else PlainWord arg) (by simp [PlainArg])

/-- The names and arguments of a condition are plain. -/
def Printable : EventOperator → Prop
  | eventMatch name env _ _ => PlainWord name.toList ∧ ∀ arg ∈ env, PlainArg arg.toList
  | eventAnd _ l r => Printable l ∧ Printable r
  | eventOr _ l r => Printable l ∧ Printable r

instance decidablePrintable : (tree : EventOperator) → Decidable (Printable tree)
  | eventMatch .. => inferInstanceAs (Decidable (_ ∧ _))
  | eventAnd _ l r => @instDecidableAnd _ _ (decidablePrintable l) (decidablePrintable r)
  | eventOr _ l r => @instDecidableAnd _ _ (decidablePrintable l) (decidablePrintable r)

/-- An event name or an argument in the text of a condition: what comes first, and what is in
quotes behind it. -/
structure PrintedWord where
  raw : List Char
  quoted : Option (List Char)

namespace PrintedWord

/-- As it is printed. -/
def text (w : PrintedWord) : List Char :=
  w.raw ++ match w.quoted with
    | none => []
    | some v => '"' :: (v ++ ['"'])

/-- As it is in the tree. -/
def chars (w : PrintedWord) : List Char := w.raw ++ w.quoted.getD []

/-- Its characters are read as they are. -/
def Plain (w : PrintedWord) : Prop :=
  (∀ c ∈ w.raw, isPlain c = true) ∧ ∀ c ∈ w.quoted.getD [], c ≠ '"' ∧ c ≠ '\\'

/-- It is read as a name or argument, with the characters that it has. -/
def Legible (w : PrintedWord) : Prop :=
  w.Plain ∧ w.text ≠ [] ∧ onOperator (String.ofList w.text) = none

/-- The tokens that are read for it. -/
def tokens (w : PrintedWord) : List OnToken :=
  if w.text = [] then [] else [textToken w.text w.chars]

end PrintedWord

/-- A name, which is not quoted. -/
def nameWord (name : String) : PrintedWord := ⟨name.toList, none⟩

/-- An argument, whose value is quoted where it has a space or tab. -/
def argWord (arg : String) : PrintedWord :=
  let p := arg.toList.dropWhile (· ≠ '=')
  if p.any fun c => c = ' ' ∨ c = '\t' then
    ⟨arg.toList.takeWhile (· ≠ '=') ++ ['='], some p.tail⟩
  else ⟨arg.toList, none⟩

/-- The names and arguments of a condition, from left to right. -/
def treeWords : EventOperator → List PrintedWord
  | eventMatch name env _ _ => nameWord name :: env.map argWord
  | eventAnd _ l r => treeWords l ++ treeWords r
  | eventOr _ l r => treeWords l ++ treeWords r

/-- `parse_on_simple`. -/
def parseOnSimple (T : Tokeniser) (string : List Char) : Except OnFault EventOperator :=
  (parseOn T string ⟨0, 0⟩).1

/-- The text of the condition is read, as this condition. -/
def RoundTrips (T : Tokeniser) (tree : EventOperator) : Prop :=
  ∃ text, eventOperatorCollapse tree = some text ∧ parseOnSimple T text = .ok tree

variable {T : Tokeniser} {file s raw word rest k : List Char} {c : Cursor}
  {ts : List OnToken} {tree l r : EventOperator} {w : PrintedWord} {q : Option Char}
  {depth : Nat} {sort : OnSort}

example : Printable (.eventAnd false (.eventMatch "a" ["X=it's (b)"] false none)
    (.eventMatch "b-c" ["D"] false none)) := by decide

/-! ## The text of a word -/

theorem argWord_text (arg : String) : (argWord arg).text = collapseElem arg.toList := by
  unfold argWord collapseElem
  dsimp only
  split <;> simp [PrintedWord.text]

/-- From the `=` on. -/
theorem dropWhile_eq_cons {s : List Char} (h : s.dropWhile (· ≠ '=') ≠ []) :
    s.dropWhile (· ≠ '=') = '=' :: (s.dropWhile (· ≠ '=')).tail := by
  have hhead := List.head_dropWhile_not (fun c : Char => decide (c ≠ '=')) h
  obtain ⟨c, t, ht⟩ := List.exists_cons_of_ne_nil h
  simp only [ht, List.head_cons] at hhead
  rw [ht]
  simpa using hhead

theorem argWord_chars (arg : String) : (argWord arg).chars = arg.toList := by
  unfold argWord
  dsimp only
  split
  · rename_i hany
    have hne : arg.toList.dropWhile (· ≠ '=') ≠ [] := by
      intro hnil
      rw [hnil] at hany
      cases hany
    show (arg.toList.takeWhile (· ≠ '=') ++ ['=']) ++ (arg.toList.dropWhile (· ≠ '=')).tail = _
    rw [List.append_assoc, List.singleton_append, ← dropWhile_eq_cons hne,
      List.takeWhile_append_dropWhile]
  · exact List.append_nil _

theorem nameWord_chars (name : String) : (nameWord name).chars = name.toList :=
  List.append_nil _

theorem nameWord_text (name : String) : (nameWord name).text = name.toList :=
  List.append_nil _

/-- The arguments of an event, each behind a space. -/
theorem collapseEvent_eq (name : String) (env : List String) :
    collapseEvent name env =
      (nameWord name).text ++ (env.map argWord).flatMap fun w => ' ' :: w.text := by
  rw [collapseEvent, nameWord_text]
  congr 1
  cases env with
  | nil => rfl
  | cons arg env =>
    rw [if_neg (List.cons_ne_nil _ _), stateCollapseEnv]
    induction env generalizing arg with
    | nil => simp [argWord_text]
    | cons arg' env ih =>
      have ih := ih arg'
      simp only [List.map_cons, List.flatMap_cons, argWord_text] at ih ⊢
      rw [List.intercalate_cons_cons, ← ih]
      simp

theorem onOperator_quote (h : '"' ∈ s) : onOperator (String.ofList s) = none := by
  have hne : ∀ word : String, '"' ∉ word.toList → String.ofList s ≠ word := by
    intro word hword heq
    rw [← heq, String.toList_ofList] at hword
    exact hword h
  rw [onOperator, if_neg (hne "and" (by decide)), if_neg (hne "or" (by decide))]

theorem nameWord_legible (name : String) : (nameWord name).Legible ↔ PlainWord name.toList := by
  rw [PrintedWord.Legible, nameWord_text, PlainWord, and_left_comm]
  simp [PrintedWord.Plain, nameWord]

theorem argWord_legible (arg : String) : (argWord arg).Legible ↔ PlainArg arg.toList := by
  unfold PlainArg
  by_cases hany : (arg.toList.dropWhile (· ≠ '=')).any fun c => c = ' ' ∨ c = '\t'
  · have hne : arg.toList.dropWhile (· ≠ '=') ≠ [] := by
      intro hnil
      rw [hnil] at hany
      cases hany
    have harg : argWord arg = ⟨arg.toList.takeWhile (· ≠ '=') ++ ['='],
        some (arg.toList.dropWhile (· ≠ '=')).tail⟩ := if_pos hany
    have hquote : '"' ∈ (argWord arg).text := by simp [harg, PrintedWord.text]
    have hplain : isPlain '=' = true := by decide
    rw [if_pos hany, PrintedWord.Legible, onOperator_quote hquote,
      and_iff_left ⟨List.ne_nil_of_mem hquote, rfl⟩, harg, PrintedWord.Plain,
      dropWhile_eq_cons hne]
    simp [or_imp, forall_and, hplain]
  · have harg : argWord arg = nameWord arg := if_neg hany
    rw [if_neg hany, harg, nameWord_legible]

/-- The words of a condition are legible if they are plain. -/
theorem printable_iff (tree : EventOperator) :
    Printable tree ↔ ∀ w ∈ treeWords tree, w.Legible := by
  induction tree with
  | eventMatch name env value event =>
    simp [Printable, treeWords, nameWord_legible, argWord_legible]
  | eventAnd value l r ihl ihr => rw [Printable, treeWords, List.forall_mem_append, ihl, ihr]
  | eventOr value l r ihl ihr => rw [Printable, treeWords, List.forall_mem_append, ihl, ihr]

/-! ## Printed words are read -/

/-- Characters that stand for themselves. -/
theorem Dequotes.append_plain (h : Dequotes none rest word) (hs : ∀ c ∈ s, isPlain c = true) :
    Dequotes none (s ++ rest) (s ++ word) := by
  induction s with
  | nil => exact h
  | cons c s ih =>
    rw [List.forall_mem_cons] at hs
    exact .plain hs.1 (ih hs.2)

theorem Dequotes.append_quoted (h : Dequotes (some '"') rest word)
    (hs : ∀ c ∈ s, c ≠ '"' ∧ c ≠ '\\') : Dequotes (some '"') (s ++ rest) (s ++ word) := by
  induction s with
  | nil => exact h
  | cons c s ih =>
    rw [List.forall_mem_cons] at hs
    exact .quoted hs.1.1 hs.1.2 (ih hs.2)

theorem PrintedWord.Plain.dequotes (h : w.Plain) : Dequotes none w.text w.chars := by
  obtain ⟨raw, quoted⟩ := w
  apply Dequotes.append_plain _ h.1
  cases quoted with
  | none => exact .nil
  | some v =>
    have hclose : Dequotes (some '"') ['"'] [] := .closeQuote (by decide) .nil
    have hquoted := hclose.append_quoted h.2
    rw [List.append_nil] at hquoted
    exact .openQuote rfl hquoted

theorem dropWhile_cons_of_not {ch : Char} (h : isWs ch = false) :
    (ch :: s).dropWhile isWs = ch :: s :=
  List.dropWhile_cons_of_neg (by simp [h])

/-- A word is read before what stands behind it. -/
theorem PrintedWord.Plain.lexes (h : w.Plain) (hk : EndsToken k)
    (hrest : Lexes (k.dropWhile isWs) ts) :
    Lexes ((w.text ++ k).dropWhile isWs) (w.tokens ++ ts) := by
  unfold PrintedWord.tokens
  by_cases hempty : w.text = []
  · rwa [if_pos hempty, hempty]
  · obtain ⟨c, t, ht, hdelim⟩ := h.dequotes.head hempty
    have hws : isWs c = false := by
      simp only [isDelim, Bool.or_eq_false_iff] at hdelim
      exact hdelim.1.1.1.1
    have hdrop : (w.text ++ k).dropWhile isWs = w.text ++ k := by
      rw [ht]
      exact dropWhile_cons_of_not hws
    rw [if_neg hempty, hdrop]
    exact .token (.text rfl hempty h.dequotes hk) hrest

/-- `and` or `or`, as `event_operator_collapse` prints it. -/
def OnOperator.text : OnOperator → List Char
  | or => "or".toList
  | and => "and".toList

theorem collapseText_node (type : OnOperator) (l r : EventOperator) :
    collapseText (type.node l r) =
      '(' :: (collapseText l ++ ' ' :: (type.text ++ ' ' :: (collapseText r ++ [')']))) := by
  cases type <;> simp [OnOperator.node, OnOperator.text, collapseText]

/-- An operator is read between spaces. -/
theorem OnOperator.lexes (type : OnOperator) (hrest : Lexes (s.dropWhile isWs) ts) :
    Lexes ((' ' :: (type.text ++ ' ' :: s)).dropWhile isWs) (.operator type :: ts) := by
  have hspace : EndsToken (' ' :: s) := by
    intro c hc
    cases hc
    rfl
  have hplain : Dequotes none type.text type.text := by
    have hchars : ∀ c ∈ type.text, isPlain c = true :=
      List.all_eq_true.mp (by cases type <;> decide)
    simpa using Dequotes.nil.append_plain hchars
  have htok : FirstToken (type.text ++ ' ' :: s) (textToken type.text type.text) (' ' :: s) :=
    .text rfl (by cases type <;> decide) hplain hspace
  have htext : textToken type.text type.text = .operator type := by cases type <;> decide
  have hdrop : (' ' :: (type.text ++ ' ' :: s)).dropWhile isWs = type.text ++ ' ' :: s := by
    cases type <;> rfl
  rw [htext] at htok
  rw [hdrop]
  exact .token htok hrest

/-- The tokens of a printed condition. -/
def treeTokens : EventOperator → List OnToken
  | eventMatch name env _ _ => (nameWord name).tokens ++ (env.map argWord).flatMap (·.tokens)
  | eventAnd _ l r =>
    .openParen :: (treeTokens l ++ .operator .and :: (treeTokens r ++ [.closeParen]))
  | eventOr _ l r =>
    .openParen :: (treeTokens l ++ .operator .or :: (treeTokens r ++ [.closeParen]))

theorem treeTokens_node (type : OnOperator) (l r : EventOperator) :
    treeTokens (type.node l r) =
      .openParen :: (treeTokens l ++ .operator type :: (treeTokens r ++ [.closeParen])) := by
  cases type <;> rfl

theorem treeWords_node (type : OnOperator) (l r : EventOperator) :
    treeWords (type.node l r) = treeWords l ++ treeWords r := by
  cases type <;> rfl

theorem lexes_args {ws : List PrintedWord} (h : ∀ w ∈ ws, w.Plain) (hk : EndsToken k)
    (hrest : Lexes (k.dropWhile isWs) ts) :
    EndsToken ((ws.flatMap fun w => ' ' :: w.text) ++ k) ∧
      Lexes (((ws.flatMap fun w => ' ' :: w.text) ++ k).dropWhile isWs)
        (ws.flatMap (·.tokens) ++ ts) := by
  induction ws with
  | nil => exact ⟨hk, hrest⟩
  | cons w ws ih =>
    rw [List.forall_mem_cons] at h
    obtain ⟨hends, hlexes⟩ := ih h.2
    simp only [List.flatMap_cons, List.append_assoc, List.cons_append]
    constructor
    · intro c hc
      cases hc
      rfl
    · exact h.1.lexes hends hlexes

/-- A condition between parentheses or at the end is read. -/
theorem lexes_collapseText (h : ∀ w ∈ treeWords tree, w.Plain) (hk : EndsToken k)
    (hrest : Lexes (k.dropWhile isWs) ts) :
    Lexes ((collapseText tree ++ k).dropWhile isWs) (treeTokens tree ++ ts) := by
  have hnode : ∀ (type : OnOperator) (l r : EventOperator),
      (∀ k ts, EndsToken k → Lexes (k.dropWhile isWs) ts →
        Lexes ((collapseText l ++ k).dropWhile isWs) (treeTokens l ++ ts)) →
      (∀ k ts, EndsToken k → Lexes (k.dropWhile isWs) ts →
        Lexes ((collapseText r ++ k).dropWhile isWs) (treeTokens r ++ ts)) →
      ∀ k ts, EndsToken k → Lexes (k.dropWhile isWs) ts →
        Lexes ((collapseText (type.node l r) ++ k).dropWhile isWs)
          (treeTokens (type.node l r) ++ ts) := by
    intro type l r ihl ihr k ts hk hrest
    have hclose : Lexes ((')' :: k).dropWhile isWs) (.closeParen :: ts) :=
      .token .closeParen hrest
    have hright := ihr (')' :: k) _ (by intro c hc; cases hc; rfl) hclose
    have hleft := ihl _ _ (by intro c hc; cases hc; rfl) (type.lexes hright)
    have hopen := Lexes.token .openParen hleft
    rw [collapseText_node, treeTokens_node]
    simpa [dropWhile_cons_of_not (show isWs '(' = false from rfl)] using hopen
  induction tree generalizing k ts with
  | eventMatch name env value event =>
    rw [treeWords, List.forall_mem_cons] at h
    obtain ⟨hends, hlexes⟩ := lexes_args h.2 hk hrest
    rw [collapseText, collapseEvent_eq, treeTokens, List.append_assoc, List.append_assoc]
    exact h.1.lexes hends hlexes
  | eventAnd value l r ihl ihr =>
    rw [treeWords, List.forall_mem_append] at h
    exact hnode .and l r (fun _ _ hk hrest => ihl h.1 hk hrest)
      (fun _ _ hk hrest => ihr h.2 hk hrest) k ts hk hrest
  | eventOr value l r ihl ihr =>
    rw [treeWords, List.forall_mem_append] at h
    exact hnode .or l r (fun _ _ hk hrest => ihl h.1 hk hrest)
      (fun _ _ hk hrest => ihr h.2 hk hrest) k ts hk hrest

/-! ## Legible words -/

theorem PrintedWord.Legible.tokens_eq (h : w.Legible) :
    w.tokens = [.word (String.ofList w.chars)] := by
  rw [PrintedWord.tokens, if_neg h.2.1, textToken, h.2.2]

theorem treeTokens_args {env : List String} (h : ∀ w ∈ env.map argWord, w.Legible) :
    (env.map argWord).flatMap (·.tokens) = env.map .word := by
  induction env with
  | nil => rfl
  | cons arg env ih =>
    rw [List.map_cons, List.forall_mem_cons] at h
    rw [List.map_cons, List.flatMap_cons, ih h.2, h.1.tokens_eq, argWord_chars,
      String.ofList_toList]
    rfl

/-- The tokens of a legible condition derive it. -/
theorem Derives.treeTokens (h : Derives sort ts tree) (hprint : ∀ w ∈ treeWords tree, w.Legible) :
    Derives .term (treeTokens tree) tree := by
  induction h with
  | event name args hargs =>
    rw [treeWords, List.forall_mem_cons] at hprint
    rw [ParseJob.treeTokens, treeTokens_args hprint.2, hprint.1.tokens_eq, nameWord_chars,
      String.ofList_toList]
    exact .event name args hargs
  | group _ ih => exact ih hprint
  | single _ ih => exact ih hprint
  | operator type _ _ ihl ihr =>
    rw [treeWords_node, List.forall_mem_append] at hprint
    rw [treeTokens_node]
    have hgroup := Derives.group (.operator type (.single (ihl hprint.1)) (ihr hprint.2))
    simpa using hgroup

/-- A word that is printed with quotes has its `=` before them. -/
theorem quoted_ne_nil (hw : w ∈ treeWords tree) (hquoted : w.quoted ≠ none) : w.raw ≠ [] := by
  have harg : ∀ arg, (argWord arg).quoted ≠ none → (argWord arg).raw ≠ [] := by
    intro arg
    unfold argWord
    dsimp only
    split <;> simp
  induction tree with
  | eventMatch name env value event =>
    rw [treeWords, List.mem_cons, List.mem_map] at hw
    rcases hw with rfl | ⟨arg, -, rfl⟩
    · exact absurd rfl hquoted
    · exact harg arg hquoted
  | eventAnd value l r ihl ihr =>
    rw [treeWords, List.mem_append] at hw
    exact hw.elim ihl ihr
  | eventOr value l r ihl ihr =>
    rw [treeWords, List.mem_append] at hw
    exact hw.elim ihl ihr

theorem PrintedWord.Legible.chars_ne_nil (h : w.Legible) (hquoted : w.quoted ≠ none → w.raw ≠ []) :
    w.chars ≠ [] := by
  have htext := h.2.1
  intro hnil
  obtain ⟨hraw, -⟩ := List.append_eq_nil_iff.mp hnil
  obtain ⟨raw, quoted⟩ := w
  cases quoted with
  | none => exact htext (by rw [PrintedWord.text, hraw]; rfl)
  | some v => exact hquoted (Option.some_ne_none _) hraw

/-- The arguments and names that tokens carry. -/
def OnToken.chars : OnToken → List Char
  | .word arg => arg.toList
  | _ => []

def OnToken.isWord : OnToken → Bool
  | .word _ => true
  | _ => false

/-- The words of a condition are those of its tokens. -/
theorem Derives.words (h : Derives sort ts tree) :
    ts.flatMap OnToken.chars = (treeWords tree).flatMap PrintedWord.chars ∧
      ts.countP OnToken.isWord = (treeWords tree).length := by
  induction h with
  | event name args hargs =>
    clear hargs
    rw [treeWords, List.flatMap_cons, List.flatMap_cons, nameWord_chars]
    constructor
    · show name.toList ++ _ = _
      congr 1
      induction args with
      | nil => rfl
      | cons arg args ih =>
        rw [List.map_cons, List.map_cons, List.flatMap_cons, List.flatMap_cons, ih, argWord_chars]
        rfl
    · rw [List.countP_cons_of_pos rfl, List.length_cons, List.length_map]
      congr 1
      induction args with
      | nil => rfl
      | cons arg args ih => rw [List.map_cons, List.countP_cons_of_pos rfl, ih, List.length_cons]
  | group _ ih => simpa [OnToken.chars, OnToken.isWord] using ih
  | single _ ih => exact ih
  | operator type _ _ ihl ihr =>
    rw [treeWords_node]
    simp [OnToken.chars, OnToken.isWord, ihl, ihr]

theorem mem_treeTokens {arg : String} (h : .word arg ∈ treeTokens tree) :
    ∃ w ∈ treeWords tree, .word arg ∈ w.tokens := by
  induction tree with
  | eventMatch name env value event =>
    rw [treeTokens, List.mem_append, List.mem_flatMap] at h
    rw [treeWords]
    rcases h with h | ⟨w, hw, h⟩
    · exact ⟨_, List.mem_cons_self, h⟩
    · exact ⟨w, List.mem_cons_of_mem _ hw, h⟩
  | eventAnd value l r ihl ihr =>
    simp only [treeTokens, List.mem_cons, List.mem_append, reduceCtorEq, List.not_mem_nil,
      or_false, false_or] at h
    simp only [treeWords, List.mem_append]
    rcases h with h | h
    · obtain ⟨w, hw, h⟩ := ihl h
      exact ⟨w, .inl hw, h⟩
    · obtain ⟨w, hw, h⟩ := ihr h
      exact ⟨w, .inr hw, h⟩
  | eventOr value l r ihl ihr =>
    simp only [treeTokens, List.mem_cons, List.mem_append, reduceCtorEq, List.not_mem_nil,
      or_false, false_or] at h
    simp only [treeWords, List.mem_append]
    rcases h with h | h
    · obtain ⟨w, hw, h⟩ := ihl h
      exact ⟨w, .inl hw, h⟩
    · obtain ⟨w, hw, h⟩ := ihr h
      exact ⟨w, .inr hw, h⟩

theorem not_mem_treeTokens (h : ∀ w ∈ treeWords tree, w.Legible) :
    .word "" ∉ treeTokens tree := by
  intro hmem
  obtain ⟨w, hw, hmem⟩ := mem_treeTokens hmem
  have hne := (h w hw).chars_ne_nil (quoted_ne_nil hw)
  rw [(h w hw).tokens_eq, List.mem_singleton, OnToken.word.injEq] at hmem
  exact hne (by simpa using hmem.symm)

/-! ## Counting characters -/

/-- A backslash in a word is two in the text. -/
theorem Dequotes.backslashes (h : Dequotes q raw word) :
    2 * word.count '\\' ≤ raw.count '\\' := by
  induction h with
  | nil => exact Nat.le_refl _
  | @escape q c raw word h ih =>
    simp only [List.count_cons, beq_self_eq_true, if_true]
    split <;> omega
  | openQuote hc h ih => exact Nat.le_trans ih (List.count_le_count_cons ..)
  | closeQuote hq h ih => exact Nat.le_trans ih (List.count_le_count_cons ..)
  | quoted hq hc h ih => simpa [List.count_cons, hc] using ih
  | plain hc h ih => simpa [List.count_cons, (isDelim_of_not_plain hc).2.2] using ih

theorem Dequotes.sublist (h : Dequotes q raw word) : word.Sublist raw := by
  induction h with
  | nil => exact .slnil
  | escape h ih => exact (ih.cons_cons _).cons _
  | openQuote hc h ih => exact ih.cons _
  | closeQuote hq h ih => exact ih.cons _
  | quoted hq hc h ih => exact ih.cons_cons _
  | plain hc h ih => exact ih.cons_cons _

/-- The characters within double quotes, from outside of quotes or within. -/
def quotedChars : Bool → List Char → List Char
  | _, [] => []
  | q, c :: s =>
    if c = '"' then quotedChars (!q) s
    else if q then c :: quotedChars q s
    else quotedChars q s

/-- A single quote that is read as one is missing in the word. -/
theorem Dequotes.single_quote (h : Dequotes (some '\'') raw word) (hraw : '\\' ∉ raw) :
    word.count '\'' < raw.count '\'' := by
  generalize hq : some '\'' = q at h
  induction h with
  | nil => cases hq
  | escape h => exact absurd List.mem_cons_self hraw
  | openQuote => cases hq
  | closeQuote hq' h ih =>
    cases hq
    have hle := h.sublist.count_le '\''
    rw [List.count_cons_self]
    omega
  | quoted hne hc h ih =>
    cases hq
    have hlt := ih (fun hmem => hraw (List.mem_cons_of_mem _ hmem)) rfl
    simpa [List.count_cons, hne] using hlt
  | plain => cases hq

/-- Where no backslash and no single quote is lost, there is no double quote in a word, and what
does not stand for itself is within double quotes. -/
theorem Dequotes.quotedChars (h : Dequotes q raw word) (hraw : '\\' ∉ raw)
    (hcount : word.count '\'' = raw.count '\'') (hq : q = none ∨ q = some '"')
    (rest : List Char) :
    '"' ∉ word ∧
      (ParseJob.quotedChars q.isSome (raw ++ rest)).filter (!isPlain ·) =
        word.filter (!isPlain ·) ++ (ParseJob.quotedChars false rest).filter (!isPlain ·) := by
  induction h with
  | nil => exact ⟨List.not_mem_nil, rfl⟩
  | escape h => exact absurd List.mem_cons_self hraw
  | @openQuote c raw word hc h ih =>
    have htail := List.not_mem_of_not_mem_cons hraw
    simp only [isQuote, Bool.or_eq_true, decide_eq_true_eq] at hc
    rcases hc with rfl | rfl
    · obtain ⟨hword, hfilter⟩ := ih htail (by simpa [List.count_cons] using hcount) (.inr rfl)
      refine ⟨hword, ?_⟩
      simpa [ParseJob.quotedChars] using hfilter
    · have hlt := h.single_quote htail
      rw [List.count_cons_self] at hcount
      omega
  | @closeQuote q raw word hq' h ih =>
    have hq : q = '"' := by simpa using hq
    subst hq
    have htail := List.not_mem_of_not_mem_cons hraw
    obtain ⟨hword, hfilter⟩ := ih htail (by simpa [List.count_cons] using hcount) (.inl rfl)
    refine ⟨hword, ?_⟩
    simpa [ParseJob.quotedChars] using hfilter
  | @quoted q c raw word hne hc h ih =>
    have hq : q = '"' := by simpa using hq
    subst hq
    have htail := List.not_mem_of_not_mem_cons hraw
    obtain ⟨hword, hfilter⟩ := ih htail (by simpa [List.count_cons] using hcount) (.inr rfl)
    constructor
    · simpa [Ne.symm hne] using hword
    · simp only [List.cons_append, ParseJob.quotedChars, if_neg hne, Option.isSome_some, if_true,
        List.filter_cons] at hfilter ⊢
      rw [hfilter]
      split <;> rfl
  | @plain c raw word hc h ih =>
    obtain ⟨-, hquote, -⟩ := isDelim_of_not_plain hc
    have hne : c ≠ '"' := by
      rintro rfl
      cases hquote
    have htail := List.not_mem_of_not_mem_cons hraw
    obtain ⟨hword, hfilter⟩ := ih htail (by simpa [List.count_cons] using hcount) (.inl rfl)
    constructor
    · simpa [Ne.symm hne] using hword
    · simpa [ParseJob.quotedChars, hne, hc] using hfilter

theorem textToken_chars (raw word : List Char) :
    (textToken raw word).chars = word ∨ (textToken raw word).chars = [] := by
  unfold textToken
  split
  · exact .inr rfl
  · exact .inl (by simp [OnToken.chars])

/-- The words of a text are in it, in order, with a backslash for each of their own. -/
theorem Lexes.words_sublist (h : Lexes s ts) :
    (ts.flatMap OnToken.chars).Sublist s ∧
      2 * (ts.flatMap OnToken.chars).count '\\' ≤ s.count '\\' := by
  induction h with
  | done => exact ⟨List.nil_sublist _, Nat.zero_le _⟩
  | @token s tok rest ts htok h ih =>
    have hdrop := rest.dropWhile_sublist isWs
    have hrest := ih.1.trans hdrop
    have hcount := Nat.le_trans ih.2 (hdrop.count_le '\\')
    rw [List.flatMap_cons]
    cases htok with
    | openParen => exact ⟨hrest.cons _, Nat.le_trans hcount (List.count_le_count_cons ..)⟩
    | closeParen => exact ⟨hrest.cons _, Nat.le_trans hcount (List.count_le_count_cons ..)⟩
    | @text _ raw word _ hs hne hraw =>
      rw [hs, List.count_append, List.count_append]
      rcases textToken_chars raw word with hchars | hchars
      · rw [hchars]
        have hword := hraw.backslashes
        exact ⟨hraw.sublist.append hrest, by omega⟩
      · rw [hchars, List.nil_append]
        exact ⟨hrest.trans (List.sublist_append_right _ _), by simp; omega⟩

theorem quotedChars_dropWhile (s : List Char) :
    quotedChars false (s.dropWhile isWs) = quotedChars false s := by
  induction s with
  | nil => rfl
  | cons c s ih =>
    by_cases hc : isWs c = true
    · have hne : c ≠ '"' := by
        rintro rfl
        cases hc
      rw [List.dropWhile_cons_of_pos hc, ih]
      simp [quotedChars, hne]
    · rw [List.dropWhile_cons_of_neg hc]

/-- Where no backslash and no single quote is lost, no word has a double quote, and the text has
the characters of the words that do not stand for themselves within double quotes. -/
theorem Lexes.quotedChars (h : Lexes s ts) (hslash : '\\' ∉ s)
    (hcount : (ts.flatMap OnToken.chars).count '\'' = s.count '\'') :
    '"' ∉ ts.flatMap OnToken.chars ∧
      (ts.flatMap OnToken.chars).countP (!isPlain ·) ≤
        (ParseJob.quotedChars false s).countP (!isPlain ·) := by
  induction h with
  | done => exact ⟨List.not_mem_nil, Nat.zero_le _⟩
  | @token s tok rest ts htok h ih =>
    have hdrop := rest.dropWhile_sublist isWs
    have hle := (h.words_sublist.1.trans hdrop).count_le '\''
    have hle' := h.words_sublist.1.count_le '\''
    have hle'' := hdrop.count_le '\''
    rw [quotedChars_dropWhile] at ih
    -- what is behind the token, if the token has all its single quotes
    have hrest : '\\' ∉ rest → (ts.flatMap OnToken.chars).count '\'' = rest.count '\'' →
        '"' ∉ ts.flatMap OnToken.chars ∧
          (ts.flatMap OnToken.chars).countP (!isPlain ·) ≤
            (ParseJob.quotedChars false rest).countP (!isPlain ·) := by
      intro hslash hcount
      exact ih (fun hmem => hslash (hdrop.mem hmem)) (by omega)
    rw [List.flatMap_cons] at hcount ⊢
    cases htok with
    | openParen =>
      rw [List.mem_cons, not_or] at hslash
      simpa [OnToken.chars, ParseJob.quotedChars] using
        hrest hslash.2 (by simpa [OnToken.chars, List.count_cons] using hcount)
    | closeParen =>
      rw [List.mem_cons, not_or] at hslash
      simpa [OnToken.chars, ParseJob.quotedChars] using
        hrest hslash.2 (by simpa [OnToken.chars, List.count_cons] using hcount)
    | @text _ raw word _ hs hne hraw =>
      subst hs
      rw [List.mem_append, not_or] at hslash
      rw [List.count_append, List.count_append] at hcount
      have hword := hraw.sublist.count_le '\''
      rcases textToken_chars raw word with hchars | hchars
      · rw [hchars] at hcount ⊢
        obtain ⟨hquote, hfilter⟩ := hraw.quotedChars hslash.1 (by omega) (.inl rfl) rest
        obtain ⟨hquote', hle⟩ := hrest hslash.2 (by omega)
        have hlength := congrArg List.length hfilter
        simp only [List.length_append, ← List.countP_eq_length_filter, Option.isSome_none] at hlength
        rw [List.mem_append, not_or, List.countP_append]
        exact ⟨⟨hquote, hquote'⟩, by omega⟩
      · rw [hchars, List.count_nil] at hcount
        rw [hchars, List.nil_append]
        obtain ⟨-, hfilter⟩ := hraw.quotedChars hslash.1 (by omega) (.inl rfl) rest
        obtain ⟨hquote', hle⟩ := hrest hslash.2 (by omega)
        have hlength := congrArg List.length hfilter
        simp only [List.length_append, ← List.countP_eq_length_filter, Option.isSome_none] at hlength
        exact ⟨hquote', by omega⟩

/-! ## The text of a condition -/

/-- Other characters than those that `event_operator_collapse` puts in are those of the words. -/
theorem count_collapseText {ch : Char}
    (hch : ch ∉ ['(', ')', ' ', '"', 'a', 'n', 'd', 'o', 'r']) (tree : EventOperator) :
    (collapseText tree).count ch = ((treeWords tree).flatMap PrintedWord.chars).count ch := by
  simp only [List.mem_cons, not_or] at hch
  have hword : ∀ w : PrintedWord, w.text.count ch = w.chars.count ch := by
    intro w
    obtain ⟨raw, quoted⟩ := w
    cases quoted with
    | none => simp [PrintedWord.text, PrintedWord.chars]
    | some v => simp [PrintedWord.text, PrintedWord.chars, Ne.symm hch.2.2.2.1]
  have hargs : ∀ ws : List PrintedWord,
      (ws.flatMap fun w => ' ' :: w.text).count ch = (ws.flatMap PrintedWord.chars).count ch := by
    intro ws
    induction ws with
    | nil => rfl
    | cons w ws ih => simp [hword, ih, Ne.symm hch.2.2.1]
  have hnode : ∀ (type : OnOperator) (l r : EventOperator),
      (collapseText (type.node l r)).count ch =
        (collapseText l).count ch + (collapseText r).count ch := by
    intro type l r
    have htype : type.text.count ch = 0 := by
      cases type <;> simp [OnOperator.text, Ne.symm hch.2.2.2.2.1, Ne.symm hch.2.2.2.2.2.1,
        Ne.symm hch.2.2.2.2.2.2.1, Ne.symm hch.2.2.2.2.2.2.2.1, Ne.symm hch.2.2.2.2.2.2.2.2.1]
    simp [collapseText_node, htype, Ne.symm hch.1, Ne.symm hch.2.1, Ne.symm hch.2.2.1]
  induction tree with
  | eventMatch name env value event =>
    rw [collapseText, collapseEvent_eq, List.count_append, hword, hargs, treeWords,
      List.flatMap_cons, List.count_append]
  | eventAnd value l r ihl ihr =>
    show (collapseText (OnOperator.and.node l r)).count ch = _
    rw [hnode, ihl, ihr, treeWords, List.flatMap_append, List.count_append]
  | eventOr value l r ihl ihr =>
    show (collapseText (OnOperator.or.node l r)).count ch = _
    rw [hnode, ihl, ihr, treeWords, List.flatMap_append, List.count_append]

/-- Without a double quote. -/
theorem quotedChars_append (hs : '"' ∉ s) (q : Bool) (k : List Char) :
    quotedChars q (s ++ k) = (if q then s else []) ++ quotedChars q k := by
  induction s with
  | nil => cases q <;> rfl
  | cons c s ih =>
    rw [List.mem_cons, not_or] at hs
    rw [List.cons_append, quotedChars, if_neg (Ne.symm hs.1), ih hs.2]
    cases q <;> rfl

theorem PrintedWord.quotedChars_text (h : '"' ∉ w.chars) (k : List Char) :
    quotedChars false (w.text ++ k) = w.quoted.getD [] ++ quotedChars false k := by
  obtain ⟨raw, quoted⟩ := w
  obtain ⟨hraw, hquoted⟩ := not_or.mp (fun h' => h (List.mem_append.mpr h'))
  cases quoted with
  | none => simpa [PrintedWord.text] using quotedChars_append hraw false k
  | some v =>
    rw [PrintedWord.text, List.append_assoc, quotedChars_append hraw]
    have hv := quotedChars_append (k := '"' :: k) hquoted true
    simpa [quotedChars] using hv

/-- What is printed within double quotes, if there are none in the words. -/
theorem quotedChars_collapseText (h : '"' ∉ (treeWords tree).flatMap PrintedWord.chars)
    (k : List Char) :
    quotedChars false (collapseText tree ++ k) =
      (treeWords tree).flatMap (·.quoted.getD []) ++ quotedChars false k := by
  have hargs : ∀ ws : List PrintedWord, '"' ∉ ws.flatMap PrintedWord.chars → ∀ k,
      quotedChars false ((ws.flatMap fun w => ' ' :: w.text) ++ k) =
        ws.flatMap (·.quoted.getD []) ++ quotedChars false k := by
    intro ws hws k
    induction ws with
    | nil => rfl
    | cons w ws ih =>
      rw [List.flatMap_cons, List.mem_append, not_or] at hws
      have hword := w.quotedChars_text hws.1 ((ws.flatMap fun w => ' ' :: w.text) ++ k)
      rw [ih hws.2] at hword
      simpa [quotedChars] using hword
  have hnode : ∀ (type : OnOperator) (l r : EventOperator) (k : List Char),
      quotedChars false (collapseText (type.node l r) ++ k) =
        quotedChars false (collapseText l ++ ' ' :: (type.text ++ ' ' ::
          (collapseText r ++ ')' :: k))) := by
    intro type l r k
    simp [collapseText_node, quotedChars]
  have hbetween : ∀ (type : OnOperator) (k : List Char),
      quotedChars false (' ' :: (type.text ++ ' ' :: k)) = quotedChars false k := by
    intro type k
    cases type <;> rfl
  induction tree generalizing k with
  | eventMatch name env value event =>
    rw [treeWords, List.flatMap_cons, List.mem_append, not_or] at h
    rw [collapseText, collapseEvent_eq, List.append_assoc, (nameWord name).quotedChars_text h.1,
      hargs _ h.2, treeWords, List.flatMap_cons, List.append_assoc]
  | eventAnd value l r ihl ihr =>
    rw [treeWords, List.flatMap_append, List.mem_append, not_or] at h
    show quotedChars false (collapseText (OnOperator.and.node l r) ++ k) = _
    rw [hnode, ihl h.1, hbetween, ihr h.2, treeWords, List.flatMap_append, List.append_assoc]
    rfl
  | eventOr value l r ihl ihr =>
    rw [treeWords, List.flatMap_append, List.mem_append, not_or] at h
    show quotedChars false (collapseText (OnOperator.or.node l r) ++ k) = _
    rw [hnode, ihl h.1, hbetween, ihr h.2, treeWords, List.flatMap_append, List.append_assoc]
    rfl

/-- The characters of a condition, by whether they are printed in quotes. -/
theorem countP_chars (p : Char → Bool) (ws : List PrintedWord) :
    (ws.flatMap PrintedWord.chars).countP p =
      (ws.flatMap (·.raw)).countP p + (ws.flatMap (·.quoted.getD [])).countP p := by
  induction ws with
  | nil => rfl
  | cons w ws ih =>
    simp only [List.flatMap_cons, List.countP_append, PrintedWord.chars, ih]
    omega

/-- A word is read as one word, as an operator, or not at all. -/
theorem PrintedWord.Plain.legible (h : w.Plain) :
    w.Legible ∧ w.tokens.countP OnToken.isWord = 1 ∨ w.tokens.countP OnToken.isWord = 0 := by
  unfold PrintedWord.tokens
  by_cases hempty : w.text = []
  · exact .inr (by rw [if_pos hempty]; rfl)
  · rw [if_neg hempty, textToken]
    cases hop : onOperator (String.ofList w.text) with
    | none => exact .inl ⟨⟨h, hempty, hop⟩, rfl⟩
    | some type => exact .inr rfl

/-- If there are as many words to read as have been printed, all are legible. -/
theorem legible_of_countP (ws : List PrintedWord) (hplain : ∀ w ∈ ws, w.Plain) :
    (ws.flatMap (·.tokens)).countP OnToken.isWord ≤ ws.length ∧
      ((ws.flatMap (·.tokens)).countP OnToken.isWord = ws.length → ∀ w ∈ ws, w.Legible) := by
  induction ws with
  | nil => exact ⟨Nat.le_refl _, fun _ => nofun⟩
  | cons w ws ih =>
    rw [List.forall_mem_cons] at hplain
    obtain ⟨hle, hlegible⟩ := ih hplain.2
    rw [List.flatMap_cons, List.countP_append, List.length_cons, List.forall_mem_cons]
    rcases hplain.1.legible with ⟨hw, hone⟩ | hzero
    · rw [hone]
      exact ⟨by omega, fun h => ⟨hw, hlegible (by omega)⟩⟩
    · rw [hzero]
      exact ⟨by omega, fun h => by omega⟩

theorem countP_treeTokens (tree : EventOperator) :
    (treeTokens tree).countP OnToken.isWord =
      ((treeWords tree).flatMap (·.tokens)).countP OnToken.isWord := by
  induction tree with
  | eventMatch name env value event => simp [treeTokens, treeWords]
  | eventAnd value l r ihl ihr => simp [treeTokens, treeWords, ihl, ihr, OnToken.isWord]
  | eventOr value l r ihl ihr => simp [treeTokens, treeWords, ihl, ihr, OnToken.isWord]

/-! ## Round trips -/

/-- The text of a tree whose words have no line end and no NUL. -/
theorem clean_collapseText (h : Clean ((treeWords tree).flatMap PrintedWord.chars)) :
    Clean (collapseText tree) := by
  have hcount : ∀ ch ∉ ['(', ')', ' ', '"', 'a', 'n', 'd', 'o', 'r'],
      ch ∉ (treeWords tree).flatMap PrintedWord.chars → ch ∉ collapseText tree := by
    intro ch hch hwords
    rw [← List.count_eq_zero] at hwords ⊢
    rw [count_collapseText hch, hwords]
  intro ch hch
  constructor
  · rintro rfl
    exact hcount '\n' (by decide) (fun hmem => (h _ hmem).1 rfl) hch
  · rintro rfl
    exact hcount '\x00' (by decide) (fun hmem => (h _ hmem).2 rfl) hch

theorem CleanTokens.onTokenAt (hclean : CleanTokens T file) {tok : OnToken} {a : Cursor}
    (h : onTokenAt T file c = some (tok, a)) : Clean tok.chars := by
  unfold ParseJob.onTokenAt at h
  split at h
  · cases h
    exact nofun
  split at h
  · cases h
    exact nofun
  split at h
  · cases h
  split at h
  · cases h
    exact nofun
  split at h
  · rename_i hnext
    cases h
    exact hclean _ _ _ hnext
  · cases h

/-- The words that `parse_on` has read have no line end and no NUL. -/
theorem Lexed.clean (hclean : CleanTokens T file) (h : Lexed T file depth c ts) :
    Clean (ts.flatMap OnToken.chars) := by
  induction h with
  | token hc htok h ih =>
    intro ch hch
    rw [List.flatMap_cons, List.mem_append] at hch
    exact hch.elim (hclean.onTokenAt htok ch) (ih ch)
  | line _ _ _ _ _ ih => exact ih
  | done => exact nofun

/-- The tree is read back if its words are legible. -/
theorem Printable.roundTrips (hT : T.Quoting) (hderives : Derives sort ts tree)
    (hclean : Clean (collapseText tree)) (h : Printable tree) : RoundTrips T tree := by
  rw [printable_iff] at h
  refine ⟨_, eventOperatorCollapse_eq tree, ?_⟩
  have hlexes := lexes_collapseText (fun w hw => (h w hw).1) (k := []) nofun (.done nofun)
  rw [List.append_nil, List.append_nil] at hlexes
  rw [← List.drop_zero (l := collapseText tree)] at hlexes
  exact Lexes.parseOn (c := ⟨0, 0⟩) hT hclean hlexes (not_mem_treeTokens h)
    (.single (hderives.treeTokens h))

/-- The words of a tree that is read back are legible. -/
theorem RoundTrips.printable (hT : T.Quoting) (hclean : Clean (collapseText tree))
    (h : RoundTrips T tree) : Printable tree := by
  obtain ⟨text, htext, hparse⟩ := h
  rw [eventOperatorCollapse_eq, Option.some.injEq] at htext
  subst htext
  obtain ⟨ts, hlexes, hderives⟩ := parseOn_lexes hT hclean hparse
  obtain ⟨hwords, hnumber⟩ := hderives.words
  rw [List.drop_zero] at hlexes
  have hdrop := (collapseText tree).dropWhile_sublist isWs
  -- no backslash
  have hslash : (collapseText tree).count '\\' = 0 := by
    have hbackslashes := Nat.le_trans hlexes.words_sublist.2 (hdrop.count_le '\\')
    rw [hwords, ← count_collapseText (by decide)] at hbackslashes
    omega
  have hno_slash := List.count_eq_zero.mp hslash
  -- no single quote is read as one
  have hsingle : (ts.flatMap OnToken.chars).count '\'' =
      ((collapseText tree).dropWhile isWs).count '\'' := by
    have hle := hlexes.words_sublist.1.count_le '\''
    have hle' := hdrop.count_le '\''
    rw [hwords, ← count_collapseText (by decide)] at hle ⊢
    omega
  obtain ⟨hquote, hcount⟩ := hlexes.quotedChars (fun hmem => hno_slash (hdrop.mem hmem)) hsingle
  rw [hwords] at hquote
  -- so that what does not stand for itself is in the printed quotes
  have hprinted := quotedChars_collapseText hquote []
  rw [List.append_nil, quotedChars, List.append_nil] at hprinted
  rw [quotedChars_dropWhile, hprinted, hwords, countP_chars] at hcount
  have hraw : ((treeWords tree).flatMap (·.raw)).countP (!isPlain ·) = 0 := by omega
  have hplain : ∀ w ∈ treeWords tree, w.Plain := by
    intro w hw
    constructor
    · intro ch hch
      simpa using List.countP_eq_zero.mp hraw ch (List.mem_flatMap.mpr ⟨w, hw, hch⟩)
    · intro ch hch
      have hmem : ch ∈ (treeWords tree).flatMap PrintedWord.chars :=
        List.mem_flatMap.mpr ⟨w, hw, List.mem_append_right _ hch⟩
      rw [count_collapseText (by decide), List.count_eq_zero] at hslash
      exact ⟨fun h => hquote (h ▸ hmem), fun h => hslash (h ▸ hmem)⟩
  have htokens := lexes_collapseText hplain (k := []) nofun (.done nofun)
  rw [List.append_nil, List.append_nil] at htokens
  rw [hlexes.unique htokens, countP_treeTokens] at hnumber
  exact (printable_iff tree).mpr ((legible_of_countP _ hplain).2 hnumber)

/-- A condition that `parse_on` has built is read back exactly if its names and arguments are
legible. -/
theorem roundTrips_iff (hT : T.Quoting) (hfile : T.Lawful file) (hnul : StepsOverNul T file)
    (hclean : CleanTokens T file) (h : (parseOn T file c).1 = .ok tree) :
    RoundTrips T tree ↔ Printable tree := by
  obtain ⟨⟨ts, hlexed, hderives⟩, -⟩ := parseOn_ok hfile hnul h
  have hwords := hlexed.clean hclean
  rw [hderives.words.1] at hwords
  have htext := clean_collapseText hwords
  exact ⟨fun h => h.printable hT htext, fun h => h.roundTrips hT hderives htext⟩

/-- A condition with an operator, and a space in an argument. -/
theorem roundTrips_iff_quotedArgument :
    RoundTrips quotingTokeniser (.eventOr false (.eventMatch "a" ["X=1 2"] false none)
        (.eventMatch "b" [] false none)) ↔
      Printable (.eventOr false (.eventMatch "a" ["X=1 2"] false none)
        (.eventMatch "b" [] false none)) :=
  have hclean : Clean "a 'X=1 2' or b".toList := by decide
  have hparse : (parseOn quotingTokeniser "a 'X=1 2' or b".toList ⟨0, 1⟩).1 =
      .ok (.eventOr false (.eventMatch "a" ["X=1 2"] false none)
        (.eventMatch "b" [] false none)) := by decide +kernel
  roundTrips_iff quotingTokeniser_quoting (quotingTokeniser_quoting.lawful hclean)
    (hclean.stepsOverNul _) (quotingTokeniser_quoting.cleanTokens hclean) hparse

/-- An event whose name has a space is read back as another event, with an argument. -/
theorem quotedName_not_roundTrips :
    ∃ file c tree, quotingTokeniser.Quoting ∧ quotingTokeniser.Lawful file ∧
      StepsOverNul quotingTokeniser file ∧ CleanTokens quotingTokeniser file ∧
      (parseOn quotingTokeniser file c).1 = .ok tree ∧ ¬ RoundTrips quotingTokeniser tree := by
  have hclean : Clean "\"a b\"".toList := by decide
  refine ⟨"\"a b\"".toList, ⟨0, 1⟩, .eventMatch "a b" [] false none, quotingTokeniser_quoting,
    quotingTokeniser_quoting.lawful hclean, hclean.stepsOverNul _,
    quotingTokeniser_quoting.cleanTokens hclean, by decide +kernel, ?_⟩
  rintro ⟨text, htext, hparse⟩
  have htext' : text = "a b".toList := (Option.some.inj htext).symm
  have hread : parseOnSimple quotingTokeniser "a b".toList =
      .ok (.eventMatch "a" ["b"] false none) := by decide +kernel
  rw [htext', hread] at hparse
  exact absurd hparse (by decide)

end Startup.ParseJob
