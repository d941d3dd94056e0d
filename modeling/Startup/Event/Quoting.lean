import Startup.Event.ParseOn

/-!
# Quotes (`init/parse_job.c`)

How libnih's tokeniser takes quotes, backslashes and comments, for a text without line ends.
The tokeniser stays a parameter; `Tokeniser.Quoting` is the part of its documentation that
conditions in one line depend on.

* `Dequotes`: a token as it stands, and without its quotes and backslashes;
* `Lexes`: the tokens of a text without line ends;
* `parseOn_lexes`, `Lexes.parseOn`: `parse_on` builds the tree of these tokens;
* `quotingTokeniser`: a tokeniser of this kind.
-/

namespace Startup.ParseJob

/-! ## Tokens -/

/-- `NIH_CONFIG_WS`. -/
def isWs (c : Char) : Bool := c = ' ' || c = '\t' || c = '\r'

/-- The characters that end a token, `"()" NIH_CONFIG_CNLWS`. -/
def isDelim (c : Char) : Bool := isWs c || c = '(' || c = ')' || c = '#' || c = '\n'

def isQuote (c : Char) : Bool := c = '"' || c = '\''

/-- A character that stands for itself. -/
def isPlain (c : Char) : Bool := !isDelim c && !isQuote c && c != '\\'

/-- A token as it stands, from within a quote on or not, and what it is without its quotes and
backslashes. -/
inductive Dequotes : Option Char → List Char → List Char → Prop where
  | nil : Dequotes none [] []
  | escape {q c raw word} (h : Dequotes q raw word) : Dequotes q ('\\' :: c :: raw) (c :: word)
  | openQuote {c raw word} (hc : isQuote c = true) (h : Dequotes (some c) raw word) :
      Dequotes none (c :: raw) word
  | closeQuote {q raw word} (hq : q ≠ '\\') (h : Dequotes none raw word) :
      Dequotes (some q) (q :: raw) word
  | quoted {q c raw word} (hq : c ≠ q) (hc : c ≠ '\\') (h : Dequotes (some q) raw word) :
      Dequotes (some q) (c :: raw) (c :: word)
  | plain {c raw word} (hc : isPlain c = true) (h : Dequotes none raw word) :
      Dequotes none (c :: raw) (c :: word)

/-- Behind a token: the end of the text, or a character that ends tokens. -/
def EndsToken (s : List Char) : Prop := ∀ c ∈ s.head?, isDelim c = true

/-- The text has no line end and no NUL. -/
def Clean (s : List Char) : Prop := ∀ c ∈ s, c ≠ '\n' ∧ c ≠ '\x00'

instance (s : List Char) : Decidable (Clean s) :=
  decidable_of_iff (s.all (fun c => c ≠ '\n' ∧ c ≠ '\x00') = true) (by simp [Clean])

/-- The position behind a token and white space. -/
def behind (file rest : List Char) (c : Cursor) : Cursor :=
  ⟨file.length - (rest.dropWhile isWs).length, c.lineno⟩

/-- The tokeniser on a text without line ends: white space is skipped, a comment goes on to the
end, and a token goes on to the first character that ends it outside of quotes and not behind a
backslash.  A token that is empty without its quotes may be refused. -/
structure Tokeniser.Quoting (T : Tokeniser) : Prop where
  skipWhitespace {file : List Char} (hfile : Clean file) (c : Cursor) :
    T.skipWhitespace file c =
      ⟨c.pos + ((file.drop c.pos).takeWhile isWs).length, c.lineno⟩
  hasToken {file : List Char} (hfile : Clean file) (c : Cursor) :
    T.hasToken file c = true ↔ ∃ ch s, file.drop c.pos = ch :: s ∧ ch ≠ '#'
  nextToken_some {file : List Char} (hfile : Clean file) (c a : Cursor) (dequote : Bool)
    (arg : String) (h : T.nextToken file c dequote = (some arg, a)) :
    ∃ raw word rest, file.drop c.pos = raw ++ rest ∧ raw ≠ [] ∧ Dequotes none raw word ∧
      EndsToken rest ∧ arg = String.ofList (if dequote then word else raw) ∧
      a = behind file rest c
  nextToken {file : List Char} (hfile : Clean file) (c : Cursor) (dequote : Bool)
    {raw word rest : List Char} (hs : file.drop c.pos = raw ++ rest) (hraw : Dequotes none raw word)
    (hrest : EndsToken rest) (hne : (if dequote then word else raw) ≠ []) :
    T.nextToken file c dequote =
      (some (String.ofList (if dequote then word else raw)), behind file rest c)
  skipComment {file : List Char} (hfile : Clean file) (c : Cursor)
    (h : T.hasToken file c = false) :
    ∃ a, T.skipComment file c = (true, a) ∧ c.pos ≤ a.pos ∧ file.length ≤ a.pos

/-- The tokens of a file have no line end and no NUL: a line end within quotes is taken for a
space, and a NUL ends the token. -/
def CleanTokens (T : Tokeniser) (file : List Char) : Prop :=
  ∀ c arg a, T.nextToken file c true = (some arg, a) → Clean arg.toList

/-- The first token of a text, from within a quote on or not: as it stands, without its quotes and
backslashes, and what is behind it. -/
def scanToken : Option Char → List Char → Option (List Char × List Char × List Char)
  | q, [] => if q = none then some ([], [], []) else none
  | q, c :: s =>
    if c = '\\' then
      match s with
      | [] => none
      | c' :: s =>
        (scanToken q s).map fun (raw, word, rest) => (c :: c' :: raw, c' :: word, rest)
    else
      match q with
      | some q =>
        if c = q then (scanToken none s).map fun (raw, word, rest) => (c :: raw, word, rest)
        else (scanToken (some q) s).map fun (raw, word, rest) => (c :: raw, c :: word, rest)
      | none =>
        if isQuote c then
          (scanToken (some c) s).map fun (raw, word, rest) => (c :: raw, word, rest)
        else if isDelim c then some ([], [], c :: s)
        else (scanToken none s).map fun (raw, word, rest) => (c :: raw, c :: word, rest)

/-- An operator is not in quotes, an operand is without them. -/
def textToken (raw word : List Char) : OnToken :=
  match onOperator (String.ofList raw) with
  | some type => .operator type
  | none => .word (String.ofList word)

/-- The token that a text without line ends begins with, and the text behind it. -/
inductive FirstToken : List Char → OnToken → List Char → Prop where
  | openParen {s} : FirstToken ('(' :: s) .openParen s
  | closeParen {s} : FirstToken (')' :: s) .closeParen s
  | text {s raw word rest} (hs : s = raw ++ rest) (hne : raw ≠ []) (hraw : Dequotes none raw word)
      (hrest : EndsToken rest) : FirstToken s (textToken raw word) rest

/-- The tokens of a text without line ends, up to a comment. -/
inductive Lexes : List Char → List OnToken → Prop where
  | done {s} (h : ∀ c ∈ s.head?, c = '#') : Lexes s []
  | token {s tok rest ts} (htok : FirstToken s tok rest) (h : Lexes (rest.dropWhile isWs) ts) :
      Lexes s (tok :: ts)

variable {T : Tokeniser} {file s raw raw' word word' rest rest' : List Char} {c a : Cursor}
  {ts ts' : List OnToken} {tok tok' : OnToken} {depth : Nat} {q : Option Char}

/-! ## One token -/

theorem isDelim_of_not_plain {c : Char} (h : isPlain c = true) :
    isDelim c = false ∧ isQuote c = false ∧ c ≠ '\\' := by
  simpa [isPlain, and_assoc] using h

/-- A character that is no backslash. -/
theorem scanToken_cons {c : Char} (hc : c ≠ '\\') (q : Option Char) (s : List Char) :
    scanToken q (c :: s) =
      match q with
      | some q =>
        if c = q then (scanToken none s).map fun (raw, word, rest) => (c :: raw, word, rest)
        else (scanToken (some q) s).map fun (raw, word, rest) => (c :: raw, c :: word, rest)
      | none =>
        if isQuote c then
          (scanToken (some c) s).map fun (raw, word, rest) => (c :: raw, word, rest)
        else if isDelim c then some ([], [], c :: s)
        else (scanToken none s).map fun (raw, word, rest) => (c :: raw, c :: word, rest) := by
  rw [scanToken.eq_def]
  exact if_neg hc

/-- A token that ends is the first one. -/
theorem Dequotes.scanToken_eq (h : Dequotes q raw word) (hrest : EndsToken rest) :
    scanToken q (raw ++ rest) = some (raw, word, rest) := by
  induction h with
  | nil =>
    cases rest with
    | nil => rfl
    | cons c rest =>
      have hdelim : isDelim c = true := hrest c rfl
      have hc : c ≠ '\\' ∧ isQuote c = false := by
        simp only [isDelim, isWs, Bool.or_eq_true, decide_eq_true_eq] at hdelim
        rcases hdelim with (((((rfl | rfl) | rfl) | rfl) | rfl) | rfl) | rfl <;> decide
      simp [scanToken_cons hc.1, hc.2, hdelim]
  | escape h ih => simp [scanToken, ih]
  | @openQuote c raw word hc h ih =>
    have hne : c ≠ '\\' := by
      intro hc'
      rw [hc'] at hc
      cases hc
    simp [scanToken_cons hne, hc, ih]
  | closeQuote hq h ih => simp [scanToken_cons hq, ih]
  | quoted hq hc h ih => simp [scanToken_cons hc, hq, ih]
  | plain hc h ih =>
    obtain ⟨hdelim, hquote, hne⟩ := isDelim_of_not_plain hc
    simp [scanToken_cons hne, hquote, hdelim, ih]

/-- The first token is a token that ends. -/
theorem scanToken_some {q : Option Char} (hq : q ≠ some '\\')
    (h : scanToken q s = some (raw, word, rest)) :
    s = raw ++ rest ∧ Dequotes q raw word ∧ EndsToken rest := by
  induction q, s using scanToken.induct generalizing raw word with
  | case1 =>
    cases h
    exact ⟨rfl, .nil, nofun⟩
  | case2 q hnone => simp [scanToken, hnone] at h
  | case3 q => simp [scanToken] at h
  | case4 q c s ih =>
    have h : (scanToken q s).map (fun (raw, word, rest) => ('\\' :: c :: raw, c :: word, rest)) =
        some (raw, word, rest) := by
      rwa [scanToken.eq_def] at h
    obtain ⟨⟨raw', word', rest'⟩, hscan, heq⟩ := Option.map_eq_some_iff.mp h
    cases heq
    obtain ⟨rfl, hraw, hrest⟩ := ih hq hscan
    exact ⟨rfl, .escape hraw, hrest⟩
  | case5 s q hc ih =>
    simp only [scanToken_cons hc, if_pos] at h
    obtain ⟨⟨raw', word', rest'⟩, hscan, heq⟩ := Option.map_eq_some_iff.mp h
    cases heq
    obtain ⟨rfl, hraw, hrest⟩ := ih nofun hscan
    exact ⟨rfl, .closeQuote hc hraw, hrest⟩
  | case6 c s hc q hne ih =>
    simp only [scanToken_cons hc, if_neg hne] at h
    obtain ⟨⟨raw', word', rest'⟩, hscan, heq⟩ := Option.map_eq_some_iff.mp h
    cases heq
    obtain ⟨rfl, hraw, hrest⟩ := ih hq hscan
    exact ⟨rfl, .quoted hne hc hraw, hrest⟩
  | case7 c s hc hquote ih =>
    simp only [scanToken_cons hc, if_pos hquote] at h
    obtain ⟨⟨raw', word', rest'⟩, hscan, heq⟩ := Option.map_eq_some_iff.mp h
    cases heq
    obtain ⟨rfl, hraw, hrest⟩ := ih (by simpa using hc) hscan
    exact ⟨rfl, .openQuote hquote hraw, hrest⟩
  | case8 c s hc hquote hdelim =>
    simp only [scanToken_cons hc, if_neg hquote, if_pos hdelim] at h
    cases h
    exact ⟨rfl, .nil, by simpa [EndsToken] using hdelim⟩
  | case9 c s hc hquote hdelim ih =>
    simp only [scanToken_cons hc, if_neg hquote, if_neg hdelim] at h
    obtain ⟨⟨raw', word', rest'⟩, hscan, heq⟩ := Option.map_eq_some_iff.mp h
    cases heq
    obtain ⟨rfl, hraw, hrest⟩ := ih nofun hscan
    exact ⟨rfl, .plain (by simp [isPlain, hc, hquote, hdelim]) hraw, hrest⟩

/-- There is one way to read a token. -/
theorem Dequotes.unique (h : Dequotes q raw word) (hrest : EndsToken rest)
    (h' : Dequotes q raw' word') (hrest' : EndsToken rest')
    (heq : raw ++ rest = raw' ++ rest') : raw = raw' ∧ word = word' ∧ rest = rest' := by
  have hscan := h.scanToken_eq hrest
  rw [heq, h'.scanToken_eq hrest'] at hscan
  cases hscan
  exact ⟨rfl, rfl, rfl⟩

/-- No character that ends tokens begins one. -/
theorem Dequotes.head (h : Dequotes none raw word) (hne : raw ≠ []) :
    ∃ c s, raw = c :: s ∧ isDelim c = false := by
  cases h with
  | nil => exact absurd rfl hne
  | escape h => exact ⟨_, _, rfl, rfl⟩
  | openQuote hc h =>
    refine ⟨_, _, rfl, ?_⟩
    simp only [isQuote, Bool.or_eq_true, decide_eq_true_eq] at hc
    rcases hc with rfl | rfl <;> decide
  | plain hc h => exact ⟨_, _, rfl, (isDelim_of_not_plain hc).1⟩

theorem Dequotes.append_ne_cons (h : Dequotes none raw word) (hne : raw ≠ []) {c : Char}
    (hc : isDelim c = true) : raw ++ rest ≠ c :: s := by
  intro heq
  obtain ⟨c', s', rfl, hc'⟩ := h.head hne
  cases heq
  rw [hc] at hc'
  cases hc'

theorem FirstToken.head (h : FirstToken s tok rest) : ∃ c t, s = c :: t ∧ c ≠ '#' := by
  cases h with
  | openParen => exact ⟨_, _, rfl, by decide⟩
  | closeParen => exact ⟨_, _, rfl, by decide⟩
  | text hs hne hraw hrest =>
    obtain ⟨c, t, rfl, hc⟩ := hraw.head hne
    refine ⟨c, t ++ rest, hs, ?_⟩
    rintro rfl
    cases hc

/-- A text begins with one token. -/
theorem FirstToken.unique (h : FirstToken s tok rest) (h' : FirstToken s tok' rest') :
    tok = tok' ∧ rest = rest' := by
  cases h with
  | openParen =>
    cases h' with
    | openParen => exact ⟨rfl, rfl⟩
    | text hs hne hraw hrest => exact absurd hs.symm (hraw.append_ne_cons hne rfl)
  | closeParen =>
    cases h' with
    | closeParen => exact ⟨rfl, rfl⟩
    | text hs hne hraw hrest => exact absurd hs.symm (hraw.append_ne_cons hne rfl)
  | text hs hne hraw hrest =>
    cases h' with
    | openParen => exact absurd hs.symm (hraw.append_ne_cons hne rfl)
    | closeParen => exact absurd hs.symm (hraw.append_ne_cons hne rfl)
    | text hs' hne' hraw' hrest' =>
      obtain ⟨rfl, rfl, rfl⟩ := hraw.unique hrest hraw' hrest' (hs.symm.trans hs')
      exact ⟨rfl, rfl⟩

/-- A text has one sequence of tokens. -/
theorem Lexes.unique (h : Lexes s ts) (h' : Lexes s ts') : ts = ts' := by
  induction h generalizing ts' with
  | done h =>
    cases h' with
    | done => rfl
    | token htok =>
      obtain ⟨c, t, rfl, hc⟩ := htok.head
      exact absurd (h c rfl) hc
  | token htok h ih =>
    cases h' with
    | done h' =>
      obtain ⟨c, t, rfl, hc⟩ := htok.head
      exact absurd (h' c rfl) hc
    | token htok' h' =>
      obtain ⟨rfl, rfl⟩ := htok.unique htok'
      rw [ih h']

/-! ## The tokeniser -/

theorem drop_behind (h : rest <:+ file) (c : Cursor) :
    file.drop (behind file rest c).pos = rest.dropWhile isWs := by
  have hsuffix := (rest.dropWhile_suffix isWs).trans h
  exact (List.suffix_iff_eq_drop.mp hsuffix).symm

theorem drop_skipWhitespace (hT : T.Quoting) (hfile : Clean file) (c : Cursor) :
    file.drop (T.skipWhitespace file c).pos = (file.drop c.pos).dropWhile isWs := by
  rw [hT.skipWhitespace hfile, ← List.drop_drop]
  generalize file.drop c.pos = s
  have hsplit := List.takeWhile_append_dropWhile (p := isWs) (l := s)
  calc s.drop (s.takeWhile isWs).length
      = (s.takeWhile isWs ++ s.dropWhile isWs).drop (s.takeWhile isWs).length := by rw [hsplit]
    _ = s.dropWhile isWs := List.drop_left

theorem drop_succ {ch : Char} (hs : file.drop c.pos = ch :: rest) :
    c.pos < file.length ∧ file.drop (c.pos + 1) = rest := by
  constructor
  · by_contra hend
    rw [List.drop_of_length_le (Nat.le_of_not_lt hend)] at hs
    cases hs
  · rw [← List.drop_drop, hs]
    rfl

/-- Behind a parenthesis. -/
theorem skipWhitespace_behind (hT : T.Quoting) (hfile : Clean file) {ch : Char}
    (hs : file.drop c.pos = ch :: rest) :
    T.skipWhitespace file { c with pos := c.pos + 1 } = behind file rest c := by
  obtain ⟨hlt, hrest⟩ := drop_succ hs
  have hsplit := congrArg List.length (List.takeWhile_append_dropWhile (p := isWs) (l := rest))
  have hlength := congrArg List.length hrest
  rw [List.length_append] at hsplit
  rw [List.length_drop] at hlength
  rw [hT.skipWhitespace hfile, behind, hrest]
  congr 1
  show c.pos + 1 + _ = _
  omega

theorem charAt_iff {ch : Char} :
    (c.pos < file.length ∧ charAt file c.pos = ch) ↔ ∃ s, file.drop c.pos = ch :: s := by
  constructor
  · intro h
    exact ⟨_, h.2 ▸ drop_eq_charAt_cons h.1⟩
  · intro h
    obtain ⟨s, hs⟩ := h
    obtain ⟨hlt, -⟩ := drop_succ hs
    rw [drop_eq_charAt_cons hlt] at hs
    cases hs
    exact ⟨hlt, rfl⟩

/-- The token that `parse_on` reads is the first one. -/
theorem onTokenAt_first (hT : T.Quoting) (hfile : Clean file)
    (h : onTokenAt T file c = some (tok, a)) :
    ∃ rest, FirstToken (file.drop c.pos) tok rest ∧ a = behind file rest c := by
  unfold onTokenAt at h
  split at h
  · rename_i hopen
    cases h
    obtain ⟨s, hs⟩ := charAt_iff.mp hopen
    exact ⟨s, hs ▸ .openParen, skipWhitespace_behind hT hfile hs⟩
  split at h
  · rename_i hclose
    cases h
    obtain ⟨s, hs⟩ := charAt_iff.mp hclose
    exact ⟨s, hs ▸ .closeParen, skipWhitespace_behind hT hfile hs⟩
  split at h
  · cases h
  rename_i hnext
  obtain ⟨raw, word, rest, hs, hne, hraw, hrest, rfl, rfl⟩ :=
    hT.nextToken_some hfile c _ false _ hnext
  have htok := FirstToken.text hs hne hraw hrest
  split at h
  · rename_i type hop
    cases h
    have hop : onOperator (String.ofList raw) = some type := hop
    rw [textToken, hop] at htok
    exact ⟨rest, htok, rfl⟩
  rename_i hop
  have hop : onOperator (String.ofList raw) = none := hop
  split at h
  · rename_i hnext'
    cases h
    obtain ⟨raw', word', rest', hs', hne', hraw', hrest', rfl, rfl⟩ :=
      hT.nextToken_some hfile c _ true _ hnext'
    obtain ⟨rfl, rfl, rfl⟩ := hraw.unique hrest hraw' hrest' (hs.symm.trans hs')
    rw [textToken, hop] at htok
    exact ⟨rest, htok, rfl⟩
  · cases h

/-- `parse_on` reads the first token, if it is not empty without its quotes. -/
theorem FirstToken.onTokenAt (hT : T.Quoting) (hfile : Clean file)
    (htok : FirstToken (file.drop c.pos) tok rest) (hempty : tok ≠ .word "") :
    onTokenAt T file c = some (tok, behind file rest c) := by
  generalize hs : file.drop c.pos = s at htok
  unfold ParseJob.onTokenAt
  cases htok with
  | openParen => rw [if_pos (charAt_iff.mpr ⟨_, hs⟩), skipWhitespace_behind hT hfile hs]
  | closeParen =>
    have hclose := charAt_iff.mpr ⟨_, hs⟩
    rw [if_neg (by rw [hclose.2]; simp), if_pos hclose, skipWhitespace_behind hT hfile hs]
  | @text _ raw word _ hs' hne hraw hrest =>
    have hnot : ∀ ch, isDelim ch = true → ¬(c.pos < file.length ∧ charAt file c.pos = ch) := by
      intro ch hch hparen
      obtain ⟨t, ht⟩ := charAt_iff.mp hparen
      exact hraw.append_ne_cons hne hch (hs'.symm.trans (hs.symm.trans ht))
    have hnext : T.nextToken file c false = (some (String.ofList raw), behind file rest c) :=
      hT.nextToken hfile c false (hs.trans hs') hraw hrest hne
    rw [if_neg (hnot '(' rfl), if_neg (hnot ')' rfl), hnext]
    unfold textToken at hempty ⊢
    cases hop : onOperator (String.ofList raw) with
    | some type => simp [hop]
    | none =>
      have hword : word ≠ [] := by
        rintro rfl
        simp [hop] at hempty
      have hnext' : T.nextToken file c true = (some (String.ofList word), behind file rest c) :=
        hT.nextToken hfile c true (hs.trans hs') hraw hrest hword
      simp [hop, hnext']

theorem FirstToken.suffix (h : FirstToken s tok rest) : rest <:+ s := by
  cases h with
  | openParen => exact List.suffix_cons _ _
  | closeParen => exact List.suffix_cons _ _
  | text hs => exact ⟨_, hs.symm⟩

/-- The tokens that `parse_on` reads are those of the text. -/
theorem Lexed.lexes (hT : T.Quoting) (hfile : Clean file) (h : Lexed T file depth c ts) :
    Lexes (file.drop c.pos) ts := by
  induction h with
  | token hc htok h ih =>
    obtain ⟨rest, hfirst, rfl⟩ := onTokenAt_first hT hfile htok
    rw [drop_behind (hfirst.suffix.trans (List.drop_suffix _ _))] at ih
    exact .token hfirst ih
  | line hc hdepth ha hlt =>
    obtain ⟨a', ha', -, hend⟩ := hT.skipComment hfile _ hc
    rw [ha] at ha'
    cases ha'
    omega
  | @done depth c a hc ha hend =>
    apply Lexes.done
    intro ch hch
    by_contra hne
    obtain ⟨s, hs⟩ := List.head?_eq_some_iff.mp hch
    have htoken := (hT.hasToken hfile c).mpr ⟨ch, s, hs, hne⟩
    rw [hc] at htoken
    cases htoken

/-- `parse_on` reads the tokens of the text. -/
theorem Lexes.lexed (hT : T.Quoting) (hfile : Clean file) (h : Lexes (file.drop c.pos) ts)
    (hempty : .word "" ∉ ts) : Lexed T file depth c ts := by
  generalize hs : file.drop c.pos = s at h
  induction h generalizing c depth with
  | done h =>
    have hc : T.hasToken file c = false := by
      by_contra htoken
      obtain ⟨ch, t, ht, hne⟩ := (hT.hasToken hfile c).mp (by simpa using htoken)
      rw [hs] at ht
      exact hne (h ch (by rw [ht]; rfl))
    obtain ⟨a, ha, -, hend⟩ := hT.skipComment hfile c hc
    exact .done hc ha (.inr hend)
  | token htok h ih =>
    rw [← hs] at htok
    rw [List.mem_cons, not_or] at hempty
    obtain ⟨ch, t, ht, hne⟩ := htok.head
    apply Lexed.token ((hT.hasToken hfile c).mpr ⟨ch, t, ht, hne⟩)
    · exact htok.onTokenAt hT hfile (Ne.symm hempty.1)
    · exact ih hempty.2 (drop_behind (htok.suffix.trans (List.drop_suffix _ _)) c)

/-- A text without line ends has no blank line. -/
theorem not_blankInside (hT : T.Quoting) (hfile : Clean file) : ¬ BlankInside T file depth c := by
  have hcomment : ∀ {c a}, T.hasToken file c = false → T.skipComment file c = (true, a) →
      ¬ a.pos < file.length := by
    intro c a hc ha hlt
    obtain ⟨a', ha', -, hend⟩ := hT.skipComment hfile c hc
    rw [ha] at ha'
    cases ha'
    omega
  intro h
  induction h with
  | here hc _ ha hlt => exact hcomment hc ha hlt
  | token _ _ _ ih => exact ih
  | line hc _ ha hlt => exact hcomment hc ha hlt

/-- `parse_on` can rely on such a tokeniser. -/
theorem Tokeniser.Quoting.lawful (hT : T.Quoting) (hfile : Clean file) : T.Lawful file where
  skipWhitespace_le c := by
    rw [hT.skipWhitespace hfile]
    exact Nat.le_add_right _ _
  hasToken_paren c hc hparen := by
    apply (hT.hasToken hfile c).mpr
    refine ⟨_, _, drop_eq_charAt_cons hc, ?_⟩
    rcases hparen with hparen | hparen <;> rw [hparen] <;> decide
  nextToken_none c dequote h := by
    cases hnext : T.nextToken file c dequote with
    | mk arg a =>
      cases arg with
      | none => rfl
      | some arg =>
        obtain ⟨raw, word, rest, hs, hne, hraw, hrest, -⟩ :=
          hT.nextToken_some hfile c a dequote arg hnext
        obtain ⟨ch, t, ht, hch⟩ := (FirstToken.text hs hne hraw hrest).head
        rw [(hT.hasToken hfile c).mpr ⟨ch, t, ht, hch⟩] at h
        cases h
  nextToken_lt c a dequote arg h := by
    obtain ⟨raw, word, rest, hs, hne, hraw, hrest, -, rfl⟩ :=
      hT.nextToken_some hfile c a dequote arg h
    have hlength := congrArg List.length hs
    have hpos := List.length_pos_iff.mpr hne
    have hle := (rest.dropWhile_suffix isWs).length_le
    rw [List.length_drop, List.length_append] at hlength
    show c.pos < file.length - _ ∧ _
    omega
  skipComment_ok c h _ := by
    obtain ⟨a, ha, hle, -⟩ := hT.skipComment hfile c h
    exact ⟨a, ha, hle⟩

theorem Clean.charAt_ne (hfile : Clean file) (h : c.pos < file.length) :
    charAt file c.pos ≠ '\n' ∧ charAt file c.pos ≠ '\x00' := by
  have hmem : charAt file c.pos ∈ file.drop c.pos := by
    rw [drop_eq_charAt_cons h]
    exact List.mem_cons_self
  exact hfile _ (List.mem_of_mem_drop hmem)

theorem Clean.stepsOverNul (hfile : Clean file) (T : Tokeniser) : StepsOverNul T file := by
  intro c _ hlt
  exact (hfile.charAt_ne hlt).2

/-- What `parse_on` returns is the tree of the tokens of the text. -/
theorem parseOn_lexes (hT : T.Quoting) (hfile : Clean file) {tree : EventOperator}
    (h : (parseOn T file c).1 = .ok tree) :
    ∃ ts, Lexes ((file.drop c.pos).dropWhile isWs) ts ∧ Derives .expr ts tree := by
  obtain ⟨⟨ts, hlex, hderives⟩, -⟩ := parseOn_ok (hT.lawful hfile) (hfile.stepsOverNul T) h
  have hlexes := hlex.lexes hT hfile
  rw [drop_skipWhitespace hT hfile] at hlexes
  exact ⟨ts, hlexes, hderives⟩

/-- `parse_on` returns the tree of the tokens of a text, if no token is empty. -/
theorem Lexes.parseOn (hT : T.Quoting) (hfile : Clean file) {tree : EventOperator}
    (h : Lexes ((file.drop c.pos).dropWhile isWs) ts) (hempty : .word "" ∉ ts)
    (hderives : Derives .expr ts tree) : (parseOn T file c).1 = .ok tree := by
  rw [← drop_skipWhitespace hT hfile] at h
  apply parseOn_specified (hT.lawful hfile) (hfile.stepsOverNul T) (not_blankInside hT hfile)
  exact ⟨ts, h.lexed hT hfile hempty, hderives⟩

/-! ## A tokeniser -/

/-- The tokeniser for texts without line ends. -/
def quotingTokeniser : Tokeniser where
  skipWhitespace := plainTokeniser.skipWhitespace
  hasToken := plainTokeniser.hasToken
  nextToken file c dequote :=
    match scanToken none (file.drop c.pos) with
    | none => (none, c)
    | some (raw, word, rest) =>
      if raw = [] then (none, c)
      else (some (String.ofList (if dequote then word else raw)), behind file rest c)
  skipComment := plainTokeniser.skipComment

theorem quotingTokeniser_quoting : quotingTokeniser.Quoting where
  skipWhitespace {file} hfile c := by
    have hstop : ∀ ch ∈ file.drop c.pos, (!strchr [' ', '\t', '\r'] ch) = !isWs ch := by
      intro ch hch
      have hnul : (ch == '\x00') = false :=
        beq_eq_false_iff_ne.mpr (hfile ch (List.mem_of_mem_drop hch)).2
      simp [strchr, isWs, hnul, Bool.or_assoc]
    show { c with pos := scanTo (fun ch => !strchr [' ', '\t', '\r'] ch) file c.pos } = _
    rw [scanTo_congr hstop]
    simp [scanTo]
  hasToken {file} hfile c := by
    show (decide (c.pos < file.length) && !strchr ['#', '\n'] (charAt file c.pos)) = true ↔ _
    constructor
    · intro h
      simp only [Bool.and_eq_true, decide_eq_true_eq] at h
      refine ⟨_, _, drop_eq_charAt_cons h.1, ?_⟩
      intro hhash
      rw [hhash] at h
      exact absurd h.2 (by decide)
    · intro h
      obtain ⟨ch, s, hs, hne⟩ := h
      obtain ⟨hlt, rfl⟩ := charAt_iff.mpr ⟨s, hs⟩
      obtain ⟨hline, hnul⟩ := hfile.charAt_ne hlt
      simp [strchr, hlt, hne, hline, hnul]
  nextToken_some {file} hfile c a dequote arg h := by
    simp only [quotingTokeniser] at h
    split at h
    · cases h
    rename_i raw word rest hscan
    split at h
    · cases h
    rename_i hne
    cases h
    obtain ⟨hs, hraw, hrest⟩ := scanToken_some (Option.some_ne_none _).symm hscan
    exact ⟨raw, word, rest, hs, hne, hraw, hrest, rfl, rfl⟩
  nextToken {file} hfile c dequote raw word rest hs hraw hrest hne := by
    have hraw_ne : raw ≠ [] := by
      rintro rfl
      cases hraw
      simp at hne
    simp only [quotingTokeniser]
    rw [hs, hraw.scanToken_eq hrest]
    exact if_neg hraw_ne
  skipComment {file} hfile c h := by
    have hhash : c.pos < file.length → charAt file c.pos = '#' := by
      intro hlt
      obtain ⟨hline, hnul⟩ := hfile.charAt_ne hlt
      rcases plainTokeniser_hasToken h with hend | hchar | hchar | hchar
      · omega
      · exact hchar
      · exact absurd hchar hline
      · exact absurd hchar hnul
    have hend : file.length ≤ scanTo (· == '\n') file c.pos := by
      by_contra hlt
      have hstop := scanTo_stop (file.length - c.pos + 1) c.pos (by omega) (Nat.lt_of_not_le hlt)
      have hclean := hfile.charAt_ne (c := ⟨scanTo (· == '\n') file c.pos, 0⟩)
        (Nat.lt_of_not_le hlt)
      exact hclean.1 (beq_iff_eq.mp hstop)
    have hle : c.pos ≤ scanTo (· == '\n') file c.pos := Nat.le_add_right _ _
    simp only [quotingTokeniser, plainTokeniser]
    by_cases hlt : c.pos < file.length
    · rw [if_pos (hhash hlt), if_pos hend]
      exact ⟨_, rfl, hle, hend⟩
    · have hnul : charAt file c.pos ≠ '#' := by
        rw [charAt_of_end (Nat.le_of_not_lt hlt)]
        decide
      rw [if_neg hnul, if_pos (Nat.le_of_not_lt hlt)]
      exact ⟨_, rfl, Nat.le_refl _, Nat.le_of_not_lt hlt⟩

theorem Dequotes.word_subset (h : Dequotes q raw word) : word ⊆ raw := by
  induction h with
  | nil => exact fun _ h => h
  | escape h ih => exact List.subset_cons_of_subset _ (List.cons_subset_cons _ ih)
  | openQuote hc h ih => exact List.subset_cons_of_subset _ ih
  | closeQuote hq h ih => exact List.subset_cons_of_subset _ ih
  | quoted hq hc h ih => exact List.cons_subset_cons _ ih
  | plain hc h ih => exact List.cons_subset_cons _ ih

theorem Tokeniser.Quoting.cleanTokens (hT : T.Quoting) (hfile : Clean file) :
    CleanTokens T file := by
  intro c arg a h
  obtain ⟨raw, word, rest, hs, -, hraw, -, rfl, -⟩ := hT.nextToken_some hfile c a true arg h
  intro ch hch
  apply hfile ch
  apply List.mem_of_mem_drop (i := c.pos)
  rw [hs]
  exact List.mem_append_left _ (hraw.word_subset (by simpa using hch))

end Startup.ParseJob
