import Startup.Environ.Table

/-!
# What a string expands to (`init/environ.c`)

`environ_expand` expands a string in place.  `Expands` says what the references of a
text are replaced by without looking at positions: it only ever reads the text that
was given, never a value that has been substituted.

* `Expands`: the references of a text up to a character that ends it, with the values
  that `look` has;
* `Expands.unique`: a text expands to one result;
* `environExpandUntil_expands`: `environ_expand_until` finds it, with as much fuel as
  the text is long.
-/

namespace Startup

/-! ## The reference semantics -/

/-- What becomes of a text: its expansion and the rest, or an error. -/
abbrev Expansion := Except EnvironError (List Char × List Char)

/-- An expansion with more text before it. -/
def prefixed (text : List Char) (r : Expansion) : Expansion :=
  r.map fun (out, rest) => (text ++ out, rest)

/-- The text that a bracketed reference is replaced by, as in the shell. -/
def substitute (op : ExpandOp) (ignoreEmpty : Bool) (name arg : List Char)
    (value : Option (List Char)) : Except EnvironError (List Char) :=
  let given := value.filter fun v => !(ignoreEmpty && v.isEmpty)
  match op with
  | .value =>
    match value with
    | some v => .ok v
    | none => .error (.unknownParam name)
  | .default => .ok (given.getD arg)
  | .alternate => .ok (if given.isSome then arg else [])

/-- The operator that a text starts with, after the name of a bracketed reference, and the
text behind it. -/
def operatorOf : List Char → Option (ExpandOp × Bool × List Char)
  | ':' :: '-' :: word => some (.default, true, word)
  | ':' :: '+' :: word => some (.alternate, true, word)
  | '-' :: word => some (.default, false, word)
  | '+' :: word => some (.alternate, false, word)
  | '}' :: word => some (.value, false, '}' :: word)
  | [] => some (.value, false, [])
  | _ => none

/-- The characters that end the name of a bracketed reference. -/
def nameStops : List Char := ['}', ':', '-', '+']

/-- The character behind a dollar sign makes a reference. -/
def startsReference : List Char → Bool
  | c :: _ => isNameStart c || c = '{'
  | [] => false

/-- The expansion of a text up to one of the characters `stops`, or to its end.  `look` says
which value a name has. -/
inductive Expands (look : List Char → Option (List Char) → Prop) :
    List Char → List Char → Expansion → Prop where
  | last {stops} : Expands look stops [] (.ok ([], []))
  | stop {stops c cs} (hc : c ≠ '$') (hstop : c ∈ stops) :
      Expands look stops (c :: cs) (.ok ([], c :: cs))
  | plain {stops c cs r} (hc : c ≠ '$') (hstop : c ∉ stops) (h : Expands look stops cs r) :
      Expands look stops (c :: cs) (prefixed [c] r)
  /-- a dollar sign without a reference stays -/
  | lone {stops cs r} (hcs : startsReference cs = false) (h : Expands look stops cs r) :
      Expands look stops ('$' :: cs) (prefixed ['$'] r)
  /-- `${}` is a dollar sign -/
  | dollar {stops cs r} (h : Expands look stops cs r) :
      Expands look stops ('$' :: '{' :: '}' :: cs) (prefixed ['$'] r)
  /-- `$NAME` -/
  | simple {stops c cs value r} (hc : isNameStart c = true)
      (hvalue : look (c :: cs.takeWhile isNameChar) (some value))
      (h : Expands look stops (cs.dropWhile isNameChar) r) :
      Expands look stops ('$' :: c :: cs) (prefixed value r)
  | unknown {stops c cs} (hc : isNameStart c = true)
      (hvalue : look (c :: cs.takeWhile isNameChar) none) :
      Expands look stops ('$' :: c :: cs) (.error (.unknownParam (c :: cs.takeWhile isNameChar)))
  /-- the name in the brackets is itself expanded -/
  | nameFails {stops cs e} (hcs : cs.head? ≠ some '}')
      (hname : Expands look nameStops cs (.error e)) :
      Expands look stops ('$' :: '{' :: cs) (.error e)
  | badOperator {stops cs name tail} (hcs : cs.head? ≠ some '}')
      (hname : Expands look nameStops cs (.ok (name, tail))) (hop : operatorOf tail = none) :
      Expands look stops ('$' :: '{' :: cs) (.error .expectedOperator)
  /-- and so is the word behind the operator -/
  | wordFails {stops cs name tail op ignoreEmpty word e} (hcs : cs.head? ≠ some '}')
      (hname : Expands look nameStops cs (.ok (name, tail)))
      (hop : operatorOf tail = some (op, ignoreEmpty, word))
      (hword : Expands look ['}'] word (.error e)) :
      Expands look stops ('$' :: '{' :: cs) (.error e)
  | unbalanced {stops cs name tail op ignoreEmpty word arg after} (hcs : cs.head? ≠ some '}')
      (hname : Expands look nameStops cs (.ok (name, tail)))
      (hop : operatorOf tail = some (op, ignoreEmpty, word))
      (hword : Expands look ['}'] word (.ok (arg, after))) (hafter : after.head? ≠ some '}') :
      Expands look stops ('$' :: '{' :: cs) (.error .mismatchedBraces)
  | unset {stops cs name tail op ignoreEmpty word arg after value e} (hcs : cs.head? ≠ some '}')
      (hname : Expands look nameStops cs (.ok (name, tail)))
      (hop : operatorOf tail = some (op, ignoreEmpty, word))
      (hword : Expands look ['}'] word (.ok (arg, '}' :: after))) (hvalue : look name value)
      (hsubst : substitute op ignoreEmpty name arg value = .error e) :
      Expands look stops ('$' :: '{' :: cs) (.error e)
  /-- `${NAME}`, or with an operator and a word -/
  | bracketed {stops cs name tail op ignoreEmpty word arg after value text r}
      (hcs : cs.head? ≠ some '}') (hname : Expands look nameStops cs (.ok (name, tail)))
      (hop : operatorOf tail = some (op, ignoreEmpty, word))
      (hword : Expands look ['}'] word (.ok (arg, '}' :: after))) (hvalue : look name value)
      (hsubst : substitute op ignoreEmpty name arg value = .ok text)
      (h : Expands look stops after r) :
      Expands look stops ('$' :: '{' :: cs) (prefixed text r)

variable {look look' : List Char → Option (List Char) → Prop} {stops input pre : List Char}
  {r r' : Expansion} {env : List String}

/-- A semantics that has fewer values has fewer expansions. -/
theorem Expands.mono (hlook : ∀ name value, look name value → look' name value)
    (h : Expands look stops input r) : Expands look' stops input r := by
  induction h with
  | last => exact .last
  | stop hc hstop => exact .stop hc hstop
  | plain hc hstop _ ih => exact .plain hc hstop ih
  | lone hcs _ ih => exact .lone hcs ih
  | dollar _ ih => exact .dollar ih
  | simple hc hvalue _ ih => exact .simple hc (hlook _ _ hvalue) ih
  | unknown hc hvalue => exact .unknown hc (hlook _ _ hvalue)
  | nameFails hcs _ ih => exact .nameFails hcs ih
  | badOperator hcs _ hop ih => exact .badOperator hcs ih hop
  | wordFails hcs _ hop _ ihname ihword => exact .wordFails hcs ihname hop ihword
  | unbalanced hcs _ hop _ hafter ihname ihword => exact .unbalanced hcs ihname hop ihword hafter
  | unset hcs _ hop _ hvalue hsubst ihname ihword =>
    exact .unset hcs ihname hop ihword (hlook _ _ hvalue) hsubst
  | bracketed hcs _ hop _ hvalue hsubst _ ihname ihword ih =>
    exact .bracketed hcs ihname hop ihword (hlook _ _ hvalue) hsubst ih

/-- What becomes of a bracketed reference, step by step. -/
def Brackets (look : List Char → Option (List Char) → Prop) (stops cs : List Char)
    (r : Expansion) : Prop :=
  ∃ rname, Expands look nameStops cs rname ∧
    match rname with
    | .error e => r = .error e
    | .ok (name, tail) =>
      match operatorOf tail with
      | none => r = .error .expectedOperator
      | some (op, ignoreEmpty, word) =>
        ∃ rword, Expands look ['}'] word rword ∧
          match rword with
          | .error e => r = .error e
          | .ok (arg, '}' :: after) =>
            ∃ value, look name value ∧
              match substitute op ignoreEmpty name arg value with
              | .error e => r = .error e
              | .ok text => ∃ rest, Expands look stops after rest ∧ r = prefixed text rest
          | .ok _ => r = .error .mismatchedBraces

/-- A bracketed reference goes through these steps. -/
theorem Expands.brackets {cs : List Char} (hcs : cs.head? ≠ some '}')
    (h : Expands look stops ('$' :: '{' :: cs) r) : Brackets look stops cs r := by
  cases h with
  | stop hc => exact absurd rfl hc
  | plain hc => exact absurd rfl hc
  | lone hlone => simp [startsReference] at hlone
  | dollar => simp at hcs
  | simple hc => exact absurd hc (by decide)
  | unknown hc => exact absurd hc (by decide)
  | nameFails _ hname => exact ⟨_, hname, rfl⟩
  | badOperator _ hname hop => exact ⟨_, hname, by simp only [hop]⟩
  | wordFails _ hname hop hword => exact ⟨_, hname, by simp only [hop]; exact ⟨_, hword, rfl⟩⟩
  | @unbalanced _ _ name tail op ignoreEmpty word arg after _ hname hop hword hafter =>
    refine ⟨_, hname, ?_⟩
    simp only [hop]
    refine ⟨_, hword, ?_⟩
    split
    · rename_i heq
      cases heq
    · rename_i heq
      cases heq
      simp at hafter
    · trivial
  | unset _ hname hop hword hvalue hsubst =>
    exact ⟨_, hname, by simp only [hop]; exact ⟨_, hword, _, hvalue, by simp only [hsubst]⟩⟩
  | bracketed _ hname hop hword hvalue hsubst h =>
    exact ⟨_, hname, by
      simp only [hop]
      exact ⟨_, hword, _, hvalue, by simp only [hsubst]; exact ⟨_, h, rfl⟩⟩⟩

theorem prefixed_eq_ok {text out rest : List Char} (h : prefixed text r = .ok (out, rest)) :
    ∃ out', r = .ok (out', rest) := by
  cases r with
  | error e => cases h
  | ok p =>
    obtain ⟨out', rest'⟩ := p
    cases h
    exact ⟨out', rfl⟩

theorem operatorOf_suffix {tail word : List Char} {op : ExpandOp} {ignoreEmpty : Bool}
    (h : operatorOf tail = some (op, ignoreEmpty, word)) : word <:+ tail := by
  unfold operatorOf at h
  split at h
  all_goals cases h
  · exact ⟨[':', '-'], rfl⟩
  · exact ⟨[':', '+'], rfl⟩
  · exact ⟨['-'], rfl⟩
  · exact ⟨['+'], rfl⟩
  · exact List.suffix_refl _
  · exact List.suffix_refl _

/-- The rest is an end of the text. -/
theorem Expands.rest_suffix {out rest : List Char}
    (h : Expands look stops input (.ok (out, rest))) : rest <:+ input := by
  generalize hr : (.ok (out, rest) : Expansion) = r at h
  induction h generalizing out rest with
  | last => cases hr; exact List.suffix_refl _
  | stop => cases hr; exact List.suffix_refl _
  | plain _ _ _ ih | lone _ _ ih =>
    obtain ⟨out', hr⟩ := prefixed_eq_ok hr.symm
    exact (ih hr.symm).trans (List.suffix_cons _ _)
  | dollar _ ih =>
    obtain ⟨out', hr⟩ := prefixed_eq_ok hr.symm
    exact (ih hr.symm).trans ⟨['$', '{', '}'], rfl⟩
  | @simple stops c cs _ _ _ _ _ ih =>
    obtain ⟨out', hr⟩ := prefixed_eq_ok hr.symm
    exact (ih hr.symm).trans ((List.dropWhile_suffix _).trans ⟨['$', c], rfl⟩)
  | bracketed _ _ hop _ _ _ _ ihname ihword ih =>
    obtain ⟨out', hr⟩ := prefixed_eq_ok hr.symm
    have hword := (ihword rfl).trans ((operatorOf_suffix hop).trans (ihname rfl))
    have hafter := (ih hr.symm).trans ((List.suffix_cons _ _).trans hword)
    exact hafter.trans ⟨['$', '{'], rfl⟩
  | _ => cases hr

/-- Where each name has one value, a text has one expansion. -/
theorem Expands.unique (hlook : ∀ name value value', look name value → look name value' →
    value = value') (h : Expands look stops input r) (h' : Expands look stops input r') :
    r = r' := by
  induction h generalizing r' with
  | last => cases h'; rfl
  | stop hc hstop =>
    cases h' with
    | stop => rfl
    | plain _ hnot => exact absurd hstop hnot
    | _ => exact absurd rfl hc
  | plain hc hnot _ ih =>
    cases h' with
    | stop _ hstop => exact absurd hstop hnot
    | plain _ _ h' => rw [ih h']
    | _ => exact absurd rfl hc
  | lone hcs _ ih =>
    cases h' with
    | stop hc => exact absurd rfl hc
    | plain hc => exact absurd rfl hc
    | lone _ h' => rw [ih h']
    | simple hc => simp [startsReference, hc] at hcs
    | unknown hc => simp [startsReference, hc] at hcs
    | _ => simp [startsReference] at hcs
  | dollar _ ih =>
    cases h' with
    | stop hc => exact absurd rfl hc
    | plain hc => exact absurd rfl hc
    | lone hcs => simp [startsReference] at hcs
    | dollar h' => rw [ih h']
    | simple hc => exact absurd hc (by decide)
    | unknown hc => exact absurd hc (by decide)
    | nameFails hcs => simp at hcs
    | badOperator hcs => simp at hcs
    | wordFails hcs => simp at hcs
    | unbalanced hcs => simp at hcs
    | unset hcs => simp at hcs
    | bracketed hcs => simp at hcs
  | simple hc hvalue _ ih =>
    cases h' with
    | stop hc => exact absurd rfl hc
    | plain hc => exact absurd rfl hc
    | lone hcs => simp [startsReference, hc] at hcs
    | simple _ hvalue' h' =>
      cases hlook _ _ _ hvalue hvalue'
      rw [ih h']
    | unknown _ hvalue' => cases hlook _ _ _ hvalue hvalue'
    | _ => exact absurd hc (by decide)
  | unknown hc hvalue =>
    cases h' with
    | stop hc => exact absurd rfl hc
    | plain hc => exact absurd rfl hc
    | lone hcs => simp [startsReference, hc] at hcs
    | simple _ hvalue' => cases hlook _ _ _ hvalue hvalue'
    | unknown => rfl
    | _ => exact absurd hc (by decide)
  | nameFails hcs _ ih =>
    obtain ⟨rname, hname, hrest⟩ := h'.brackets hcs
    cases ih hname
    exact hrest.symm
  | badOperator hcs _ hop ih =>
    obtain ⟨rname, hname, hrest⟩ := h'.brackets hcs
    cases ih hname
    simp only [hop] at hrest
    exact hrest.symm
  | wordFails hcs _ hop _ ihname ihword =>
    obtain ⟨rname, hname, hrest⟩ := h'.brackets hcs
    cases ihname hname
    simp only [hop] at hrest
    obtain ⟨rword, hword, hrest⟩ := hrest
    cases ihword hword
    exact hrest.symm
  | unbalanced hcs _ hop _ hafter ihname ihword =>
    obtain ⟨rname, hname, hrest⟩ := h'.brackets hcs
    cases ihname hname
    simp only [hop] at hrest
    obtain ⟨rword, hword, hrest⟩ := hrest
    cases ihword hword
    split at hrest
    · rename_i heq
      cases heq
    · rename_i heq
      cases heq
      simp at hafter
    · exact hrest.symm
  | unset hcs _ hop _ hvalue hsubst ihname ihword =>
    obtain ⟨rname, hname, hrest⟩ := h'.brackets hcs
    cases ihname hname
    simp only [hop] at hrest
    obtain ⟨rword, hword, hrest⟩ := hrest
    cases ihword hword
    obtain ⟨value', hvalue', hrest⟩ := hrest
    cases hlook _ _ _ hvalue hvalue'
    simp only [hsubst] at hrest
    exact hrest.symm
  | bracketed hcs _ hop _ hvalue hsubst _ ihname ihword ih =>
    obtain ⟨rname, hname, hrest⟩ := h'.brackets hcs
    cases ihname hname
    simp only [hop] at hrest
    obtain ⟨rword, hword, hrest⟩ := hrest
    cases ihword hword
    obtain ⟨value', hvalue', hrest⟩ := hrest
    cases hlook _ _ _ hvalue hvalue'
    simp only [hsubst] at hrest
    obtain ⟨rest, hafter, rfl⟩ := hrest
    rw [ih hafter]

/-! ## Expanding in place -/

/-- An expansion at a position in a string: the string that it is in, and the position
where it ends. -/
def located (pre : List Char) (r : Expansion) : Except EnvironError (List Char × Nat) :=
  r.map fun (out, rest) => (pre ++ out ++ rest, pre.length + out.length)

theorem located_ok (pre out rest : List Char) :
    located pre (.ok (out, rest)) = .ok (pre ++ out ++ rest, pre.length + out.length) :=
  rfl

theorem located_prefixed (pre text : List Char) (r : Expansion) :
    located pre (prefixed text r) = located (pre ++ text) r := by
  cases r with
  | error e => rfl
  | ok p => simp [located, prefixed, Except.map, Nat.add_assoc]

theorem scanTo_append (stop : Char → Bool) (a b : List Char) :
    scanTo stop (a ++ b) a.length = a.length + (b.takeWhile fun c => !stop c).length := by
  rw [scanTo, List.drop_left]

theorem charAt_append (a b : List Char) (k : Nat) :
    charAt (a ++ b) (a.length + k) = charAt b k := by
  rw [charAt, charAt, List.getD_eq_getElem?_getD, List.getD_eq_getElem?_getD,
    List.getElem?_append_right (Nat.le_add_right _ _), Nat.add_sub_cancel_left]

theorem charAt_left (a b : List Char) : charAt (a ++ b) a.length = charAt b 0 :=
  charAt_append a b 0

theorem slice_middle (a b c : List Char) :
    slice (a ++ b ++ c) a.length (a ++ b).length = b := by
  rw [slice, List.append_assoc, List.drop_left, List.length_append, Nat.add_sub_cancel_left,
    List.take_left' rfl]

theorem slice_append (a b : List Char) (k : Nat) :
    slice (a ++ b) a.length (a.length + k) = b.take k := by
  rw [slice, List.drop_left, Nat.add_sub_cancel_left]

theorem drop_append_add (a b : List Char) (k : Nat) : (a ++ b).drop (a.length + k) = b.drop k := by
  rw [List.drop_append, List.drop_of_length_le (by omega), Nat.add_sub_cancel_left, List.nil_append]

theorem take_takeWhile (p : Char → Bool) (l : List Char) :
    l.take (l.takeWhile p).length = l.takeWhile p :=
  (List.prefix_iff_eq_take.mp (List.takeWhile_prefix p)).symm

theorem drop_takeWhile (p : Char → Bool) (l : List Char) :
    l.drop (l.takeWhile p).length = l.dropWhile p := by
  have h := List.takeWhile_append_dropWhile (p := p) (l := l)
  calc l.drop (l.takeWhile p).length
      = (l.takeWhile p ++ l.dropWhile p).drop (l.takeWhile p).length := by rw [h]
    _ = l.dropWhile p := List.drop_left

theorem Expands.plains (plain : List Char) (hplain : ∀ c ∈ plain, c ≠ '$' ∧ c ∉ stops)
    (h : Expands look stops input r) : Expands look stops (plain ++ input) (prefixed plain r) := by
  induction plain with
  | nil =>
    have hr : prefixed [] r = r := by cases r <;> rfl
    rw [hr]
    exact h
  | cons c plain ih =>
    have hc := hplain c List.mem_cons_self
    have hrest := ih fun c hc => hplain c (List.mem_cons_of_mem _ hc)
    have hr : prefixed (c :: plain) r = prefixed [c] (prefixed plain r) := by cases r <;> rfl
    rw [hr]
    exact .plain hc.1 hc.2 hrest

/-- The value that `environ_getn` finds. -/
def Found (env : List String) (name : List Char) (value : Option (List Char)) : Prop :=
  value = environGetn env name

theorem substitute_eq (op : ExpandOp) (ignoreEmpty : Bool) (name arg : List Char)
    (value : Option (List Char)) :
    substitute op ignoreEmpty name arg value = expandValue op ignoreEmpty name arg value := by
  cases op with
  | value => cases value <;> rfl
  | default | alternate =>
    cases value with
    | none => rfl
    | some v => cases ignoreEmpty <;> cases v <;> rfl

/-- The loop passes over the text before the next reference. -/
theorem environExpandUntil_plain (env : List String) (fuel : Nat) (stops pre input : List Char) :
    let p := fun c => !(c == '$' || stops.contains c)
    environExpandUntil env (fuel + 1) stops (pre ++ input) pre.length =
      environExpandUntil env (fuel + 1) stops ((pre ++ input.takeWhile p) ++ input.dropWhile p)
        (pre ++ input.takeWhile p).length := by
  intro p
  have hwhole : pre ++ input = (pre ++ input.takeWhile p) ++ input.dropWhile p := by
    rw [List.append_assoc, List.takeWhile_append_dropWhile]
  have hnil : (input.dropWhile p).takeWhile p = [] := by
    cases hrest : input.dropWhile p with
    | nil => rfl
    | cons c cs =>
      have hc : p c = false := by
        have h := List.head?_dropWhile_not p input
        rw [hrest] at h
        exact h
      rw [List.takeWhile_cons, hc]
      rfl
  have hscan : scanTo (fun c => c == '$' || stops.contains c) (pre ++ input) pre.length =
      scanTo (fun c => c == '$' || stops.contains c)
        ((pre ++ input.takeWhile p) ++ input.dropWhile p) (pre ++ input.takeWhile p).length := by
    rw [scanTo_append, scanTo_append]
    show pre.length + (input.takeWhile p).length =
      (pre ++ input.takeWhile p).length + ((input.dropWhile p).takeWhile p).length
    rw [hnil, List.length_append]
    rfl
  rw [environExpandUntil, environExpandUntil, hscan, ← hwhole]

/-- The loop stays where a reference or a character of `stops` is, or the end. -/
theorem scanTo_stays {stops pre rest : List Char}
    (hrest : rest.takeWhile (fun c => !(c == '$' || stops.contains c)) = []) :
    scanTo (fun c => c == '$' || stops.contains c) (pre ++ rest) pre.length = pre.length := by
  rw [scanTo_append, hrest]
  rfl

theorem charAt_eq_cons {c : Char} {tail : List Char} (hc : c ≠ '\x00') (h : charAt tail 0 = c) :
    ∃ cs, tail = c :: cs := by
  cases tail with
  | nil => exact absurd h.symm hc
  | cons d cs =>
    cases h
    exact ⟨cs, rfl⟩

/-- A text that begins with no operator. -/
theorem expandOp_none {a tail : List Char} (hnul : '\x00' ∉ tail) (hop : operatorOf tail = none) :
    expandOp (a ++ tail) a.length = .error .expectedOperator := by
  have hcolon : ∀ c, c ≠ '\x00' → charAt tail 0 = ':' ∧ charAt tail 1 = c →
      ∃ cs, tail = ':' :: c :: cs := by
    rintro c hc ⟨h₀, h₁⟩
    obtain ⟨cs, rfl⟩ := charAt_eq_cons (by decide) h₀
    obtain ⟨ds, rfl⟩ := charAt_eq_cons hc h₁
    exact ⟨ds, rfl⟩
  unfold expandOp
  rw [charAt_append, charAt_left]
  rw [if_neg, if_neg, if_neg, if_neg, if_pos]
  · constructor
    · intro h
      obtain ⟨cs, rfl⟩ := charAt_eq_cons (by decide) h
      cases hop
    · intro h
      cases tail with
      | nil => cases hop
      | cons c cs =>
        cases h
        exact hnul List.mem_cons_self
  · intro h
    obtain ⟨cs, rfl⟩ := charAt_eq_cons (by decide) h
    cases hop
  · intro h
    obtain ⟨cs, rfl⟩ := charAt_eq_cons (by decide) h
    cases hop
  · intro h
    obtain ⟨cs, rfl⟩ := hcolon '+' (by decide) h
    cases hop
  · intro h
    obtain ⟨cs, rfl⟩ := hcolon '-' (by decide) h
    cases hop

/-- The operator of a bracketed reference, found at the end of its name. -/
theorem expandOp_some {a tail word : List Char} {op : ExpandOp} {ignoreEmpty : Bool}
    (hop : operatorOf tail = some (op, ignoreEmpty, word)) :
    ∃ skipped, tail = skipped ++ word ∧
      expandOp (a ++ tail) a.length = .ok (op, ignoreEmpty, (a ++ skipped).length) := by
  unfold expandOp
  rw [charAt_append, charAt_left]
  unfold operatorOf at hop
  split at hop
  all_goals cases hop
  · exact ⟨[':', '-'], rfl, by simp [charAt]⟩
  · exact ⟨[':', '+'], rfl, by simp [charAt]⟩
  · exact ⟨['-'], rfl, by simp [charAt]⟩
  · exact ⟨['+'], rfl, by simp [charAt]⟩
  · exact ⟨[], rfl, by simp [charAt]⟩
  · exact ⟨[], rfl, by simp [charAt]⟩

section
variable {env : List String} {fuel : Nat}

/-- Expanding from `pre` on leaves `pre` as it is, and expands the rest. -/
def ExpandsFrom (env : List String) (fuel : Nat) (stops pre input : List Char) : Prop :=
  ∃ r, Expands (Found env) stops input r ∧
    environExpandUntil env fuel stops (pre ++ input) pre.length = located pre r

/-- A reference whose name is the letters behind the dollar sign. -/
theorem expandsFrom_simple {stops pre cs : List Char} {c : Char} (hc : isNameStart c = true)
    (ih : ∀ pre, ExpandsFrom env fuel stops pre (cs.dropWhile isNameChar)) :
    ExpandsFrom env (fuel + 1) stops pre ('$' :: c :: cs) := by
  have hdollar : charAt (pre ++ '$' :: c :: cs) pre.length = '$' := charAt_left _ _
  have hname : charAt (pre ++ '$' :: c :: cs) (pre.length + 1) = c := charAt_append _ _ 1
  have hsplit : pre ++ '$' :: c :: cs = (pre ++ ['$']) ++ c :: cs := by simp
  have hlength : pre.length + 1 = (pre ++ ['$']).length := by simp
  have hchars : ((c :: cs).takeWhile fun c => !(!isNameChar c)) =
      c :: cs.takeWhile isNameChar := by
    have hchar : isNameChar c = true := by simp [isNameChar, hc]
    simp [hchar]
  have hlast : scanTo (fun c => !isNameChar c) (pre ++ '$' :: c :: cs) (pre.length + 1) =
      (pre ++ ['$']).length + (c :: cs.takeWhile isNameChar).length := by
    rw [hsplit, hlength, scanTo_append, hchars]
  have hslice : slice (pre ++ '$' :: c :: cs) (pre.length + 1)
      ((pre ++ ['$']).length + (c :: cs.takeWhile isNameChar).length) =
      c :: cs.takeWhile isNameChar := by
    rw [hsplit, hlength, slice_append, ← hchars, take_takeWhile]
  have hdrop : (pre ++ '$' :: c :: cs).drop
      ((pre ++ ['$']).length + (c :: cs.takeWhile isNameChar).length) =
      cs.dropWhile isNameChar := by
    rw [hsplit, drop_append_add, List.length_cons, List.drop_succ_cons, drop_takeWhile]
  unfold ExpandsFrom
  rw [environExpandUntil, scanTo_stays rfl, hdollar]
  dsimp only
  rw [hname, if_neg (not_not_intro rfl), if_pos hc, hlast, hslice, hdrop]
  cases hvalue : environGetn env (c :: cs.takeWhile isNameChar) with
  | none => exact ⟨_, .unknown hc hvalue.symm, rfl⟩
  | some value =>
    obtain ⟨r, hr, heq⟩ := ih (pre ++ value)
    refine ⟨prefixed value r, .simple hc hvalue.symm hr, ?_⟩
    rw [located_prefixed, ← heq, List.length_append]
    show environExpandUntil env fuel stops _ _ = _
    rw [List.take_left' rfl]

/-- `${}` -/
theorem expandsFrom_dollar {stops pre cs : List Char}
    (ih : ∀ pre, ExpandsFrom env fuel stops pre cs) :
    ExpandsFrom env (fuel + 1) stops pre ('$' :: '{' :: '}' :: cs) := by
  have hdollar : charAt (pre ++ '$' :: '{' :: '}' :: cs) pre.length = '$' := charAt_left _ _
  have hopen : charAt (pre ++ '$' :: '{' :: '}' :: cs) (pre.length + 1) = '{' :=
    charAt_append _ _ 1
  have hclose : charAt (pre ++ '$' :: '{' :: '}' :: cs) (pre.length + 1 + 1) = '}' :=
    charAt_append _ _ 2
  have hdrop : (pre ++ '$' :: '{' :: '}' :: cs).drop (pre.length + 1 + 2) = cs :=
    drop_append_add _ _ 3
  unfold ExpandsFrom
  rw [environExpandUntil, scanTo_stays rfl, hdollar]
  dsimp only
  rw [hopen, hclose, if_neg (not_not_intro rfl), if_neg (by decide), if_pos ⟨rfl, rfl⟩, hdrop]
  obtain ⟨r, hr, heq⟩ := ih (pre ++ ['$'])
  refine ⟨prefixed ['$'] r, .dollar hr, ?_⟩
  rw [located_prefixed, ← heq, List.length_append, List.take_left' rfl]
  rfl

/-- A dollar sign that no reference follows. -/
theorem expandsFrom_lone {stops pre cs : List Char} (hcs : startsReference cs = false)
    (ih : ∀ pre, ExpandsFrom env fuel stops pre cs) :
    ExpandsFrom env (fuel + 1) stops pre ('$' :: cs) := by
  have hdollar : charAt (pre ++ '$' :: cs) pre.length = '$' := charAt_left _ _
  have hnext : charAt (pre ++ '$' :: cs) (pre.length + 1) = charAt cs 0 := charAt_append _ _ 1
  have hfirst : isNameStart (charAt cs 0) = false ∧ charAt cs 0 ≠ '{' := by
    cases cs with
    | nil => decide
    | cons c cs =>
      show isNameStart c = false ∧ c ≠ '{'
      simpa [startsReference] using hcs
  unfold ExpandsFrom
  rw [environExpandUntil, scanTo_stays rfl, hdollar]
  dsimp only
  rw [hnext, if_neg (not_not_intro rfl), hfirst.1, if_neg Bool.false_ne_true,
    if_neg fun h => hfirst.2 h.1, if_neg hfirst.2]
  obtain ⟨r, hr, heq⟩ := ih (pre ++ ['$'])
  refine ⟨prefixed ['$'] r, .lone hcs hr, ?_⟩
  rw [located_prefixed, ← heq, List.length_append, List.append_assoc]
  rfl

/-- A reference in brackets, whose name and word are expanded in place. -/
theorem expandsFrom_brackets {stops pre cs : List Char} (hcs : cs.head? ≠ some '}')
    (hnul : '\x00' ∉ cs)
    (ih : ∀ stops pre input, '$' ∉ stops → input <:+ cs → ExpandsFrom env fuel stops pre input)
    (hstops : '$' ∉ stops) :
    ExpandsFrom env (fuel + 1) stops pre ('$' :: '{' :: cs) := by
  have hdollar : charAt (pre ++ '$' :: '{' :: cs) pre.length = '$' := charAt_left _ _
  have hopen : charAt (pre ++ '$' :: '{' :: cs) (pre.length + 1) = '{' := charAt_append _ _ 1
  have hnext : charAt (pre ++ '$' :: '{' :: cs) (pre.length + 1 + 1) ≠ '}' := by
    rw [charAt_append _ _ 2]
    cases cs with
    | nil => decide
    | cons c cs =>
      intro h
      exact hcs (congrArg some h)
  have hsplit : pre ++ '$' :: '{' :: cs = (pre ++ ['$', '{']) ++ cs := by simp
  have hlength : pre.length + 1 + 1 = (pre ++ ['$', '{']).length := by simp
  obtain ⟨rname, hname, heqname⟩ := ih nameStops (pre ++ ['$', '{']) cs (by decide)
    (List.suffix_refl _)
  unfold ExpandsFrom
  rw [environExpandUntil, scanTo_stays rfl, hdollar]
  dsimp only
  rw [hopen, if_neg (not_not_intro rfl), if_neg (by decide), if_neg fun h => hnext h.2, if_pos rfl,
    hlength, hsplit]
  unfold nameStops at heqname
  rw [heqname]
  cases rname with
  | error e => exact ⟨_, .nameFails hcs hname, rfl⟩
  | ok p =>
    obtain ⟨name, tail⟩ := p
    have htail := hname.rest_suffix
    have hname_end : (pre ++ ['$', '{']).length + name.length =
        (pre ++ ['$', '{'] ++ name).length := List.length_append.symm
    rw [located_ok]
    dsimp only [bind, Except.bind]
    rw [hname_end]
    cases hop : operatorOf tail with
    | none =>
      rw [expandOp_none (fun h => hnul (htail.subset h)) hop]
      exact ⟨_, .badOperator hcs hname hop, rfl⟩
    | some t =>
      obtain ⟨op, ignoreEmpty, word⟩ := t
      obtain ⟨skipped, rfl, hexpand⟩ := expandOp_some (a := pre ++ ['$', '{'] ++ name) hop
      rw [hexpand]
      dsimp only
      obtain ⟨rword, hword, heqword⟩ := ih ['}'] (pre ++ ['$', '{'] ++ name ++ skipped) word
        (by decide) ((List.suffix_append _ _).trans htail)
      rw [← List.append_assoc, heqword]
      cases rword with
      | error e => exact ⟨_, .wordFails hcs hname hop hword, rfl⟩
      | ok q =>
        obtain ⟨arg, after⟩ := q
        have harg_end : (pre ++ ['$', '{'] ++ name ++ skipped).length + arg.length =
            (pre ++ ['$', '{'] ++ name ++ skipped ++ arg).length := List.length_append.symm
        rw [located_ok]
        dsimp only
        rw [harg_end, charAt_left]
        by_cases hafter : charAt after 0 = '}'
        · obtain ⟨after, rfl⟩ := charAt_eq_cons (by decide) hafter
          have hslice_name : slice (pre ++ ['$', '{'] ++ name ++ skipped ++ arg ++ '}' :: after)
              (pre ++ ['$', '{']).length (pre ++ ['$', '{'] ++ name).length = name := by
            rw [List.append_assoc, List.append_assoc (pre ++ ['$', '{'] ++ name), slice_middle]
          have hslice_arg : slice (pre ++ ['$', '{'] ++ name ++ skipped ++ arg ++ '}' :: after)
              (pre ++ ['$', '{'] ++ name ++ skipped).length
              (pre ++ ['$', '{'] ++ name ++ skipped ++ arg).length = arg := slice_middle _ _ _
          have htake : (pre ++ ['$', '{'] ++ name ++ skipped ++ arg ++ '}' :: after).take
              pre.length = pre := by
            simp only [List.append_assoc]
            exact List.take_left' rfl
          have hdrop : (pre ++ ['$', '{'] ++ name ++ skipped ++ arg ++ '}' :: after).drop
              ((pre ++ ['$', '{'] ++ name ++ skipped ++ arg).length + 1) = after :=
            drop_append_add _ _ 1
          rw [if_neg (not_not_intro hafter), hslice_name, hslice_arg, ← substitute_eq]
          cases hsubst : substitute op ignoreEmpty name arg (environGetn env name) with
          | error e => exact ⟨_, .unset hcs hname hop hword rfl hsubst, rfl⟩
          | ok text =>
            dsimp only
            rw [htake, hdrop]
            have hafter_suffix : after <:+ cs :=
              (List.suffix_cons _ _).trans (hword.rest_suffix.trans
                ((List.suffix_append _ _).trans htail))
            obtain ⟨r, hr, heq⟩ := ih stops (pre ++ text) after hstops hafter_suffix
            refine ⟨prefixed text r, .bracketed hcs hname hop hword rfl hsubst hr, ?_⟩
            rw [located_prefixed, ← heq, List.length_append]
        · rw [if_pos hafter]
          refine ⟨_, .unbalanced hcs hname hop hword ?_, rfl⟩
          cases after with
          | nil => simp
          | cons c after =>
            intro h
            exact hafter (Option.some.inj h)

/-- What a dollar sign stands before. -/
theorem expandsFrom_reference {stops pre cs : List Char} (hstops : '$' ∉ stops)
    (hnul : '\x00' ∉ cs)
    (ih : ∀ stops pre input, '$' ∉ stops → input <:+ cs → ExpandsFrom env fuel stops pre input) :
    ExpandsFrom env (fuel + 1) stops pre ('$' :: cs) := by
  by_cases hcs : startsReference cs = false
  · exact expandsFrom_lone hcs fun pre => ih stops pre cs hstops (List.suffix_refl _)
  cases cs with
  | nil => exact absurd rfl hcs
  | cons c cs =>
    by_cases hc : isNameStart c = true
    · refine expandsFrom_simple hc fun pre => ih stops pre _ hstops ?_
      exact (List.dropWhile_suffix _).trans (List.suffix_cons _ _)
    have hopen : c = '{' := by simpa [startsReference, hc] using hcs
    subst hopen
    by_cases hclose : cs.head? = some '}'
    · obtain ⟨cs, rfl⟩ := List.head?_eq_some_iff.mp hclose
      exact expandsFrom_dollar fun pre => ih stops pre cs hstops ⟨['{', '}'], rfl⟩
    · refine expandsFrom_brackets hclose (fun h => hnul (List.mem_cons_of_mem _ h)) ?_ hstops
      intro stops pre input hstops h
      exact ih stops pre input hstops (h.trans (List.suffix_cons _ _))

/-- The end of the text. -/
theorem expandsFrom_last {stops pre : List Char} : ExpandsFrom env (fuel + 1) stops pre [] := by
  have hend : charAt (pre ++ []) pre.length ≠ '$' := by
    rw [charAt_left]
    decide
  refine ⟨_, .last, ?_⟩
  rw [environExpandUntil, scanTo_stays rfl, if_pos hend, located_ok, List.append_nil,
    List.append_nil]
  rfl

/-- A character that ends the text. -/
theorem expandsFrom_stop {stops pre cs : List Char} {c : Char} (hc : c ≠ '$') (hstop : c ∈ stops) :
    ExpandsFrom env (fuel + 1) stops pre (c :: cs) := by
  have hchar : charAt (pre ++ c :: cs) pre.length = c := charAt_left _ _
  refine ⟨_, .stop hc hstop, ?_⟩
  rw [environExpandUntil, scanTo_stays, hchar, if_pos hc, located_ok, List.append_nil]
  · rfl
  · simp [hstop]

end

/-- `environ_expand_until` finds the expansion, with fuel for every character. -/
theorem environExpandUntil_expands (env : List String) (fuel : Nat) :
    ∀ stops pre input : List Char, '$' ∉ stops → '\x00' ∉ input → input.length < fuel →
      ExpandsFrom env fuel stops pre input := by
  induction fuel with
  | zero => exact fun _ _ _ _ _ h => absurd h (Nat.not_lt_zero _)
  | succ fuel ih =>
    intro stops pre input hstops hnul hfuel
    let p := fun c => !(c == '$' || stops.contains c)
    suffices h : ExpandsFrom env (fuel + 1) stops (pre ++ input.takeWhile p)
        (input.dropWhile p) by
      obtain ⟨r, hr, heq⟩ := h
      refine ⟨prefixed (input.takeWhile p) r, ?_, ?_⟩
      · have hplain := hr.plains (input.takeWhile p) fun c hc => by
          have hpc := List.mem_takeWhile_imp hc
          simpa [p] using hpc
        rwa [List.takeWhile_append_dropWhile] at hplain
      · rw [located_prefixed, ← heq]
        exact environExpandUntil_plain env fuel stops pre input
    have hsuffix : input.dropWhile p <:+ input := List.dropWhile_suffix p
    have hfirst := List.head?_dropWhile_not p input
    cases hrest : input.dropWhile p with
    | nil => exact expandsFrom_last
    | cons c cs =>
      rw [hrest] at hsuffix hfirst
      have hrec : ∀ stops pre tail, '$' ∉ stops → tail <:+ cs →
          ExpandsFrom env fuel stops pre tail := by
        intro stops pre tail hstops htail
        have htail_input := (htail.trans (List.suffix_cons c cs)).trans hsuffix
        have hlength := htail.length_le
        have hinput := hsuffix.length_le
        rw [List.length_cons] at hinput
        exact ih stops pre tail hstops (fun h => hnul (htail_input.subset h)) (by omega)
      by_cases hc : c = '$'
      · subst hc
        exact expandsFrom_reference hstops
          (fun h => hnul (hsuffix.subset (List.mem_cons_of_mem _ h))) hrec
      · exact expandsFrom_stop hc (by simpa [p, hc] using hfirst)

end Startup
