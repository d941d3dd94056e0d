import Startup.Lib.PathText

/-!
# Variables in the arguments of an event

The bridges look for the `=` of an argument and compare what stands before it with the names
that they know, over its own length only.

* `splitVariable`: the name and the value.
* `beginsName`: the comparison, which a beginning of the name passes as well.
-/

namespace Startup.Lib

/-- The bytes of a text. -/
def utf8 (s : Text) : List UInt8 := s.flatMap String.utf8EncodeChar

/-- `strchr (env, '=')`: what stands before the first `=`, and what stands behind it. -/
def splitVariable (env : Text) : Option (Text × Text) :=
  if '=' ∈ env then some (env.takeWhile (· ≠ '='), (env.dropWhile (· ≠ '=')).tail) else none

/-- `strncmp (env, name, name_len)` is 0. -/
def beginsName (n name : Text) : Bool := n.isPrefixOf name

variable {env n v : Text}

theorem splitVariable_append (hn : '=' ∉ n) : splitVariable (n ++ '=' :: v) = some (n, v) := by
  have hall : ∀ c ∈ n, decide (c ≠ '=') = true := by
    intro c hc
    have hne : c ≠ '=' := by
      intro heq
      rw [heq] at hc
      exact hn hc
    simpa using hne
  rw [splitVariable, if_pos (by simp), List.takeWhile_append_of_pos hall,
    List.dropWhile_append_of_pos hall]
  simp

theorem splitVariable_eq_some_iff :
    splitVariable env = some (n, v) ↔ env = n ++ '=' :: v ∧ '=' ∉ n := by
  constructor
  · intro h
    by_cases hmem : '=' ∈ env
    · obtain ⟨s, t, rfl, hs⟩ := List.eq_append_cons_of_mem hmem
      rw [splitVariable_append hs] at h
      obtain ⟨rfl, rfl⟩ := Prod.mk.inj (Option.some.inj h)
      exact ⟨rfl, hs⟩
    · rw [splitVariable, if_neg hmem] at h
      contradiction
  · intro h
    obtain ⟨rfl, hn⟩ := h
    exact splitVariable_append hn

end Startup.Lib
