/-!
# Texts

Everything the calculator reads, reduces and answers is a `Text`: a list of characters.  Lists are
what the reduction rules are stated on, since a rule looks at the head of a text, takes a run of
characters of one class, and goes on with what is left.  `String` appears only where a text comes
in or goes out.

There are two notions of white space, and the difference shows.  A *blank* (`isBlank`) is one of six
ASCII characters, and only blanks may stand between a number and an operator.  A *space*
(`isSpace`) is any white space of Unicode, and spaces are what `trim` takes off both ends.
-/

set_option autoImplicit false

namespace Reckon

/-- A text is the list of its characters. -/
abbrev Text := List Char

namespace Text

/-! ## Characters -/

/-- A blank: space, tab, line feed, carriage return, vertical tab or form feed. -/
def isBlank (c : Char) : Bool :=
  c = ' ' || c = '\t' || c = '\n' || c = '\r' || c = '\x0b' || c = '\x0c'

/-- A space: one of the twenty-nine characters that Unicode treats as white space, the four
information separators among them. -/
def isSpace (c : Char) : Bool :=
  let n := c.toNat
  (0x09 ≤ n && n ≤ 0x0d) || (0x1c ≤ n && n ≤ 0x20) || n = 0x85 || n = 0xa0 || n = 0x1680 ||
    (0x2000 ≤ n && n ≤ 0x200a) || n = 0x2028 || n = 0x2029 || n = 0x202f || n = 0x205f ||
    n = 0x3000

/-- Every blank is a space. -/
theorem isSpace_of_isBlank {c : Char} (h : isBlank c = true) : isSpace c = true := by
  simp only [isBlank, Bool.or_eq_true, decide_eq_true_eq] at h
  rcases h with ((((h | h) | h) | h) | h) | h <;> subst h <;> decide

/-! ## Runs of characters -/

/-- Behind the longest run of a class of characters there is none of that class. -/
theorem head?_dropWhile {p : Char → Bool} (s : Text) :
    ∀ c ∈ (s.dropWhile p).head?, p c = false := by
  intro c hc
  have hhead := List.head?_dropWhile_not p s
  rw [hc] at hhead
  exact hhead

theorem exists_run (p : Char → Bool) (s : Text) :
    ∃ run rest, s = run ++ rest ∧ (∀ c ∈ run, p c = true) ∧ ∀ c ∈ rest.head?, p c = false :=
  ⟨s.takeWhile p, s.dropWhile p, List.takeWhile_append_dropWhile.symm,
    fun c hc ↦ List.all_eq_true.1 List.all_takeWhile c hc, head?_dropWhile s⟩

/-! ## Trimming -/

/-- The text without the spaces at its end. -/
def trimEnd (s : Text) : Text :=
  (s.reverse.dropWhile isSpace).reverse

/-- The text without the spaces at both of its ends. -/
def trim (s : Text) : Text :=
  trimEnd (s.dropWhile isSpace)

/-- Trimming leaves characters out and changes none. -/
theorem trim_sublist (s : Text) : (trim s).Sublist s := by
  have hend : ∀ t : Text, (trimEnd t).Sublist t := by
    intro t
    have h := (List.dropWhile_sublist isSpace (l := t.reverse)).reverse
    rwa [List.reverse_reverse] at h
  exact (hend _).trans (List.dropWhile_sublist isSpace)

end Text

end Reckon
