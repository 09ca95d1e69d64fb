import Reckon.Text.Runs
import Reckon.Expression.Flat.Step

/-!
# Every operation makes a text lighter

The weight of a text is the number of its division signs and of its runs of digits.  An operation
replaces two literals by one, which costs at least one run of digits; only a quotient may have a
point that neither of its operands had, and it costs a division sign instead (`weight_replace_lt`).
Freeing a text of spaces and parentheses leaves the weight as it is and makes the text shorter.

So a step either changes nothing or lowers the pair of weight and length (`step_lt`), and working
off an operator until nothing changes comes to an end on every text.
-/

set_option autoImplicit false

namespace Reckon

/-! ## Literals -/

namespace Literal

variable {l : Literal}

/-- A literal has a run of digits on each side of its point; the last one ends in it unless a digit
follows. -/
theorem IsProper.runsBefore_text (h : l.IsProper) (next : Bool) :
    Text.runsBefore next l.text = (if l.places = [] then 0 else 1) + if next then 0 else 1 := by
  have hsign : ∀ c ∈ signText l.negative, c.isDigit = false := by
    unfold signText
    split <;> simp
  rw [text, Text.runsBefore_append, Text.runsBefore_eq_zero hsign, Nat.zero_add,
    Text.runsBefore_append]
  cases hp : l.places with
  | nil => simp [placesText, Text.runsBefore, Text.digitNext,
      Text.runsBefore_digits h.whole_ne_nil h.isDigit_whole]
  | cons c s =>
    have hplaces : Text.runsBefore next (c :: s) = if next then 0 else 1 :=
      Text.runsBefore_digits (by simp) (hp ▸ h.isDigit_places)
    rw [placesText, Text.runsBefore, hplaces]
    · simp [Text.digitNext, Text.runsBefore_digits h.whole_ne_nil h.isDigit_whole]
    · simp

/-- A literal begins with a digit unless it is negative. -/
theorem IsProper.digitNext_text (h : l.IsProper) (next : Bool) :
    Text.digitNext next l.text = !l.negative := by
  obtain ⟨c, s, hw⟩ := List.exists_cons_of_ne_nil h.whole_ne_nil
  have hc : c.isDigit = true := h.isDigit_whole c (by simp [hw])
  cases hn : l.negative <;> simp [text, signText, hn, hw, Text.digitNext, hc]

/-- Behind its sign a literal is made of digits and a point. -/
theorem IsProper.mem_unsigned (h : l.IsProper) {c : Char}
    (hc : c ∈ l.whole ++ placesText l.places) :
    c.isDigit = true ∨ c = '.' := by
  rcases List.mem_append.1 hc with hc | hc
  · exact .inl (h.isDigit_whole c hc)
  · cases hp : l.places with
    | nil => simp [hp, placesText] at hc
    | cons d s =>
      rw [hp, placesText, List.mem_cons] at hc
      rcases hc with rfl | hc
      · exact .inr rfl
      · exact .inl (h.isDigit_places c (hp ▸ hc))
      · simp

/-- A literal is written without a division sign and without parentheses. -/
theorem IsProper.mem_text (h : l.IsProper) {c : Char} (hc : c ∈ l.text) :
    c.isDigit = true ∨ c = '-' ∨ c = '.' := by
  rcases List.mem_append.1 hc with hc | hc
  · unfold signText at hc
    split at hc <;> simp_all
  · exact (h.mem_unsigned hc).imp_right .inr

theorem IsProper.text_ne_nil (h : l.IsProper) : l.text ≠ [] := by
  simp [text, h.whole_ne_nil]

/-- A literal begins with a digit, behind its sign. -/
theorem IsProper.exists_cons (h : l.IsProper) :
    ∃ d u, l.text = signText l.negative ++ d :: u ∧ d.isDigit = true := by
  obtain ⟨d, w, hw⟩ := List.exists_cons_of_ne_nil h.whole_ne_nil
  exact ⟨d, w ++ placesText l.places, by simp [text, hw], h.isDigit_whole d (by simp [hw])⟩

/-- A literal ends in a digit. -/
theorem IsProper.exists_concat (h : l.IsProper) : ∃ u d, l.text = u ++ [d] ∧ d.isDigit = true := by
  cases hp : l.places with
  | nil =>
    obtain ⟨w, d, hw⟩ := List.eq_nil_or_concat l.whole |>.resolve_left h.whole_ne_nil
    refine ⟨signText l.negative ++ w, d, ?_, h.isDigit_whole d (by simp [hw])⟩
    simp [text, hp, placesText, hw]
  | cons c places =>
    obtain ⟨w, d, hw⟩ := List.eq_nil_or_concat l.places |>.resolve_left (by simp [hp])
    refine ⟨signText l.negative ++ (l.whole ++ '.' :: w), d, ?_,
      h.isDigit_places d (by simp [hw])⟩
    have hplaces : placesText l.places = '.' :: l.places := by rw [hp]; rfl
    rw [text, hplaces, hw]
    simp

theorem IsProper.count_text_eq_zero (h : l.IsProper) {c : Char} (hc : c.isDigit = false)
    (hminus : c ≠ '-') (hpoint : c ≠ '.') : l.text.count c = 0 := by
  refine List.count_eq_zero.2 fun hmem ↦ ?_
  rcases h.mem_text hmem with h | h | h
  · rw [h] at hc; cases hc
  · exact hminus h
  · exact hpoint h

end Literal

/-! ## Separators -/

namespace Separator

theorem isBlank_of_mem_spanBlanks {s : Text} : ∀ c ∈ (spanBlanks s).1, Text.isBlank c = true :=
  fun c hc ↦ List.all_eq_true.1 List.all_takeWhile c hc

/-- Around a mark there are blanks. -/
theorem isBlank_of_scanMark? {p : Char → Bool} {s left right rest : Text} {c : Char}
    (h : scanMark? p s = some ((left, c, right), rest)) :
    (∀ d ∈ left, Text.isBlank d = true) ∧ p c = true ∧ ∀ d ∈ right, Text.isBlank d = true := by
  unfold scanMark? at h
  split at h
  · next l d t hs =>
    split at h
    · next hd =>
      cases h
      have hleft := @isBlank_of_mem_spanBlanks s
      rw [hs] at hleft
      exact ⟨hleft, hd, isBlank_of_mem_spanBlanks⟩
    · cases h
  · cases h

/-- Between two operands stand the symbol of the operator and blanks before and behind it. -/
theorem exists_blanks_of_scan? {op : Operator} {s gap rest : Text}
    (h : (Separator.operator op).scan? s = some (gap, rest)) :
    ∃ a b, gap = a ++ op.symbol :: b ∧ ∀ c, c ∈ a ∨ c ∈ b → Text.isBlank c = true := by
  simp only [scan?] at h
  split at h
  · next left d right rest' hm =>
    cases h
    obtain ⟨hleft, hd, hright⟩ := isBlank_of_scanMark? hm
    exact ⟨left, right, by rw [of_decide_eq_true hd], fun c hc ↦ hc.elim (hleft c) (hright c)⟩
  · cases h

/-- Nothing else stands there. -/
theorem mem_gap_operator {op : Operator} {s gap rest : Text} {c : Char}
    (h : (Separator.operator op).scan? s = some (gap, rest)) (hc : c ∈ gap) :
    Text.isBlank c = true ∨ c = op.symbol := by
  obtain ⟨a, b, rfl, hblank⟩ := exists_blanks_of_scan? h
  rcases List.mem_append.1 hc with hc | hc
  · exact .inl (hblank c (.inl hc))
  · rcases List.mem_cons.1 hc with rfl | hc
    · exact .inr rfl
    · exact .inl (hblank c (.inr hc))

/-- The symbol of the operator is there. -/
theorem symbol_mem_gap {op : Operator} {s gap rest : Text}
    (h : (Separator.operator op).scan? s = some (gap, rest)) : op.symbol ∈ gap := by
  obtain ⟨a, b, rfl, -⟩ := exists_blanks_of_scan? h
  simp

theorem isDigit_of_isBlank {c : Char} (h : Text.isBlank c = true) : c.isDigit = false := by
  simp only [Text.isBlank, Bool.or_eq_true, decide_eq_true_eq] at h
  rcases h with ((((h | h) | h) | h) | h) | h <;> subst h <;> decide

theorem isDigit_symbol (op : Operator) : op.symbol.isDigit = false := by cases op <;> rfl

/-- There is no digit between two operands. -/
theorem isDigit_of_mem_gap {op : Operator} {s gap rest : Text} {c : Char}
    (h : (Separator.operator op).scan? s = some (gap, rest)) (hc : c ∈ gap) :
    c.isDigit = false := by
  rcases mem_gap_operator h hc with hc | rfl
  · exact isDigit_of_isBlank hc
  · exact isDigit_symbol op

end Separator

namespace Flat

/-! ## The weight of a text -/

/-- The division signs and the runs of digits of a text. -/
def weight (s : Text) : Nat := s.count '/' + s.digitRuns

/-- A text without digits and division signs at both ends of another adds nothing to its weight. -/
theorem weight_of_append {s t u : Text} (hs : ∀ c ∈ s, c.isDigit = false ∧ c ≠ '/')
    (hu : ∀ c ∈ u, c.isDigit = false ∧ c ≠ '/') : weight (s ++ (t ++ u)) = weight t := by
  have h₁ : s.count '/' = 0 := List.count_eq_zero.2 fun h ↦ (hs _ h).2 rfl
  have h₂ : u.count '/' = 0 := List.count_eq_zero.2 fun h ↦ (hu _ h).2 rfl
  rw [weight, weight, Text.digitRuns_of_append (fun c h ↦ (hs c h).1) (fun c h ↦ (hu c h).1),
    List.count_append, List.count_append, h₁, h₂]
  omega

/-! ## Freeing a text -/

/-- What stands around a text before it is freed: spaces, or spaces and a pair of parentheses. -/
theorem exists_spaces_unwrap (s : Text) :
    ∃ x y, (∀ c, c ∈ x ∨ c ∈ y → Text.isSpace c = true) ∧
      (s = x ++ (unwrap s ++ y) ∨ s = x ++ '(' :: (unwrap s ++ ')' :: y)) := by
  obtain ⟨x, y, hs, hxy⟩ : ∃ x y, s = x ++ (Text.trim s ++ y) ∧
      ∀ c, c ∈ x ∨ c ∈ y → Text.isSpace c = true := by
    refine ⟨s.takeWhile Text.isSpace,
      ((s.dropWhile Text.isSpace).reverse.takeWhile Text.isSpace).reverse, ?_, ?_⟩
    · rw [Text.trim, Text.trimEnd, ← List.reverse_append, List.takeWhile_append_dropWhile,
        List.reverse_reverse, List.takeWhile_append_dropWhile]
    · rintro c (hc | hc)
      · exact List.all_eq_true.1 List.all_takeWhile c hc
      · exact List.all_eq_true.1 List.all_takeWhile c (List.mem_reverse.1 hc)
  refine ⟨x, y, hxy, ?_⟩
  unfold unwrap
  split
  · next t ht =>
    unfold dropClosing?
    split
    · next hlast =>
      have hne : t ≠ [] := by rintro rfl; cases hlast
      have hd : t.dropLast ++ [')'] = t := by
        rw [List.getLast?_eq_some_getLast hne, Option.some.injEq] at hlast
        rw [← hlast, List.dropLast_concat_getLast]
      rw [ht, ← hd] at hs
      exact .inr (by simpa using hs)
    · rw [ht] at hs
      exact .inl hs
  · exact .inl hs

theorem exists_append_unwrap (s : Text) :
    ∃ x y, s = x ++ (unwrap s ++ y) ∧
      ∀ c, c ∈ x ∨ c ∈ y → Text.isSpace c = true ∨ c = '(' ∨ c = ')' := by
  obtain ⟨x, y, hxy, hs | hs⟩ := exists_spaces_unwrap s
  · exact ⟨x, y, hs, fun c hc ↦ .inl (hxy c hc)⟩
  · refine ⟨x ++ ['('], ')' :: y, by simpa using hs, ?_⟩
    intro c hc
    simp only [List.mem_append, List.mem_cons, List.not_mem_nil, or_false] at hc
    rcases hc with (hc | rfl) | rfl | hc
    · exact .inl (hxy c (.inl hc))
    · exact .inr (.inl rfl)
    · exact .inr (.inr rfl)
    · exact .inl (hxy c (.inr hc))

theorem isDigit_of_isSpace {c : Char} (h : Text.isSpace c = true) :
    c.isDigit = false ∧ c ≠ '/' := by
  constructor
  · by_cases hd : c.isDigit = true
    · rw [Char.isDigit_iff_toNat] at hd
      simp only [Text.isSpace, Bool.or_eq_true, Bool.and_eq_true, decide_eq_true_eq] at h
      have h0 : '0'.toNat = 48 := rfl
      have h9 : '9'.toNat = 57 := rfl
      omega
    · simpa using hd
  · rintro rfl
    exact absurd h (by decide)

/-- Freeing a text keeps its weight. -/
theorem weight_unwrap (s : Text) : weight (unwrap s) = weight s := by
  obtain ⟨x, y, hs, hxy⟩ := exists_append_unwrap s
  have key : ∀ c, c ∈ x ∨ c ∈ y → c.isDigit = false ∧ c ≠ '/' := by
    intro c hc
    rcases hxy c hc with h | rfl | rfl
    · exact isDigit_of_isSpace h
    · decide
    · decide
  conv => rhs; rw [hs]
  exact (weight_of_append (fun c hc ↦ key c (.inl hc)) (fun c hc ↦ key c (.inr hc))).symm

/-- Freeing a text makes it shorter, unless it was free. -/
theorem length_unwrap_lt {s : Text} (h : unwrap s ≠ s) : (unwrap s).length < s.length := by
  obtain ⟨x, y, hs, -⟩ := exists_append_unwrap s
  have hlen := congrArg List.length hs
  simp only [List.length_append] at hlen
  rcases Nat.lt_or_ge (unwrap s).length s.length with hlt | hge
  · exact hlt
  · have hx : x = [] := List.eq_nil_of_length_eq_zero (by omega)
    have hy : y = [] := List.eq_nil_of_length_eq_zero (by omega)
    rw [hx, hy, List.nil_append, List.append_nil] at hs
    exact absurd hs.symm h

/-! ## One operation -/

/-- How an occurrence of an operation was recognised. -/
theorem exists_of_search_operation {op : Operator} {s : Text} {o : Occurrence Pair}
    (h : (operation op).search s = some o) :
    o.found.left.IsProper ∧ o.found.right.IsProper ∧
      (∃ t rest, (Separator.operator op).scan? t = some (o.found.gap, rest)) ∧
      o.before ++ (o.found.text ++ o.after) = s := by
  have hscan := (operation op).scan?_of_search h
  obtain ⟨s₁, s₂, h₁, h₂, h₃⟩ := Pair.scan?_eq_some_iff.1 hscan
  exact ⟨Literal.isProper_of_scan? h₁, Literal.isProper_of_scan? h₃, ⟨s₁, s₂, h₂⟩,
    (operation op).append_of_search h⟩

/-- Only a quotient has places where neither operand had any. -/
theorem places_apply {op : Operator} {scale : Int} {a b : Literal} {d : Decimal}
    (h : op.apply scale a.value b.value = .ok d) (hd : d.toLiteral.places ≠ []) :
    a.places ≠ [] ∨ b.places ≠ [] ∨ op = .divide := by
  have hlen : 0 < d.toLiteral.places.length := List.length_pos_iff.2 hd
  rw [Decimal.length_places_toLiteral] at hlen
  have hexp : ∀ l : Literal, l.places = [] → l.value.exponent = 0 := by
    intro l hl; simp [Literal.value, hl]
  by_cases ha : a.places = []
  · by_cases hb : b.places = []
    · refine .inr (.inr ?_)
      have ea := hexp a ha
      have eb := hexp b hb
      cases op with
      | divide => rfl
      | times => cases h; simp only [Decimal.mul, ea, eb] at hlen; omega
      | plus => cases h; simp only [Decimal.add, ea, eb] at hlen; omega
      | minus => cases h; simp only [Decimal.sub, Decimal.add, Decimal.neg, ea, eb] at hlen; omega
      | remainder =>
        simp only [Operator.apply] at h
        split at h
        · cases h
        · cases h; simp only [Decimal.rem, ea, eb] at hlen; omega
    · exact .inr (.inl hb)
  · exact .inl ha

/-- Replacing an occurrence of an operation by the result costs a text the runs of digits of one
literal, apart from those that places make. -/
theorem digitRuns_replace_le {op : Operator} {s : Text} {o : Occurrence Pair} (d : Decimal)
    (h : (operation op).search s = some o) :
    (o.before ++ (d.plain ++ o.after)).digitRuns + 1 +
        (if o.found.left.places = [] then 0 else 1) + (if o.found.right.places = [] then 0 else 1) ≤
      s.digitRuns + if d.toLiteral.places = [] then 0 else 1 := by
  obtain ⟨hl, hr, ⟨t, rest, hgap⟩, hs⟩ := exists_of_search_operation h
  have hres := d.isProper_toLiteral
  have hgapdigit : ∀ c ∈ o.found.gap, c.isDigit = false :=
    fun c hc ↦ Separator.isDigit_of_mem_gap hgap hc
  have hnextgap : ∀ next, Text.digitNext next o.found.gap = false := by
    intro next
    have hmem := Separator.symbol_mem_gap hgap
    cases hg : o.found.gap with
    | nil => rw [hg] at hmem; cases hmem
    | cons c g => exact hgapdigit c (by simp [hg])
  have hfront : Text.runsBefore (!d.negative) o.before ≤
      Text.runsBefore (!o.found.left.negative) o.before := by
    cases hn : o.found.left.negative with
    | true => exact Text.runsBefore_le _ _
    | false =>
      have hlast : ∀ next, Text.runsBefore next o.before = Text.runsBefore false o.before :=
        fun _ ↦ Text.runsBefore_of_getLast? fun c hc ↦ (Pair.getLast?_before_of_search h hn c hc).1
      exact Nat.le_of_eq ((hlast _).trans (hlast _).symm)
  rw [← hs]
  simp only [Text.digitRuns, Decimal.plain, Pair.text, Text.runsBefore_append,
    Text.digitNext_append, hl.digitNext_text, hres.digitNext_text, hl.runsBefore_text,
    hr.runsBefore_text, hres.runsBefore_text, hnextgap, Text.runsBefore_eq_zero hgapdigit,
    Decimal.negative_toLiteral]
  simp only [Bool.false_eq_true, if_false]
  omega

/-- Replacing an occurrence of an operation by the result makes a text lighter. -/
theorem weight_replace_lt {scale : Int} {op : Operator} {s : Text} {o : Occurrence Pair}
    {d : Decimal} (h : (operation op).search s = some o)
    (hd : op.apply scale o.found.left.value o.found.right.value = .ok d) :
    weight (o.before ++ (d.plain ++ o.after)) < weight s := by
  have hruns := digitRuns_replace_le d h
  obtain ⟨hl, hr, ⟨t, rest, hgap⟩, hs⟩ := exists_of_search_operation h
  have hslash := d.isProper_toLiteral.count_text_eq_zero (c := '/') rfl (by decide) (by decide)
  have hslashl := hl.count_text_eq_zero (c := '/') rfl (by decide) (by decide)
  have hslashr := hr.count_text_eq_zero (c := '/') rfl (by decide) (by decide)
  have hplaces : (if d.toLiteral.places = [] then 0 else 1) ≤
      (if o.found.left.places = [] then 0 else 1) + (if o.found.right.places = [] then 0 else 1) +
        o.found.gap.count '/' := by
    split
    · omega
    · next hne =>
      rcases places_apply hd hne with hp | hp | rfl
      · rw [if_neg hp]; omega
      · rw [if_neg hp]; omega
      · have : 0 < o.found.gap.count '/' :=
          List.count_pos_iff.2 (Separator.symbol_mem_gap hgap)
        omega
  have hcount : s.count '/' = o.before.count '/' + (o.found.gap.count '/' + o.after.count '/') := by
    rw [← hs]
    simp only [Pair.text, List.count_append, hslashl, hslashr]
    omega
  simp only [weight, Decimal.plain, List.count_append, hslash, hcount] at hruns ⊢
  omega

/-- An operation changes nothing, there being none to do, or makes the text lighter. -/
theorem collapse_eq_or_lt {scale : Int} {op : Operator} {s t : Text}
    (h : (collapse scale op s).outcome = .ok t) : t = s ∨ weight t < weight s := by
  unfold collapse at h
  split at h
  · next hnone => cases h; exact .inl rfl
  · next o ho =>
    cases hd : op.apply scale o.found.left.value o.found.right.value with
    | error e => simp [hd, Except.bind] at h
    | ok d =>
      simp only [hd, Traced.outcome_bind, Traced.outcome_ofExcept, Except.bind,
        Traced.outcome_record, Traced.outcome_pure, Except.ok.injEq] at h
      rw [← h]
      exact .inr (weight_replace_lt ho hd)

/-- A step that changes a text lowers its weight, or keeps the weight and shortens the text. -/
theorem step_lt {scale : Int} {op : Operator} {s t : Text}
    (h : (step scale op s).outcome = .ok t) (hne : t ≠ s) :
    Prod.Lex (· < ·) (· < ·) (weight t, t.length) (weight s, s.length) := by
  unfold step at h
  cases hc : (collapse scale op s).outcome with
  | error e => simp [hc, Except.bind] at h
  | ok u =>
    simp only [hc, Traced.outcome_bind, Except.bind, Traced.outcome_record, Traced.outcome_pure,
      Except.ok.injEq] at h
    rcases collapse_eq_or_lt hc with rfl | hlt
    · rw [← h] at hne ⊢
      rw [weight_unwrap]
      exact .right _ (length_unwrap_lt hne)
    · rw [← h, weight_unwrap]
      exact .left _ _ hlt

end Flat
end Reckon
