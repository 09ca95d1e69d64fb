import Reckon.Proofs.Row.Text

/-!
# Reducing the text of a row

The text of a row begins and ends with characters of its own, so a step on it leaves the text of a
row again, freed of the spaces and the parentheses that stood around it.  If each step on the text
is one on the row, an operator is worked off in the one as it is in the other
(`outcome_exhaust_of_step`).

Of a row with blanks around its operators that is always true.  To reduce its text is to work the
row off, whatever spaces stand around the text (`outcome_reduce_spaces`), and also when a pair of
parentheses does (`outcome_reduce_enclosed`).
-/

set_option autoImplicit false

namespace Reckon
namespace Row

variable {scale : Int} {op : Operator} {mark : Joint → Text}

/-! ## What stands around a row -/

/-- A text that begins and ends with characters of its own, which are not taken away from it. -/
structure IsFirm (s : Text) : Prop where
  ne_nil : s ≠ []
  head : ∀ c ∈ s.head?, Text.isSpace c = false ∧ c ≠ '('
  last : ∀ c ∈ s.getLast?, Text.isSpace c = false

theorem IsFirm.append {s t u : Text} (hs : IsFirm s) (hu : IsFirm u) : IsFirm (s ++ (t ++ u)) where
  ne_nil := by simp [hs.ne_nil]
  head := by
    intro c hc
    refine hs.head c ?_
    obtain ⟨d, s', hd⟩ := List.exists_cons_of_ne_nil hs.ne_nil
    rw [hd] at hc ⊢
    exact hc
  last := by
    intro c hc
    refine hu.last c ?_
    rwa [← List.append_assoc, List.getLast?_append,
      List.getLast?_eq_some_getLast hu.ne_nil, Option.some_or,
      ← List.getLast?_eq_some_getLast] at hc

theorem isFirm_literal {l : Literal} (h : l.IsProper) : IsFirm l.text where
  ne_nil := by simp [Literal.text, h.whole_ne_nil]
  head := by
    intro c hc
    rcases h.mem_text (List.mem_of_mem_head? hc) with hd | rfl | rfl
    · refine ⟨Flat.isSpace_of_isDigit hd, ?_⟩
      rintro rfl
      cases hd
    · decide
    · decide
  last := by
    intro c hc
    rcases h.mem_text (List.mem_of_getLast? hc) with hd | rfl | rfl
    · exact Flat.isSpace_of_isDigit hd
    · decide
    · decide

theorem isFirm_textBy (mark : Joint → Text) (r : Row Operand) : IsFirm (r.textBy mark) := by
  obtain ⟨x, rest⟩ := r
  induction rest generalizing x with
  | nil => simpa [textBy, tailBy] using isFirm_literal x.2
  | cons p rest ih => exact (isFirm_literal x.2).append (ih p.2)

theorem trim_append {a s b : Text} (ha : ∀ c ∈ a, Text.isSpace c = true) (hs : IsFirm s)
    (hb : ∀ c ∈ b, Text.isSpace c = true) : Text.trim (a ++ (s ++ b)) = s := by
  obtain ⟨c, t, hc⟩ := List.exists_cons_of_ne_nil hs.ne_nil
  obtain ⟨u, d, hd⟩ := List.eq_nil_or_concat s |>.resolve_left hs.ne_nil
  have hhead : Text.isSpace c = false := (hs.head c (by rw [hc]; rfl)).1
  have hlast : Text.isSpace d = false := hs.last d (by rw [hd]; simp)
  have hdrop : (a ++ (s ++ b)).dropWhile Text.isSpace = s ++ b := by
    rw [List.dropWhile_append_of_pos ha, hc]
    simp [hhead]
  have hrev : (s ++ b).reverse.dropWhile Text.isSpace = s.reverse := by
    rw [List.reverse_append,
      List.dropWhile_append_of_pos fun c hc ↦ hb c (List.mem_reverse.1 hc), hd]
    simp [hlast]
  rw [Text.trim, hdrop, Text.trimEnd, hrev, List.reverse_reverse]

/-- Spaces around a text are taken away, and nothing else is. -/
theorem unwrap_append {a s b : Text} (ha : ∀ c ∈ a, Text.isSpace c = true) (hs : IsFirm s)
    (hb : ∀ c ∈ b, Text.isSpace c = true) : Flat.unwrap (a ++ (s ++ b)) = s := by
  obtain ⟨c, t, hc⟩ := List.exists_cons_of_ne_nil hs.ne_nil
  have hne : c ≠ '(' := (hs.head c (by rw [hc]; rfl)).2
  rw [Flat.unwrap, trim_append ha hs hb, hc]
  split
  · next heq => cases heq; exact absurd rfl hne
  · rfl

/-! ## Working off an operator -/

/-- How an operation ends well: it takes place here, or farther behind. -/
theorem collapse?_cons_eq_ok {apply : Operand → Operand → Except Fault Operand} {x y : Operand}
    {j : Joint} {rest : List (Joint × Operand)} {r : Row Operand}
    (h : collapse? apply op x ((j, y) :: rest) = some (.ok r)) :
    (j.operator = op ∧ ∃ z, apply x y = .ok z ∧ r = ⟨z, rest⟩) ∨
      (j.operator ≠ op ∧ ∃ r', collapse? apply op y rest = some (.ok r') ∧ r = cons x j r') := by
  rw [collapse?] at h
  by_cases hop : j.operator = op
  · rw [if_pos hop] at h
    obtain ⟨z, hz, rfl⟩ := Outcome.map_eq_ok_iff.1 (Option.some.inj h)
    exact .inl ⟨hop, z, hz, rfl⟩
  · rw [if_neg hop] at h
    obtain ⟨m, hm, h⟩ := Option.map_eq_some_iff.1 h
    obtain ⟨r', rfl, rfl⟩ := Outcome.map_eq_ok_iff.1 h
    exact .inr ⟨hop, r', hm, rfl⟩

/-- An operation makes a row shorter. -/
theorem length_collapse? {apply : Operand → Operand → Except Fault Operand} {x : Operand}
    {rest : List (Joint × Operand)} {r : Row Operand}
    (h : collapse? apply op x rest = some (.ok r)) : r.rest.length < rest.length := by
  induction rest generalizing x r with
  | nil => cases h
  | cons p rest ih =>
    obtain ⟨j, y⟩ := p
    rcases collapse?_cons_eq_ok h with ⟨-, z, -, rfl⟩ | ⟨-, r', hr', rfl⟩
    · simp
    · have := ih hr'
      simp only [cons, List.length_cons]
      omega

/-- What stands around the text of a row when that is nothing but spaces and parentheses. -/
def IsEdge (s : Text) : Prop := ∀ c ∈ s, Text.isSpace c = true ∨ Group.isParen c = true

theorem isEdge_nil : IsEdge [] := by simp [IsEdge]

/-- It is what freeing a text can take away. -/
theorem IsEdge.isEdge {s : Text} (h : IsEdge s) : ∀ c ∈ s, Flat.isEdge c = true := by
  intro c hc
  rcases h c hc with h | h
  · simp [Flat.isEdge, h]
  · simp [Flat.isEdge, h]

theorem IsEdge.isDigit {s : Text} (h : IsEdge s) {c : Char} (hc : c ∈ s) : c.isDigit = false := by
  rcases h c hc with h | h
  · exact (Flat.isDigit_of_isSpace h).1
  · simp only [Group.isParen, Bool.or_eq_true, decide_eq_true_eq] at h
    rcases h with rfl | rfl <;> rfl

theorem IsEdge.ne {s : Text} (h : IsEdge s) {c d : Char} (hc : c ∈ s)
    (hb : Text.isSpace d = false) (hp : Group.isParen d = false) : c ≠ d := by
  rintro rfl
  rcases h c hc with h | h
  · rw [hb] at h; cases h
  · rw [hp] at h; cases h

theorem IsEdge.closes {s : Text} (h : IsEdge s) : Literal.Closes s := fun _ hc ↦
  ⟨h.isDigit (List.mem_of_mem_head? hc), h.ne (List.mem_of_mem_head? hc) rfl rfl⟩

theorem IsEdge.silent {s : Text} (h : IsEdge s) (sep : Separator) (t : Text) :
    (Pair.pattern sep).Silent s t :=
  (Pair.pattern sep).silent_of_forall t fun _ hc u ↦
    Pair.scan?_eq_none sep (Literal.scan?_cons_eq_none (h.isDigit hc) (h.ne hc rfl rfl) u)

theorem isEdge_open {a : Text} (ha : ∀ c ∈ a, Text.isSpace c = true) : IsEdge ('(' :: a) :=
  List.forall_mem_cons.2 ⟨.inr rfl, fun c hc ↦ .inl (ha c hc)⟩

theorem isEdge_close {b : Text} (hb : ∀ c ∈ b, Text.isSpace c = true) : IsEdge (b ++ [')']) := by
  intro c hc
  rcases List.mem_append.1 hc with hc | hc
  · exact .inl (hb c hc)
  · rw [List.mem_singleton.1 hc]
    exact .inr rfl

theorem enclosed_text (a s b : Text) :
    '(' :: (a ++ (s ++ b) ++ [')']) = ('(' :: a) ++ (s ++ (b ++ [')'])) := by
  simp

/-- A step on a row with spaces and parentheses around it. -/
theorem outcome_step_edges (scale : Int) {a b : Text} (ha : IsEdge a) (hb : IsEdge b)
    {r : Row Operand}
    (h : Reads (.operator op) (fun j ↦ j.operator = op) mark b r.rest) :
    (Flat.step scale op (a ++ (r.textBy mark ++ b))).outcome =
      match collapse? (Operand.apply scale op) op r.first r.rest with
      | some m => m.map fun r' ↦ Flat.unwrap (a ++ (r'.textBy mark ++ b))
      | none => .ok (Flat.unwrap (a ++ (r.textBy mark ++ b))) := by
  have hsearch : (Flat.operation op).search b = none :=
    (Flat.operation op).search_eq_none (hb.silent _ _)
  rw [Flat.outcome_step, Flat.collapse_append (ha.silent _ _), h.collapse_text r.first]
  cases collapse? (Operand.apply scale op) op r.first r.rest with
  | none => rw [Flat.outcome_collapse_of_none hsearch]; rfl
  | some m => cases m <;> rfl

theorem outcome_step_textBy (scale : Int) {r : Row Operand}
    (h : Reads (.operator op) (fun j ↦ j.operator = op) mark [] r.rest) :
    (Flat.step scale op (r.textBy mark)).outcome =
      match collapse? (Operand.apply scale op) op r.first r.rest with
      | some m => m.map fun r' ↦ r'.textBy mark
      | none => .ok (r.textBy mark) := by
  have hspace : ∀ c ∈ ([] : Text), Text.isSpace c = true := by simp
  have hunwrap : ∀ r : Row Operand, Flat.unwrap (r.textBy mark) = r.textBy mark := fun r ↦ by
    simpa using unwrap_append hspace (isFirm_textBy mark r) hspace
  have hstep := outcome_step_edges scale isEdge_nil isEdge_nil h
  simpa only [List.nil_append, List.append_nil, hunwrap] using hstep

/-- To work off an operator in the text of a row is to work it off in the row, if each step on the
text is one on the row. -/
theorem outcome_exhaust_of_step {f : Row Operand → Text} {P : Row Operand → Prop}
    (hstep : ∀ r, P r → (Flat.step scale op (f r)).outcome =
      match collapse? (Operand.apply scale op) op r.first r.rest with
      | some m => m.map f
      | none => .ok (f r))
    (hcollapse : ∀ r r', P r →
      collapse? (Operand.apply scale op) op r.first r.rest = some (.ok r') → P r')
    (r : Row Operand) (hr : P r) :
    (Flat.exhaust scale op (f r)).outcome =
      (workOff (Operand.apply scale op) op r.first r.rest).map f := by
  have hfirst := hstep r hr
  rw [workOff_eq]
  cases hc : collapse? (Operand.apply scale op) op r.first r.rest with
  | none =>
    rw [hc] at hfirst
    exact Flat.outcome_exhaust_of_same hfirst
  | some m =>
    rw [hc] at hfirst
    cases m with
    | error e => exact Flat.outcome_exhaust_of_error hfirst
    | ok r' =>
      rw [Flat.outcome_exhaust_of_step hfirst]
      exact outcome_exhaust_of_step hstep hcollapse r' (hcollapse r r' hr hc)
termination_by r.rest.length
decreasing_by exact length_collapse? hc

theorem outcome_exhaust_text (scale : Int) (op : Operator) (r : Row Operand) :
    (Flat.exhaust scale op r.text).outcome =
      (workOff (Operand.apply scale op) op r.first r.rest).map text := by
  refine outcome_exhaust_of_step (P := fun _ ↦ True) (fun r _ ↦ ?_) (fun _ _ _ _ ↦ trivial) r
    trivial
  have hnone := (Separator.operator op).followed?_eq_none_of_forall (s := []) (by simp)
  exact outcome_step_textBy scale (reads_operator op Literal.closes_nil hnone r.rest)

/-- An operator is worked off in the same way when something stands around the row that a step takes
away, if it is in what the step leaves there. -/
theorem outcome_exhaust_edges {a b c d : Text} (ha : IsEdge a) (hb : IsEdge b)
    (hunwrap : ∀ r : Row Operand, Flat.unwrap (a ++ (r.text ++ b)) = c ++ (r.text ++ d))
    (h : ∀ r : Row Operand, (Flat.exhaust scale op (c ++ (r.text ++ d))).outcome =
      (workOff (Operand.apply scale op) op r.first r.rest).map text) (r : Row Operand) :
    (Flat.exhaust scale op (a ++ (r.text ++ b))).outcome =
      (workOff (Operand.apply scale op) op r.first r.rest).map text := by
  have hnone := (Separator.operator op).followed?_eq_none_of_forall fun _ ↦ hb.isDigit
  have hreads := reads_operator op hb.closes hnone r.rest
  have hstep : (Flat.step scale op (a ++ (r.text ++ b))).outcome = _ :=
    outcome_step_edges scale ha hb hreads
  have hrow := workOff_eq (Operand.apply scale op) op r.first r.rest
  cases hc : collapse? (Operand.apply scale op) op r.first r.rest with
  | none =>
    rw [hc] at hstep
    rw [Flat.outcome_exhaust_of_step (hstep.trans (congrArg Except.ok (hunwrap r))), h]
  | some m =>
    rw [hc] at hstep hrow
    rw [hrow]
    cases m with
    | error e => exact Flat.outcome_exhaust_of_error hstep
    | ok r' =>
      rw [Flat.outcome_exhaust_of_step (hstep.trans (congrArg Except.ok (hunwrap r'))), h]
      rfl

section Spaces

variable {a b : Text} (ha : ∀ c ∈ a, Text.isSpace c = true) (hb : ∀ c ∈ b, Text.isSpace c = true)

include ha hb

theorem outcome_exhaust_spaces (scale : Int) (op : Operator) (r : Row Operand) :
    (Flat.exhaust scale op (a ++ (r.text ++ b))).outcome =
      (workOff (Operand.apply scale op) op r.first r.rest).map text := by
  refine outcome_exhaust_edges (c := []) (d := []) (fun c hc ↦ .inl (ha c hc))
    (fun c hc ↦ .inl (hb c hc)) (fun r ↦ ?_) (fun r ↦ ?_) r
  · rw [text, unwrap_append ha (isFirm_textBy _ r) hb, List.nil_append, List.append_nil]
  · rw [List.nil_append, List.append_nil]
    exact outcome_exhaust_text scale op r

theorem outcome_exhaust_enclosed (scale : Int) (op : Operator) (r : Row Operand) :
    (Flat.exhaust scale op ('(' :: (a ++ (r.text ++ b) ++ [')']))).outcome =
      (workOff (Operand.apply scale op) op r.first r.rest).map text := by
  rw [enclosed_text]
  refine outcome_exhaust_edges (isEdge_open ha) (isEdge_close hb) (fun r ↦ ?_)
    (outcome_exhaust_spaces ha hb scale op) r
  rw [← enclosed_text, Nested.unwrap_enclosed]

end Spaces

/-! ## The check -/

/-- A row passes the check if nothing that must not be there is found in its text. -/
theorem check_edges {a b : Text} (ha : IsEdge a) (hb : IsEdge b) {r : Row Operand}
    (h : ∀ sep ∈ Flat.badSeparators, Reads sep (fun _ ↦ false) mark b r.rest) :
    Flat.check (a ++ (r.textBy mark ++ b)) = .ok () := by
  have hnone : Flat.badBlock? (a ++ (r.textBy mark ++ b)) = none := by
    refine List.findSome?_eq_none_iff.2 fun sep hsep ↦ ?_
    have hsilent : (Pair.pattern sep).Silent (a ++ (r.textBy mark ++ b)) [] := by
      refine (Pattern.silent_append _).2 ⟨ha.silent _ _, ?_⟩
      refine (Pattern.silent_append _).2 ⟨?_, hb.silent _ _⟩
      rw [List.append_nil]
      exact (h sep hsep).silent_text r.first
    rw [(Pair.pattern sep).search_eq_none hsilent]
    rfl
  rw [Flat.check, hnone]

/-! ## All operators -/

theorem outcome_exhaustAll_text (scale : Int) (ops : List Operator) (r : Row Operand) :
    (Flat.exhaustAll scale ops r.text).outcome =
      (workOffAll (Operand.apply scale) ops r).map text := by
  induction ops generalizing r with
  | nil => rfl
  | cons op ops ih =>
    rw [Flat.outcome_exhaustAll_cons, outcome_exhaust_text, workOffAll]
    cases workOff (Operand.apply scale op) op r.first r.rest with
    | error e => rfl
    | ok r' => exact ih r'

/-- Working off an operator takes just this operator out of a row. -/
theorem operators_of_workOff {apply : Operand → Operand → Except Fault Operand} {x : Operand}
    {rest : List (Joint × Operand)} {r : Row Operand} (h : workOff apply op x rest = .ok r) :
    operators r.rest = (operators rest).filter (· ≠ op) := by
  induction rest generalizing x r with
  | nil => cases h; rfl
  | cons p rest ih =>
    obtain ⟨j, y⟩ := p
    have hcons : operators ((j, y) :: rest) = j.operator :: operators rest := rfl
    rw [workOff] at h
    by_cases hop : j.operator = op
    · rw [if_pos hop] at h
      obtain ⟨z, -, hz⟩ := Outcome.bind_eq_ok_iff.1 h
      rw [ih hz, hcons, List.filter_cons_of_neg (by simpa using hop)]
    · rw [if_neg hop] at h
      obtain ⟨r', hr', rfl⟩ := Outcome.map_eq_ok_iff.1 h
      rw [hcons, List.filter_cons_of_pos (by simpa using hop), ← ih hr']
      rfl

theorem operators_of_workOffAll {ops : List Operator} {r r' : Row Operand}
    (h : workOffAll (Operand.apply scale) ops r = .ok r') :
    operators r'.rest = (operators r.rest).filter (· ∉ ops) := by
  induction ops generalizing r with
  | nil =>
    cases h
    exact (List.filter_eq_self.2 (by simp)).symm
  | cons op ops ih =>
    obtain ⟨t, ht, h⟩ := Outcome.bind_eq_ok_iff.1 h
    rw [ih h, operators_of_workOff ht, List.filter_filter]
    refine List.filter_congr fun j _ ↦ ?_
    simp [Bool.and_comm]

/-- When all operators are worked off, a single literal is left. -/
theorem rest_eq_nil {r r' : Row Operand}
    (h : workOffAll (Operand.apply scale) Operator.all r = .ok r') : r'.rest = [] := by
  have hoperators := operators_of_workOffAll h
  have hall : ∀ op, op ∈ Operator.all := fun op ↦ by cases op <;> decide
  rw [List.filter_eq_nil_iff.2 fun op _ ↦ by simp [hall]] at hoperators
  exact List.map_eq_nil_iff.1 hoperators

theorem outcome_reduce_edges {a b : Text} (ha : IsEdge a) (hb : IsEdge b)
    (h : ∀ op (r : Row Operand), (Flat.exhaust scale op (a ++ (r.text ++ b))).outcome =
      (workOff (Operand.apply scale op) op r.first r.rest).map text) (r : Row Operand) :
    (Flat.reduce scale (a ++ (r.text ++ b))).outcome =
      (r.value (Operand.apply scale)).map fun x ↦ x.1.text := by
  have hall : ∀ op ops, (Flat.exhaustAll scale (op :: ops) (a ++ (r.text ++ b))).outcome =
      (workOffAll (Operand.apply scale) (op :: ops) r).map text := by
    intro op ops
    rw [Flat.outcome_exhaustAll_cons, h, workOffAll]
    cases workOff (Operand.apply scale op) op r.first r.rest with
    | error e => rfl
    | ok r' => exact outcome_exhaustAll_text scale ops r'
  have hcheck : Flat.check (a ++ (r.text ++ b)) = .ok () :=
    check_edges ha hb fun sep hsep ↦
      reads_bad hsep hb.closes (sep.followed?_eq_none_of_forall fun _ ↦ hb.isDigit) r.rest
  rw [Flat.outcome_reduce, hcheck, Except.bind, Operator.all, hall, ← Operator.all, value]
  cases hr : workOffAll (Operand.apply scale) Operator.all r with
  | error e => rfl
  | ok r' => simp [Except.map, Functor.map, text, textBy, rest_eq_nil hr, tailBy]

/-- The text of a row has no parentheses. -/
theorem isBare_textBy (hmark : ∀ j, Nested.IsBare (mark j)) (r : Row Operand) :
    Nested.IsBare (r.textBy mark) := by
  obtain ⟨x, rest⟩ := r
  induction rest generalizing x with
  | nil =>
    rw [textBy, tailBy, List.append_nil]
    exact Nested.isBare_text x.2
  | cons p rest ih =>
    exact Nested.isBare_append.2
      ⟨Nested.isBare_text x.2, Nested.isBare_append.2 ⟨hmark p.1, ih p.2⟩⟩

theorem isBare_of_isSpace {s : Text} (hs : ∀ c ∈ s, Text.isSpace c = true) : Nested.IsBare s :=
  fun c hc ↦ Flat.isParen_of_isSpace (hs c hc)

theorem isBare_symbol (op : Operator) : Nested.IsBare [op.symbol] := by
  cases op <;> simp [Nested.IsBare, Operator.symbol, Group.isParen]

theorem isBare_joint (j : Joint) : Nested.IsBare j.text := by
  have hblank : ∀ s : Text, (∀ c ∈ s, Text.isBlank c = true) → Nested.IsBare s := fun s hs ↦
    isBare_of_isSpace fun c hc ↦ Text.isSpace_of_isBlank (hs c hc)
  have hright : Nested.IsBare ([j.operator.symbol] ++ j.right) :=
    Nested.isBare_append.2 ⟨isBare_symbol j.operator, hblank _ j.isBlank_right⟩
  exact Nested.isBare_append.2 ⟨hblank _ j.isBlank_left, hright⟩

/-- **The text of a row with spaces around it is reduced to what the row comes to.** -/
theorem outcome_reduce_spaces (scale : Int) {a b : Text} (ha : ∀ c ∈ a, Text.isSpace c = true)
    (hb : ∀ c ∈ b, Text.isSpace c = true) (r : Row Operand) :
    (Flat.reduce scale (a ++ (r.text ++ b))).outcome =
      (r.value (Operand.apply scale)).map fun x ↦ x.1.text :=
  outcome_reduce_edges (fun c hc ↦ .inl (ha c hc)) (fun c hc ↦ .inl (hb c hc))
    (outcome_exhaust_spaces ha hb scale) r

/-- **The text of a row in parentheses is reduced to what the row comes to.** -/
theorem outcome_reduce_enclosed (scale : Int) {a b : Text} (ha : ∀ c ∈ a, Text.isSpace c = true)
    (hb : ∀ c ∈ b, Text.isSpace c = true) (r : Row Operand) :
    (Flat.reduce scale ('(' :: (a ++ (r.text ++ b) ++ [')']))).outcome =
      (r.value (Operand.apply scale)).map fun x ↦ x.1.text := by
  rw [enclosed_text]
  refine outcome_reduce_edges (isEdge_open ha) (isEdge_close hb) (fun op r ↦ ?_) r
  rw [← enclosed_text]
  exact outcome_exhaust_enclosed ha hb scale op r

end Row
end Reckon
