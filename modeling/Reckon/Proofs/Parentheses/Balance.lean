import Reckon.Proofs.Parentheses.Replacement
import Reckon.Proofs.Step

/-!
# Unbalanced parentheses are never accepted

A parenthesis without a partner goes through all of an evaluation.  The passes keep it, since it is
part of no group.  What they leave has closing parentheses first and opening ones after them, so
nowhere in it does one open that is closed later, and of such a text a reduction takes no
parentheses away (`parens_of_step`): operations have none in them, and the pair that freeing a text
takes away would be one that opens and is closed.  But a number has no parentheses.

So a text that has a value has nothing but parentheses with partners, which is to say that its
parentheses are balanced (`IsPaired.isBalanced_text`).
-/

set_option autoImplicit false

namespace Reckon

/-- The parentheses of a text are balanced: at no place have more been closed than opened, and in
the end all of them are closed. -/
structure IsBalanced (s : Text) : Prop where
  closed_le : ∀ p, p <+: s → p.count ')' ≤ p.count '('
  count_eq : s.count '(' = s.count ')'

/-! ## Balanced texts -/

namespace IsBalanced

variable {s t : Text}

theorem append (hs : IsBalanced s) (ht : IsBalanced t) : IsBalanced (s ++ t) where
  closed_le := by
    rintro p ⟨q, hq⟩
    rcases List.append_eq_append_iff.1 hq with ⟨a, ha, -⟩ | ⟨b, rfl, hb⟩
    · exact hs.closed_le p ⟨a, ha.symm⟩
    · have := ht.closed_le b ⟨q, hb.symm⟩
      have := hs.count_eq
      simp only [List.count_append]
      omega
  count_eq := by rw [List.count_append, List.count_append, hs.count_eq, ht.count_eq]

theorem enclose (hs : IsBalanced s) : IsBalanced ('(' :: (s ++ [')'])) where
  closed_le := by
    intro p hp
    rcases List.prefix_cons_iff.1 hp with rfl | ⟨q, rfl, hq⟩
    · exact Nat.le_refl _
    · rcases List.prefix_concat_iff.1 hq with rfl | hq
      · have := hs.count_eq
        simp
        omega
      · have := hs.closed_le q hq
        simp
        omega
  count_eq := by simp [hs.count_eq]

end IsBalanced

theorem isBalanced_singleton {c : Char} (hc : Group.isParen c = false) : IsBalanced [c] := by
  simp only [Group.isParen, Bool.or_eq_false_iff, decide_eq_false_iff_not] at hc
  have hopen : [c].count '(' = 0 := by simp [hc.1]
  have hclose : [c].count ')' = 0 := by simp [hc.2]
  refine ⟨fun p hp ↦ ?_, hopen.trans hclose.symm⟩
  have := hp.sublist.count_le ')'
  omega

namespace Nested.Forest

/-- Where every parenthesis has its partner, the parentheses are balanced. -/
theorem IsPaired.isBalanced_text {f : Forest} (h : f.IsPaired) : IsBalanced f.text := by
  induction f with
  | nil => exact ⟨fun p hp ↦ by simp [List.prefix_nil.1 hp], rfl⟩
  | char c rest ih => exact (isBalanced_singleton (Bool.eq_false_iff.2 h.1)).append (ih h.2)
  | group inner rest ihinner ihrest =>
    have hgroup := ((ihinner h.1).enclose).append (ihrest h.2)
    simpa [text] using hgroup

/-- What stays alone is kept when the groups are replaced: where nothing of it is left, every
parenthesis had its partner. -/
theorem isPaired_of_flatten {scale : Int} {f : Forest} {t : Text} (hf : f.Lacks fun _ ↦ False)
    (h : f.flatten scale = .ok t) (ht : IsBare t) : f.IsPaired := by
  induction f generalizing t with
  | nil => trivial
  | char c rest ih =>
    obtain ⟨u, hu, rfl⟩ := Outcome.map_eq_ok_iff.1 h
    have hc := ht c List.mem_cons_self
    exact ⟨Bool.eq_false_iff.1 hc, ih hf.2 hu fun d hd ↦ ht d (List.mem_cons_of_mem _ hd)⟩
  | group inner rest _ ihrest =>
    obtain ⟨r, -, h⟩ := Outcome.bind_eq_ok_iff.1 h
    obtain ⟨u, hu, rfl⟩ := Outcome.map_eq_ok_iff.1 h
    exact ⟨hf.1, ihrest hf.2 hu (isBare_append.1 ht).2⟩

end Nested.Forest

/-! ## What a reduction leaves of parentheses -/

open Nested

namespace Flat

variable {scale : Int} {op : Operator}

/-- The parentheses of a text. -/
def parens (s : Text) : Text := s.filter Group.isParen

theorem parens_append (s t : Text) : parens (s ++ t) = parens s ++ parens t := by
  simp [parens]

theorem parens_eq_nil_iff {s : Text} : parens s = [] ↔ IsBare s := by
  simp [parens, IsBare]

/-- Replacing a pair keeps the parentheses. -/
theorem parens_replace {s : Text} {o : Occurrence Pair} (d : Decimal)
    (h : (operation op).search s = some o) :
    parens (o.before ++ (d.plain ++ o.after)) = parens s := by
  refine filter_replace (fun c hc ↦ ?_) d h
  simp only [Group.isParen, Bool.or_eq_true, decide_eq_true_eq] at hc
  rcases hc with rfl | rfl
  · exact ⟨rfl, rfl⟩
  · exact ⟨rfl, rfl⟩

/-- Freeing a text keeps the parentheses unless one opens and another closes after it. -/
theorem parens_unwrap {s : Text} (h : ¬ ['(', ')'].Sublist (parens s)) :
    parens (unwrap s) = parens s := by
  obtain ⟨x, y, hxy, hs | hs⟩ := exists_spaces_unwrap s
  · have hx : parens x = [] :=
      parens_eq_nil_iff.2 fun c hc ↦ isParen_of_isSpace (hxy c (.inl hc))
    have hy : parens y = [] :=
      parens_eq_nil_iff.2 fun c hc ↦ isParen_of_isSpace (hxy c (.inr hc))
    conv => rhs; rw [hs]
    rw [parens_append, parens_append, hx, hy, List.nil_append, List.append_nil]
  · refine absurd ?_ h
    have hclose : [')'].Sublist (unwrap s ++ ')' :: y) := List.singleton_sublist.2 (by simp)
    have hsub : ['(', ')'].Sublist s := by
      rw [hs]
      exact (hclose.cons_cons '(').trans (List.sublist_append_right x _)
    exact hsub.filter Group.isParen

theorem parens_of_step {s t : Text} (h : ¬ ['(', ')'].Sublist (parens s))
    (hstep : (step scale op s).outcome = .ok t) : parens t = parens s := by
  rcases eq_unwrap_of_step hstep with ⟨-, rfl⟩ | ⟨o, d, ho, -, rfl⟩
  · exact parens_unwrap h
  · have hreplace := parens_replace d ho
    rw [parens_unwrap (hreplace ▸ h), hreplace]

/-- A reduction keeps all parentheses of a text in which none opens that is closed later. -/
theorem parens_of_reduce {s t : Text} (h : ¬ ['(', ')'].Sublist (parens s))
    (hreduce : (reduce scale s).outcome = .ok t) : parens t = parens s := by
  have hkept : ∀ op u v, parens u = parens s → (step scale op u).outcome = .ok v →
      parens v = parens s := by
    intro op u v hu hstep
    rw [parens_of_step (hu ▸ h) hstep, hu]
  exact reduce_induction hkept hreduce rfl

end Flat

/-! ## Evaluations -/

/-- In what the passes leave, no parenthesis opens that is closed later. -/
theorem not_sublist_of_outcome_resolve {scale : Int} {s t : Text}
    (h : (resolve scale s).outcome = .ok t) : ¬ ['(', ')'].Sublist (Flat.parens t) := by
  intro hsub
  obtain ⟨a, b, rfl, ha, hb⟩ := exists_append_of_outcome_resolve h
  obtain ⟨l, r, hlr, hl, hr⟩ := List.sublist_append_iff.1 (hsub.trans List.filter_sublist)
  cases l with
  | nil =>
    rw [List.nil_append] at hlr
    rw [← hlr] at hr
    exact hb (hr.subset (by simp))
  | cons c l =>
    rw [List.cons_append, List.cons.injEq] at hlr
    rw [← hlr.1] at hl
    exact ha (hl.subset List.mem_cons_self)

/-- The parentheses of a text that has a value all have their partners. -/
theorem isPaired_of_outcome_evaluate {scale : Int} {s : Text} {a : Answer}
    (h : (evaluate scale s).outcome = .ok a) : (Forest.ofText s).IsPaired := by
  obtain ⟨t, ht, u, hu, ha⟩ := outcome_evaluate_eq_ok_iff.1 h
  have hnumber : IsBare u := by
    obtain ⟨l, hl⟩ := exists_ofText?_of_conclude ha
    obtain ⟨hproper, rfl⟩ := Literal.ofText?_eq_some_iff.1 hl
    exact isBare_text hproper
  have hresolve := outcome_resolve_eq_ok_iff.2 ht
  have hparens := Flat.parens_of_reduce (not_sublist_of_outcome_resolve hresolve) hu
  have hbare : IsBare t :=
    Flat.parens_eq_nil_iff.1 (hparens ▸ Flat.parens_eq_nil_iff.2 hnumber)
  exact Forest.isPaired_of_flatten (Forest.ofText_splits s).lacks_nothing ht hbare

theorem isBalanced_of_outcome_evaluate {scale : Int} {s : Text} {a : Answer}
    (h : (evaluate scale s).outcome = .ok a) : IsBalanced s := by
  have hbalanced := (isPaired_of_outcome_evaluate h).isBalanced_text
  rwa [Forest.text_ofText] at hbalanced

/-- **A text whose parentheses are not balanced has no value**, at any scale: its evaluation ends
with a fault. -/
theorem exists_fault_of_not_isBalanced {s : Text} (h : ¬ IsBalanced s) (scale : Int) :
    ∃ e, (evaluate scale s).outcome = .error e := by
  refine Outcome.exists_error_iff.2 ?_
  rintro ⟨a, ha⟩
  exact h (isBalanced_of_outcome_evaluate ha)

/-- A parenthesis that is closed before it is opened is as bad as one that stays open. -/
theorem exists_fault_of_closed_first :
    ¬ IsBalanced ")3 + 4(".toList ∧ ∃ e, (evaluate 2 ")3 + 4(".toList).outcome = .error e := by
  have h : ¬ IsBalanced ")3 + 4(".toList := fun hb ↦
    absurd (hb.closed_le [')'] (by decide)) (by decide)
  exact ⟨h, exists_fault_of_not_isBalanced h 2⟩

end Reckon
