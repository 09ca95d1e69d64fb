import Reckon.Expression.Flat.Reduce
import Reckon.Expression.Group

/-!
# One pass over the innermost groups

A pass replaces every innermost group of a text, from the left, by what the group reduces to as a
flat expression.  The group is handed over with its parentheses, and the very first step on it takes
them away; nothing that is done later brings any back.  So each replaced group costs the text an
opening parenthesis (`count_pass_lt`), and a pass that finds no group changes nothing.
-/

set_option autoImplicit false

namespace Reckon
namespace Nested

/-! ## The pass -/

/-- Puts a text together from its pieces, the groups among them being reduced. -/
def replaceGroups (scale : Int) : List (Char ⊕ Text) → Traced Text
  | [] => pure []
  | .inl c :: ps => do
    let t ← replaceGroups scale ps
    pure (c :: t)
  | .inr group :: ps => do
    let result ← Flat.reduce scale group
    Traced.record (.grouped group result)
    let t ← replaceGroups scale ps
    pure (result ++ t)

/-- Replaces every innermost group of a text by what it reduces to. -/
def pass (scale : Int) (s : Text) : Traced Text :=
  replaceGroups scale (Group.pattern.pieces s)

/-! ## Texts without parentheses -/

/-- Whether a text has no parentheses. -/
def IsBare (s : Text) : Prop := ∀ c ∈ s, Group.isParen c = false

/-- Whether a text is a bare one between two parentheses. -/
def IsEnclosed (s : Text) : Prop := ∃ t, IsBare t ∧ s = '(' :: (t ++ [')'])

theorem isBare_append {s t : Text} : IsBare (s ++ t) ↔ IsBare s ∧ IsBare t := by
  simp only [IsBare, List.mem_append]
  exact ⟨fun h ↦ ⟨fun c hc ↦ h c (.inl hc), fun c hc ↦ h c (.inr hc)⟩,
    fun h c hc ↦ hc.elim (h.1 c) (h.2 c)⟩

theorem isEnclosed_of_scan? {s group rest : Text} (h : Group.scan? s = some (group, rest)) :
    IsEnclosed group := by
  obtain ⟨t, -, -, rfl⟩ := Group.scan?_eq_some_iff.1 h
  refine ⟨Group.inside t, fun c hc ↦ ?_, rfl⟩
  have := List.all_eq_true.1 (List.all_takeWhile (p := fun c ↦ !Group.isParen c)) c hc
  simpa using this

/-- Literals are bare. -/
theorem isBare_text {l : Literal} (h : l.IsProper) : IsBare l.text := by
  intro c hc
  rcases h.mem_text hc with h | rfl | rfl
  · cases hp : Group.isParen c with
    | false => rfl
    | true =>
      simp only [Group.isParen, Bool.or_eq_true, decide_eq_true_eq] at hp
      rcases hp with rfl | rfl <;> cases h
  · rfl
  · rfl

/-- Blanks and operators are no parentheses. -/
theorem isBare_gap {op : Operator} {s gap rest : Text}
    (h : (Separator.operator op).scan? s = some (gap, rest)) : IsBare gap := by
  intro c hc
  rcases Separator.mem_gap_operator h hc with hb | rfl
  · simp only [Text.isBlank, Bool.or_eq_true, decide_eq_true_eq] at hb
    rcases hb with ((((h | h) | h) | h) | h) | h <;> subst h <;> rfl
  · cases op <;> rfl

theorem isBare_of_search {op : Operator} {s : Text} {o : Occurrence Pair}
    (h : (Flat.operation op).search s = some o) : IsBare o.found.text := by
  obtain ⟨hl, hr, ⟨t, rest, hgap⟩, -⟩ := Flat.exists_of_search_operation h
  exact isBare_append.2 ⟨isBare_text hl, isBare_append.2 ⟨isBare_gap hgap, isBare_text hr⟩⟩

/-! ## Reducing a group -/

/-- Freeing a text brings no parentheses. -/
theorem isBare_unwrap {s : Text} (h : IsBare s) : IsBare (Flat.unwrap s) := by
  obtain ⟨x, y, hs, -⟩ := Flat.exists_append_unwrap s
  rw [hs] at h
  exact (isBare_append.1 (isBare_append.1 h).2).1

/-- There are no spaces around an enclosed text. -/
theorem trim_enclosed (s : Text) : Text.trim ('(' :: (s ++ [')'])) = '(' :: (s ++ [')']) := by
  simp [Text.trim, Text.trimEnd, show Text.isSpace '(' = false by decide,
    show Text.isSpace ')' = false by decide]

/-- Freeing an enclosed text takes its parentheses away. -/
theorem unwrap_enclosed (s : Text) : Flat.unwrap ('(' :: (s ++ [')'])) = s := by
  simp [Flat.unwrap, trim_enclosed, Flat.dropClosing?]

/-- An operation inside parentheses stays inside them. -/
theorem enclosed_of_append {s before found after : Text} (hs : IsBare s) (hfound : IsBare found)
    (h : before ++ (found ++ after) = '(' :: (s ++ [')'])) (hne : found ≠ []) :
    ∃ b a, before = '(' :: b ∧ after = a ++ [')'] ∧ IsBare b ∧ IsBare a := by
  obtain ⟨c, found, rfl⟩ := List.exists_cons_of_ne_nil hne
  cases before with
  | nil =>
    simp only [List.nil_append, List.cons_append, List.cons.injEq] at h
    have := hfound c List.mem_cons_self
    rw [h.1] at this
    cases this
  | cons p b =>
    simp only [List.cons_append, List.cons.injEq] at h
    obtain ⟨rfl, h⟩ := h
    rcases List.eq_nil_or_concat after with rfl | ⟨a, q, rfl⟩
    · have hlast := congrArg List.getLast? h
      rw [List.append_nil, List.getLast?_append, List.getLast?_append] at hlast
      rw [List.getLast?_eq_some_getLast (l := c :: found) (by simp)] at hlast
      simp only [Option.some_or, List.getLast?_singleton, Option.some.injEq] at hlast
      have := hfound _ (List.getLast_mem (l := c :: found) (by simp))
      rw [hlast] at this
      cases this
    · rw [List.concat_eq_append] at h ⊢
      have h' : (b ++ (c :: found ++ a)) ++ [q] = s ++ [')'] := by simpa using h
      obtain ⟨hs', hq⟩ := List.append_inj' h' rfl
      rw [← hs'] at hs
      simp only [List.cons.injEq, and_true] at hq
      have hb := isBare_append.1 hs
      exact ⟨b, a, rfl, by rw [hq], hb.1, (isBare_append.1 hb.2).2⟩

section Replace

variable {op : Operator} {s : Text} {o : Occurrence Pair} (d : Decimal)
  (ho : (Flat.operation op).search s = some o)

include ho

/-- Replacing a pair in a bare text leaves a bare one. -/
theorem isBare_replace (hs : IsBare s) : IsBare (o.before ++ (d.plain ++ o.after)) := by
  rw [← (Flat.operation op).append_of_search ho] at hs
  have hb := isBare_append.1 hs
  exact isBare_append.2
    ⟨hb.1, isBare_append.2 ⟨isBare_text d.isProper_toLiteral, (isBare_append.1 hb.2).2⟩⟩

/-- Replacing a pair in an enclosed text leaves an enclosed one. -/
theorem isEnclosed_replace (hs : IsEnclosed s) : IsEnclosed (o.before ++ (d.plain ++ o.after)) := by
  obtain ⟨t, ht, rfl⟩ := hs
  obtain ⟨b, a, hb, ha, hbare, habare⟩ := enclosed_of_append ht (isBare_of_search ho)
    ((Flat.operation op).append_of_search ho)
    ((Flat.operation op).text_ne_nil ((Flat.operation op).scan?_of_search ho))
  refine ⟨b ++ (d.plain ++ a), ?_, by rw [hb, ha]; simp⟩
  exact isBare_append.2 ⟨hbare, isBare_append.2 ⟨isBare_text d.isProper_toLiteral, habare⟩⟩

end Replace

/-- Freeing a bare or enclosed text leaves a bare one. -/
theorem isBare_unwrap_of_isEnclosed {s : Text} (hs : IsBare s ∨ IsEnclosed s) :
    IsBare (Flat.unwrap s) := by
  rcases hs with hs | ⟨t, ht, rfl⟩
  · exact isBare_unwrap hs
  · rwa [unwrap_enclosed]

/-- A step on a bare or enclosed text leaves a bare one. -/
theorem isBare_of_step {scale : Int} {op : Operator} {s t : Text}
    (hs : IsBare s ∨ IsEnclosed s) (h : (Flat.step scale op s).outcome = .ok t) : IsBare t := by
  unfold Flat.step at h
  cases hc : (Flat.collapse scale op s).outcome with
  | error e => simp [hc, Except.bind] at h
  | ok u =>
    simp only [hc, Traced.outcome_bind, Except.bind, Traced.outcome_record, Traced.outcome_pure,
      Except.ok.injEq] at h
    subst h
    unfold Flat.collapse at hc
    split at hc
    · cases hc
      exact isBare_unwrap_of_isEnclosed hs
    · next o ho =>
      cases hd : op.apply scale o.found.left.value o.found.right.value with
      | error e => simp [hd, Except.bind] at hc
      | ok d =>
        simp only [hd, Traced.outcome_bind, Traced.outcome_ofExcept, Except.bind,
          Traced.outcome_record, Traced.outcome_pure, Except.ok.injEq] at hc
        subst hc
        exact isBare_unwrap_of_isEnclosed (hs.imp (isBare_replace d ho) (isEnclosed_replace d ho))

theorem isBare_of_exhaust {scale : Int} {op : Operator} {s t : Text}
    (hs : IsBare s ∨ IsEnclosed s) (h : (Flat.exhaust scale op s).outcome = .ok t) : IsBare t := by
  induction s using Flat.exhaust.induct scale op with
  | case1 s journal e hstep => rw [Flat.exhaust] at h; split at h <;> simp_all
  | case2 s journal hstep =>
    rw [Flat.exhaust] at h
    have hbare := isBare_of_step hs (congrArg Traced.outcome hstep)
    split at h <;> simp_all
  | case3 s journal u hstep hne ih =>
    rw [Flat.exhaust] at h
    have hbare := isBare_of_step hs (congrArg Traced.outcome hstep)
    split at h <;> simp_all

/-- Working off one or more operators leaves a bare text. -/
theorem isBare_of_exhaustAll {scale : Int} {op : Operator} {ops : List Operator} {s t : Text}
    (hs : IsBare s ∨ IsEnclosed s)
    (h : (Flat.exhaustAll scale (op :: ops) s).outcome = .ok t) : IsBare t := by
  rw [Flat.exhaustAll, Traced.outcome_bind] at h
  cases he : (Flat.exhaust scale op s).outcome with
  | error e => simp [he, Except.bind] at h
  | ok u =>
    simp only [he, Except.bind] at h
    have hu := isBare_of_exhaust hs he
    cases ops with
    | nil => cases h; exact hu
    | cons op ops => exact isBare_of_exhaustAll (.inl hu) h

/-- What a group reduces to has no parentheses. -/
theorem isBare_of_reduce {scale : Int} {s t : Text} (hs : IsEnclosed s)
    (h : (Flat.reduce scale s).outcome = .ok t) : IsBare t := by
  rw [Flat.reduce, Traced.outcome_bind, Traced.outcome_ofExcept] at h
  cases hc : Flat.check s with
  | error e => simp [hc, Except.bind] at h
  | ok u =>
    simp only [hc, Except.bind] at h
    exact isBare_of_exhaustAll (.inr hs) h

/-! ## A pass costs parentheses -/

theorem count_eq_zero_of_isBare {s : Text} (h : IsBare s) : s.count '(' = 0 :=
  List.count_eq_zero.2 fun hmem ↦ absurd (h _ hmem) (by decide)

/-- Reducing the groups among some pieces changes nothing, or costs opening parentheses. -/
theorem replaceGroups_eq_or_lt {scale : Int} {ps : List (Char ⊕ Text)} {t : Text}
    (hps : ∀ group, Sum.inr group ∈ ps → IsEnclosed group)
    (h : (replaceGroups scale ps).outcome = .ok t) :
    t = ps.flatMap Group.pattern.pieceText ∨
      t.count '(' < (ps.flatMap Group.pattern.pieceText).count '(' := by
  induction ps generalizing t with
  | nil => cases h; exact .inl rfl
  | cons piece ps ih =>
    have hps' : ∀ group, Sum.inr group ∈ ps → IsEnclosed group :=
      fun g hg ↦ hps g (List.mem_cons_of_mem _ hg)
    cases piece with
    | inl c =>
      simp only [replaceGroups, Traced.outcome_bind, Traced.outcome_pure] at h
      cases hr : (replaceGroups scale ps).outcome with
      | error e => simp [hr, Except.bind] at h
      | ok u =>
        simp only [hr, Except.bind, Except.ok.injEq] at h
        subst h
        rcases ih hps' hr with rfl | hlt
        · exact .inl rfl
        · right
          simp only [List.flatMap_cons, Pattern.pieceText, List.singleton_append, List.count_cons]
          omega
    | inr group =>
      obtain ⟨u, -, hgroup⟩ := hps group List.mem_cons_self
      simp only [replaceGroups, Traced.outcome_bind, Traced.outcome_pure,
        Traced.outcome_record] at h
      cases hf : (Flat.reduce scale group).outcome with
      | error e => simp [hf, Except.bind] at h
      | ok r =>
        simp only [hf, Except.bind] at h
        cases hr : (replaceGroups scale ps).outcome with
        | error e => simp [hr] at h
        | ok v =>
          simp only [hr, Except.ok.injEq] at h
          subst h
          right
          have hzero := count_eq_zero_of_isBare
            (isBare_of_reduce (hps group List.mem_cons_self) hf)
          have hone : 0 < group.count '(' := List.count_pos_iff.2 (by simp [hgroup])
          simp only [List.flatMap_cons, Pattern.pieceText, List.count_append, hzero,
            Group.pattern, id]
          rcases ih hps' hr with rfl | hlt
          · simp only [Group.pattern]; omega
          · simp only [Group.pattern] at hlt; omega

/-- A pass that changes a text costs it opening parentheses. -/
theorem count_pass_lt {scale : Int} {s t : Text} (h : (pass scale s).outcome = .ok t)
    (hne : t ≠ s) : t.count '(' < s.count '(' := by
  have hps : ∀ group, Sum.inr group ∈ Group.pattern.pieces s → IsEnclosed group := by
    intro group hgroup
    obtain ⟨u, rest, hscan⟩ := Group.pattern.exists_scan?_of_mem_pieces hgroup
    exact isEnclosed_of_scan? hscan
  have := replaceGroups_eq_or_lt hps h
  rw [Group.pattern.flatMap_pieceText_pieces] at this
  exact this.resolve_left hne

end Nested
end Reckon
