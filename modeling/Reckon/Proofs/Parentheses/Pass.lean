import Reckon.Proofs.Parentheses.Recursion
import Reckon.Proofs.Search

/-!
# The passes over innermost groups take the recursion's way

`Nested.resolve` knows nothing of pairs.  It replaces all innermost groups of a text at once, and
does so again until the text stays as it is.

* `pieces_text`: the innermost groups that a pass finds in a text are the leaves of its forest, so
  `Forest.pass` is the pass as it looks from the forest (`outcome_pass_text`).
* A pass takes the leaves away (`count_text_of_pass`) and leaves what `flatten` makes of the forest
  as it was (`flatten_of_pass`).
* `outcome_resolveFrom_text`: the passes end with the text that the recursion gives, or, where it
  gives none, with the fault of some group.
-/

set_option autoImplicit false

namespace Reckon
namespace Nested

namespace Forest

variable {scale : Int}

/-! ## The innermost groups of a text -/

/-- The pieces that a text is cut into: its leaves, and single characters. -/
def pieces : Forest → List (Char ⊕ Text)
  | nil => []
  | char c rest => .inl c :: rest.pieces
  | group inner rest =>
    (if inner.isFlat then [.inr ('(' :: (inner.text ++ [')']))]
      else .inl '(' :: (inner.pieces ++ [.inl ')'])) ++ rest.pieces

theorem beyond_append {s : Text} (hs : IsBare s) {c : Char} (hc : Group.isParen c = true)
    (t : Text) : Group.beyond (s ++ c :: t) = c :: t := by
  rw [Group.beyond, List.dropWhile_append_of_pos fun d hd ↦ by simp [hs d hd]]
  simp [hc]

theorem inside_append {s : Text} (hs : IsBare s) {c : Char} (hc : Group.isParen c = true)
    (t : Text) : Group.inside (s ++ c :: t) = s := by
  rw [Group.inside, List.takeWhile_append_of_pos fun d hd ↦ by simp [hs d hd]]
  simp [hc]

/-- The first parenthesis of a text with groups opens one, when all parentheses have partners. -/
theorem IsPaired.exists_open {f : Forest} (h : f.IsPaired) (hflat : f.isFlat = false) :
    ∃ s t, IsBare s ∧ f.text = s ++ '(' :: t := by
  induction f with
  | nil => cases hflat
  | char c rest ih =>
    obtain ⟨s, t, hs, ht⟩ := ih h.2 hflat
    refine ⟨c :: s, t, fun d hd ↦ ?_, by rw [text, ht, List.cons_append]⟩
    rcases List.mem_cons.1 hd with rfl | hd
    · exact Bool.eq_false_iff.2 h.1
    · exact hs d hd
  | group inner rest _ _ => exact ⟨[], _, by simp [IsBare], rfl⟩

/-- The first parenthesis of a text, if there is one, opens a group when no closing one is without
a partner. -/
theorem Lacks.beyond_text {f : Forest} (h : f.Lacks fun c ↦ c = ')') :
    Group.beyond f.text = [] ∨ ∃ t, Group.beyond f.text = '(' :: t := by
  induction f with
  | nil => exact .inl rfl
  | char c rest ih =>
    by_cases hc : c = '('
    · exact .inr ⟨rest.text, by simp [text, hc, Group.beyond, Group.isParen]⟩
    · have hbeyond : Group.beyond (char c rest).text = Group.beyond rest.text := by
        simp [text, Group.beyond, Group.isParen, hc, h.1]
      rw [hbeyond]
      exact ih h.2
  | group inner rest _ _ => exact .inr ⟨_, by simp [text, Group.beyond, Group.isParen]; rfl⟩

/-- An opening parenthesis begins no innermost group when the next parenthesis does not close it. -/
theorem scan?_open_eq_none {s : Text} (h : ∀ t, Group.beyond s ≠ ')' :: t) :
    Group.pattern.scan? ('(' :: s) = none := by
  show Group.scan? ('(' :: s) = none
  unfold Group.scan?
  split
  · next heq =>
    cases heq
    split
    · next t ht => exact absurd ht (h t)
    · rfl
  · rfl

/-- Nothing but an opening parenthesis begins a group. -/
theorem scan?_cons_of_ne {c : Char} (hc : c ≠ '(') (s : Text) :
    Group.pattern.scan? (c :: s) = none := by
  show Group.scan? (c :: s) = none
  unfold Group.scan?
  split
  · next heq => cases heq; exact absurd rfl hc
  · rfl

/-- A group is cut out as a whole if it is a leaf, and gone through otherwise. -/
theorem pieces_group {inner : Forest} (h : inner.IsPaired) (t : Text)
    (ih : ∀ u, Group.pattern.pieces (inner.text ++ u) = inner.pieces ++ Group.pattern.pieces u) :
    Group.pattern.pieces ('(' :: (inner.text ++ ')' :: t)) =
      (group inner nil).pieces ++ Group.pattern.pieces t := by
  cases hflat : inner.isFlat with
  | true =>
    have hbare := h.isBare_text hflat
    have hscan : Group.pattern.scan? ('(' :: (inner.text ++ ')' :: t)) =
        some ('(' :: (inner.text ++ [')']), t) := by
      refine Group.scan?_eq_some_iff.2 ⟨_, rfl, beyond_append hbare rfl t, ?_⟩
      rw [inside_append hbare rfl]
    rw [Pattern.pieces_of_scan? _ hscan]
    simp [pieces, hflat]
  | false =>
    obtain ⟨s, u, hs, hu⟩ := h.exists_open hflat
    have hscan : Group.pattern.scan? ('(' :: (inner.text ++ ')' :: t)) = none := by
      refine scan?_open_eq_none fun v ↦ ?_
      rw [hu, List.append_assoc, List.cons_append, beyond_append hs rfl]
      simp
    have hclose : Group.pattern.scan? (')' :: t) = none := rfl
    rw [Pattern.pieces_of_scan?_eq_none _ hscan, ih, Pattern.pieces_of_scan?_eq_none _ hclose]
    simp [pieces, hflat]

/-- Where every opening parenthesis has its partner, the text that follows is of no account. -/
theorem pieces_text_append {f : Forest} (h : f.Lacks fun c ↦ c = '(') (s : Text) :
    Group.pattern.pieces (f.text ++ s) = f.pieces ++ Group.pattern.pieces s := by
  induction f generalizing s with
  | nil => rfl
  | char c rest ih =>
    rw [text, List.cons_append, Pattern.pieces_of_scan?_eq_none _ (scan?_cons_of_ne h.1 _), ih h.2]
    rfl
  | group inner rest ihinner ihrest =>
    have hinner : inner.Lacks fun c ↦ c = '(' := IsPaired.lacks h.1 (by rintro c rfl; rfl)
    rw [text, List.cons_append, List.append_assoc, List.cons_append,
      pieces_group h.1 _ (ihinner hinner), ihrest h.2]
    simp [pieces]

theorem pieces_text_of_lacks_close {f : Forest} (h : f.Lacks fun c ↦ c = ')') :
    Group.pattern.pieces f.text = f.pieces := by
  induction f with
  | nil => simp [text, pieces, Pattern.pieces]
  | char c rest ih =>
    have hscan : Group.pattern.scan? (c :: rest.text) = none := by
      by_cases hc : c = '('
      · -- the next parenthesis, if there is one, opens a group of its own
        subst hc
        refine scan?_open_eq_none fun t ↦ ?_
        rcases h.2.beyond_text with hnil | ⟨u, hu⟩
        · simp [hnil]
        · simp [hu]
      · exact scan?_cons_of_ne hc _
    rw [text, Pattern.pieces_of_scan?_eq_none _ hscan, ih h.2]
    rfl
  | group inner rest _ ihrest =>
    have hinner : inner.Lacks fun c ↦ c = '(' := IsPaired.lacks h.1 (by rintro c rfl; rfl)
    rw [text, pieces_group h.1 _ (pieces_text_append hinner), ihrest h.2]
    simp [pieces]

theorem pieces_append (f g : Forest) : (f ++ g).pieces = f.pieces ++ g.pieces := by
  induction f with
  | nil => rfl
  | char c rest ih => simp [pieces, ih]
  | group inner rest _ ih => simp [pieces, ih]

/-- The innermost groups of a text are the leaves of its forest. -/
theorem pieces_text {f : Forest} (h : f.Splits) : Group.pattern.pieces f.text = f.pieces := by
  obtain ⟨g, h, rfl, hg, hh⟩ := h
  rw [text_append, pieces_text_append hg, pieces_text_of_lacks_close hh, pieces_append]

/-! ## One pass -/

/-- A forest with its leaves replaced by what they reduce to. -/
def pass (scale : Int) : Forest → Except Fault Forest
  | nil => .ok nil
  | char c rest => (rest.pass scale).map (char c)
  | group inner rest =>
    (if inner.isFlat then (enclosed scale inner.text).map ofChars
      else (inner.pass scale).map (group · nil)).bind fun f ↦ (rest.pass scale).map (f ++ ·)

theorem outcome_replaceGroups_append (ps qs : List (Char ⊕ Text)) :
    (replaceGroups scale (ps ++ qs)).outcome =
      (replaceGroups scale ps).outcome.bind fun s ↦
        (replaceGroups scale qs).outcome.map (s ++ ·) := by
  induction ps with
  | nil =>
    cases h : (replaceGroups scale qs).outcome <;> simp [replaceGroups, h, Except.map, Except.bind]
  | cons piece ps ih =>
    cases piece with
    | inl c =>
      simp only [List.cons_append, replaceGroups, Traced.outcome_bind, Traced.outcome_pure, ih]
      cases (replaceGroups scale ps).outcome <;> cases (replaceGroups scale qs).outcome <;> rfl
    | inr group =>
      simp only [List.cons_append, replaceGroups, Traced.outcome_bind, Traced.outcome_pure,
        Traced.outcome_record, ih]
      cases (Flat.reduce scale group).outcome <;> cases (replaceGroups scale ps).outcome <;>
        cases (replaceGroups scale qs).outcome <;> simp [Except.map, Except.bind]

theorem outcome_replaceGroups_pieces (f : Forest) :
    (replaceGroups scale f.pieces).outcome = (f.pass scale).map text := by
  induction f with
  | nil => rfl
  | char c rest ih =>
    simp only [pieces, replaceGroups, Traced.outcome_bind, Traced.outcome_pure, ih, pass]
    cases rest.pass scale <;> rfl
  | group inner rest ihinner ihrest =>
    rw [pieces, outcome_replaceGroups_append, ihrest, pass]
    cases hflat : inner.isFlat with
    | true =>
      simp only [if_true, replaceGroups, Traced.outcome_bind, Traced.outcome_pure,
        Traced.outcome_record]
      rw [← enclosed]
      cases enclosed scale inner.text <;> cases rest.pass scale <;> simp [Except.map, Except.bind]
    | false =>
      simp only [Bool.false_eq_true, if_false, replaceGroups, Traced.outcome_bind,
        Traced.outcome_pure, outcome_replaceGroups_append, ihinner]
      cases inner.pass scale <;> cases rest.pass scale <;>
        simp [Except.map, Except.bind, text]

/-- A pass over a text is a pass over its forest. -/
theorem outcome_pass_text {f : Forest} (h : f.Splits) :
    (Nested.pass scale f.text).outcome = (f.pass scale).map text := by
  rw [Nested.pass, pieces_text h, outcome_replaceGroups_pieces]

/-! ## What a pass does to a forest -/

/-- How a pass over a forest that begins with a group ends well. -/
theorem pass_group_eq_ok_iff {inner rest f : Forest} :
    (group inner rest).pass scale = .ok f ↔
      ∃ g h, (if inner.isFlat then (enclosed scale inner.text).map ofChars
        else (inner.pass scale).map (group · nil)) = .ok g ∧ rest.pass scale = .ok h ∧
          g ++ h = f := by
  rw [pass, Outcome.bind_eq_ok_iff]
  simp only [Outcome.map_eq_ok_iff, exists_and_left]

theorem isBare_of_enclosed {s t : Text} (hs : IsBare s) (h : enclosed scale s = .ok t) :
    IsBare t :=
  isBare_of_reduce ⟨s, hs, rfl⟩ h

theorem isBare_of_leaf {inner : Forest} {t : Text} (h : inner.IsPaired)
    (hflat : inner.isFlat = true) (ht : enclosed scale inner.text = .ok t) : IsBare t :=
  isBare_of_enclosed (h.isBare_text hflat) ht

/-- A pass brings no parentheses. -/
theorem lacks_of_pass {p : Char → Prop} (hp : ∀ c, p c → Group.isParen c = true) {f g : Forest}
    (hf : f.Lacks p) (h : f.pass scale = .ok g) : g.Lacks p := by
  induction f generalizing p g with
  | nil => cases h; trivial
  | char c rest ih =>
    obtain ⟨rest', hrest, rfl⟩ := Outcome.map_eq_ok_iff.1 h
    exact ⟨hf.1, ih hp hf.2 hrest⟩
  | group inner rest ihinner ihrest =>
    obtain ⟨g, r, hg, hr, rfl⟩ := pass_group_eq_ok_iff.1 h
    refine lacks_append.2 ⟨?_, ihrest hp hf.2 hr⟩
    split at hg
    · next hflat =>
      obtain ⟨t, ht, rfl⟩ := Outcome.map_eq_ok_iff.1 hg
      exact IsPaired.lacks (isPaired_ofChars (isBare_of_leaf hf.1 hflat ht)) hp
    · obtain ⟨inner', hinner, rfl⟩ := Outcome.map_eq_ok_iff.1 hg
      exact ⟨ihinner (fun _ hc ↦ hc) hf.1 hinner, trivial⟩

theorem pass_append (f g : Forest) :
    (f ++ g).pass scale = (f.pass scale).bind fun f' ↦ (g.pass scale).map (f' ++ ·) := by
  induction f with
  | nil => cases h : g.pass scale <;> simp [pass, h, Except.map, Except.bind]
  | char c rest ih =>
    rw [char_append, pass, pass, ih]
    cases rest.pass scale <;> cases g.pass scale <;> rfl
  | group inner rest _ ih =>
    rw [group_append, pass, pass, ih]
    cases (if inner.isFlat then (enclosed scale inner.text).map ofChars
      else (inner.pass scale).map (group · nil)) <;> cases rest.pass scale <;>
      cases g.pass scale <;> simp [Except.map, Except.bind, append_assoc]

theorem splits_of_pass {f g : Forest} (hf : f.Splits) (h : f.pass scale = .ok g) : g.Splits := by
  obtain ⟨a, b, rfl, ha, hb⟩ := hf
  rw [pass_append] at h
  obtain ⟨a', ha', h⟩ := Outcome.bind_eq_ok_iff.1 h
  obtain ⟨b', hb', rfl⟩ := Outcome.map_eq_ok_iff.1 h
  exact ⟨a', b', rfl, lacks_of_pass (by rintro c rfl; rfl) ha ha',
    lacks_of_pass (by rintro c rfl; rfl) hb hb'⟩

/-- A pass keeps what the recursion makes of a forest. -/
theorem flatten_of_pass {f g : Forest} (h : f.pass scale = .ok g) :
    g.flatten scale = f.flatten scale := by
  induction f generalizing g with
  | nil => cases h; rfl
  | char c rest ih =>
    obtain ⟨rest', hrest, rfl⟩ := Outcome.map_eq_ok_iff.1 h
    rw [flatten, flatten, ih hrest]
  | group inner rest ihinner ihrest =>
    obtain ⟨g, r, hg, hr, rfl⟩ := pass_group_eq_ok_iff.1 h
    rw [flatten_append, flatten, ihrest hr]
    split at hg
    · next hflat =>
      obtain ⟨t, ht, rfl⟩ := Outcome.map_eq_ok_iff.1 hg
      rw [flatten_ofChars, flatten_of_isFlat hflat, Except.bind, Except.bind, ht]
      rfl
    · obtain ⟨inner', hinner, rfl⟩ := Outcome.map_eq_ok_iff.1 hg
      rw [flatten, ihinner hinner]
      cases (inner.flatten scale).bind (enclosed scale) <;> cases rest.flatten scale <;>
        simp [flatten, Except.map, Except.bind]

theorem fails_append {f g : Forest} {e : Fault} (h : (f ++ g).Fails scale e) :
    f.Fails scale e ∨ g.Fails scale e := by
  induction f with
  | nil => exact .inr h
  | char c rest ih =>
    cases h with
    | char h => exact (ih h).imp_left .char
  | group inner rest _ ih =>
    cases h with
    | here hs he => exact .inl (.here hs he)
    | inside h => exact .inl (.inside h)
    | behind h => exact (ih h).imp_left .behind

/-- A pass brings no faults that were not there. -/
theorem fails_of_pass {f g : Forest} {e : Fault} (h : f.pass scale = .ok g)
    (he : g.Fails scale e) : f.Fails scale e := by
  induction f generalizing g with
  | nil => cases h; cases he
  | char c rest ih =>
    obtain ⟨rest', hrest, rfl⟩ := Outcome.map_eq_ok_iff.1 h
    cases he with
    | char he => exact .char (ih hrest he)
  | group inner rest ihinner ihrest =>
    obtain ⟨g, r, hg, hr, rfl⟩ := pass_group_eq_ok_iff.1 h
    rcases fails_append he with he | he
    · split at hg
      · obtain ⟨t, -, rfl⟩ := Outcome.map_eq_ok_iff.1 hg
        exact absurd (flatten_ofChars t) (he.flatten_ne_ok t)
      · obtain ⟨inner', hinner, rfl⟩ := Outcome.map_eq_ok_iff.1 hg
        cases he with
        | here hs he => exact .here (flatten_of_pass hinner ▸ hs) he
        | inside he => exact .inside (ihinner hinner he)
        | behind he => cases he
    · exact .behind (ihrest hr he)

/-- The fault of a pass is the fault of a leaf. -/
theorem fails_of_pass_eq_error {f : Forest} {e : Fault} (h : f.pass scale = .error e) :
    f.Fails scale e := by
  induction f with
  | nil => cases h
  | char c rest ih => exact .char (ih (Outcome.map_eq_error_iff.1 h))
  | group inner rest ihinner ihrest =>
    rcases Outcome.bind_eq_error_iff.1 h with h | ⟨g, -, h⟩
    · split at h
      · next hflat =>
        exact .here (flatten_of_isFlat hflat) (Outcome.map_eq_error_iff.1 h)
      · exact .inside (ihinner (Outcome.map_eq_error_iff.1 h))
    · exact .behind (ihrest (Outcome.map_eq_error_iff.1 h))

/-- A pass costs an opening parenthesis for each leaf. -/
theorem count_text_of_pass {f g : Forest} {p : Char → Prop} (hf : f.Lacks p)
    (h : f.pass scale = .ok g) : g.text.count '(' + f.leaves = f.text.count '(' := by
  induction f generalizing p g with
  | nil => cases h; rfl
  | char c rest ih =>
    obtain ⟨rest', hrest, rfl⟩ := Outcome.map_eq_ok_iff.1 h
    have := ih hf.2 hrest
    simp only [text, List.count_cons, leaves]
    omega
  | group inner rest ihinner ihrest =>
    obtain ⟨g, r, hg, hr, rfl⟩ := pass_group_eq_ok_iff.1 h
    have hrest := ihrest hf.2 hr
    have hgroup : g.text.count '(' + (if inner.isFlat then 1 else inner.leaves) =
        1 + inner.text.count '(' := by
      split at hg
      · next hflat =>
        obtain ⟨t, ht, rfl⟩ := Outcome.map_eq_ok_iff.1 hg
        have hinner : IsPaired inner := hf.1
        rw [text_ofChars, count_eq_zero_of_isBare (isBare_of_leaf hinner hflat ht),
          count_eq_zero_of_isBare (hinner.isBare_text hflat), if_pos hflat]
      · next hflat =>
        obtain ⟨inner', hinner, rfl⟩ := Outcome.map_eq_ok_iff.1 hg
        have := ihinner hf.1 hinner
        simp only [text, List.count_cons, List.count_append, List.count_nil, hflat]
        simp
        omega
    simp only [text, text_append, List.count_cons, List.count_append, leaves]
    simp only [beq_self_eq_true, if_true, show ((')' : Char) == '(') = false from rfl,
      Bool.false_eq_true, if_false]
    omega

/-- Whatever stays alone outside them, the groups of a forest are paired inside. -/
theorem Splits.lacks_nothing {f : Forest} (h : f.Splits) : f.Lacks fun _ ↦ False := by
  obtain ⟨a, b, rfl, ha, hb⟩ := h
  exact lacks_append.2 ⟨ha.mono fun _ ↦ False.elim, hb.mono fun _ ↦ False.elim⟩

/-- A pass that leaves a text as it is found no groups. -/
theorem isFlat_of_pass {f g : Forest} (hf : f.Splits) (h : f.pass scale = .ok g)
    (hsame : g.text = f.text) : f.isFlat = true := by
  have := count_text_of_pass hf.lacks_nothing h
  rw [hsame] at this
  exact isFlat_iff_leaves.2 (by omega)

/-- Without groups, no closing parenthesis comes after an opening one. -/
theorem Splits.exists_text_append {f : Forest} (h : f.Splits) (hflat : f.isFlat = true) :
    ∃ s t, f.text = s ++ t ∧ '(' ∉ s ∧ ')' ∉ t := by
  obtain ⟨a, b, rfl, ha, hb⟩ := h
  have hleaves := isFlat_iff_leaves.1 hflat
  rw [leaves_append] at hleaves
  have hfa : a.isFlat = true := isFlat_iff_leaves.2 (by omega)
  have hfb : b.isFlat = true := isFlat_iff_leaves.2 (by omega)
  exact ⟨a.text, b.text, text_append a b, ha.not_mem hfa rfl, hb.not_mem hfb rfl⟩

end Forest

/-! ## All passes -/

/-- The passes over the text of a forest end with the text that the recursion gives, in which no
closing parenthesis comes after an opening one, or with the fault of a group. -/
theorem outcome_resolveFrom_text (scale : Int) {f : Forest} (hf : f.Splits) (number : Nat) :
    match (resolveFrom scale number f.text).outcome with
    | .ok t => f.flatten scale = .ok t ∧ ∃ a b, t = a ++ b ∧ '(' ∉ a ∧ ')' ∉ b
    | .error e => f.Fails scale e := by
  generalize hs : f.text = s
  induction number, s using resolveFrom.induct scale generalizing f with
  | case1 number s journal e hstep =>
    have h : (f.pass scale).map Forest.text = .error e := by
      rw [← Forest.outcome_pass_text hf, hs, hstep]
    rw [outcome_resolveFrom, hstep]
    exact Forest.fails_of_pass_eq_error (Outcome.map_eq_error_iff.1 h)
  | case2 number journal s hstep =>
    have h : (f.pass scale).map Forest.text = .ok s := by
      rw [← Forest.outcome_pass_text hf, hs, hstep]
    obtain ⟨g, hg, hsame⟩ := Outcome.map_eq_ok_iff.1 h
    have hflat := Forest.isFlat_of_pass hf hg (hsame.trans hs.symm)
    rw [outcome_resolveFrom, hstep, Except.bind, if_pos rfl, ← hs]
    exact ⟨Forest.flatten_of_isFlat hflat, hf.exists_text_append hflat⟩
  | case3 number s journal t hstep hne ih =>
    have h : (f.pass scale).map Forest.text = .ok t := by
      rw [← Forest.outcome_pass_text hf, hs, hstep]
    obtain ⟨g, hg, hsame⟩ := Outcome.map_eq_ok_iff.1 h
    have hrest := ih (Forest.splits_of_pass hf hg) hsame
    rw [outcome_resolveFrom, hstep, Except.bind, if_neg hne, ← Forest.flatten_of_pass hg]
    split
    · next u hu =>
      rw [hu] at hrest
      exact hrest
    · next e he =>
      rw [he] at hrest
      exact Forest.fails_of_pass hg hrest

theorem outcome_resolve_eq_ok_iff {scale : Int} {s t : Text} :
    (resolve scale s).outcome = .ok t ↔ (Forest.ofText s).flatten scale = .ok t := by
  have h := outcome_resolveFrom_text scale (Forest.ofText_splits s) 1
  rw [Forest.text_ofText] at h
  rw [resolve]
  split at h
  · next u hu =>
    rw [hu, h.1]
  · next e he =>
    rw [he]
    exact ⟨fun h' ↦ (nomatch h'), fun h' ↦ absurd h' (h.flatten_ne_ok t)⟩

/-- There is nothing to resolve in a text without parentheses. -/
theorem outcome_resolve_of_isBare (scale : Int) {s : Text} (hs : IsBare s) :
    (resolve scale s).outcome = .ok s := by
  have hforest : Forest.ofText s = Forest.ofChars s := by
    rw [← Forest.ofText_text (Forest.isPaired_ofChars hs), Forest.text_ofChars]
  refine outcome_resolve_eq_ok_iff.2 ?_
  rw [hforest, Forest.flatten_ofChars]

/-- The fault that the passes end with is the fault of a group. -/
theorem fails_of_outcome_resolve {scale : Int} {s : Text} {e : Fault}
    (h : (resolve scale s).outcome = .error e) : (Forest.ofText s).Fails scale e := by
  have hall := outcome_resolveFrom_text scale (Forest.ofText_splits s) 1
  rw [Forest.text_ofText, ← resolve, h] at hall
  exact hall

/-- In what the passes leave, no closing parenthesis comes after an opening one. -/
theorem exists_append_of_outcome_resolve {scale : Int} {s t : Text}
    (h : (resolve scale s).outcome = .ok t) : ∃ a b, t = a ++ b ∧ '(' ∉ a ∧ ')' ∉ b := by
  have hall := outcome_resolveFrom_text scale (Forest.ofText_splits s) 1
  rw [Forest.text_ofText, ← resolve, h] at hall
  exact hall.2

/-- **The passes agree with the recursion over the pairs of parentheses**, on every text, whether or
not its parentheses all have partners.  They end well exactly when the recursion does, and with the
same text; they end with a fault exactly when some group has one, and the fault is that of a group;
and the text they end with has no innermost group. -/
theorem resolve_agrees_with_flatten (scale : Int) (s : Text) :
    (∀ t, (resolve scale s).outcome = .ok t ↔ (Forest.ofText s).flatten scale = .ok t) ∧
      ((∃ e, (resolve scale s).outcome = .error e) ↔ ∃ e, (Forest.ofText s).Fails scale e) ∧
      (∀ e, (resolve scale s).outcome = .error e → (Forest.ofText s).Fails scale e) ∧
      ∀ t, (resolve scale s).outcome = .ok t →
        ∀ before group after, t = before ++ (group ++ after) → ¬ IsEnclosed group := by
  refine ⟨fun t ↦ outcome_resolve_eq_ok_iff, ?_, fun e ↦ fails_of_outcome_resolve, ?_⟩
  · rw [← Forest.exists_error_flatten_iff, Outcome.exists_error_iff, Outcome.exists_error_iff]
    simp only [outcome_resolve_eq_ok_iff]
  · rintro t ht before group after hgroup ⟨inner, -, rfl⟩
    obtain ⟨a, b, hab, ha, hb⟩ := exists_append_of_outcome_resolve ht
    rw [hgroup, List.cons_append] at hab
    -- the opening parenthesis stands in the second part, and so does all that follows it
    rcases List.append_eq_append_iff.1 hab with ⟨c, hc, hrest⟩ | ⟨c, hc, hrest⟩
    · cases c with
      | nil =>
        rw [List.nil_append] at hrest
        exact hb (hrest ▸ by simp)
      | cons d c =>
        rw [List.cons_append, List.cons.injEq] at hrest
        exact ha (by rw [hc, ← hrest.1]; simp)
    · exact hb (by rw [hrest]; simp)

end Nested
end Reckon
