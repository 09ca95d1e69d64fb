import Reckon.Proofs.Fuel

/-!
# A group is worth the text it reduces to

Nothing of a group is left in the text around it but what the group reduces to: a text with a group
in it has the value that the same text has with that result written in the place of the group
(`evaluate_group_eq_ok_iff`).  It does not matter what stands around the group, so digits that stand
directly at its parentheses run together with the digits of the result, and `2(3)` is `23`.

For the proof the stack of a reader is looked at with its parts flattened (`flattenFrom`).  What it
gives in the end depends on the parts only through that, and it gives nothing unless each part gives
something (`ok_of_flattenFrom`).
-/

set_option autoImplicit false

namespace Reckon
namespace Nested

namespace Forest

variable {scale : Int}

/-! ## Flattening while the parentheses are paired -/

/-- Pairs the parentheses of a text and flattens what is read, with a stack of flattened parts. -/
def flattenFrom (scale : Int) (outer : List (Except Fault Text)) (current : Except Fault Text) :
    Text → Except Fault Text
  | [] => outer.foldl (fun inner before ↦ before.bind fun s ↦ inner.map (s ++ '(' :: ·)) current
  | c :: s =>
    if c = '(' then flattenFrom scale (current :: outer) (.ok []) s
    else if c = ')' then
      match outer with
      | [] => flattenFrom scale [] (current.map (· ++ [')'])) s
      | before :: outer =>
        flattenFrom scale outer
          (before.bind fun t ↦ (current.bind (enclosed scale)).map (t ++ ·)) s
    else flattenFrom scale outer (current.map (· ++ [c])) s

theorem flatten_append_char (f : Forest) (c : Char) :
    (f ++ char c nil).flatten scale = (f.flatten scale).map (· ++ [c]) := by
  rw [flatten_append]
  rfl

theorem flatten_append_group (f inner : Forest) :
    (f ++ group inner nil).flatten scale =
      (f.flatten scale).bind fun s ↦
        ((inner.flatten scale).bind (enclosed scale)).map (s ++ ·) := by
  rw [flatten_append, flatten]
  cases (inner.flatten scale).bind (enclosed scale) <;> simp [flatten, Except.bind, Except.map]

theorem flatten_closeAll (outer : List Forest) (current : Forest) :
    (closeAll outer current).flatten scale =
      flattenFrom scale (outer.map (flatten scale)) (current.flatten scale) [] := by
  induction outer generalizing current with
  | nil => rfl
  | cons before outer ih =>
    have hopen : (before ++ char '(' current).flatten scale =
        (before.flatten scale).bind fun s ↦ (current.flatten scale).map (s ++ '(' :: ·) := by
      rw [flatten_append, flatten]
      cases before.flatten scale <;> cases current.flatten scale <;> rfl
    rw [closeAll, List.foldl_cons, ← closeAll, ih, hopen]
    rfl

/-- Pairing first and flattening then is the same as doing both at once. -/
theorem flatten_pairFrom (outer : List Forest) (current : Forest) (s : Text) :
    (pairFrom outer current s).flatten scale =
      flattenFrom scale (outer.map (flatten scale)) (current.flatten scale) s := by
  induction s generalizing outer current with
  | nil => exact flatten_closeAll outer current
  | cons c s ih =>
    rw [pairFrom.eq_def, flattenFrom.eq_def]
    dsimp only
    split
    · rw [ih]
      rfl
    · split
      · cases outer with
        | nil =>
          dsimp only
          rw [ih, flatten_append_char]
          rfl
        | cons before outer =>
          dsimp only
          rw [ih, flatten_append_group]
          rfl
      · rw [ih, flatten_append_char]

/-- Reading ends well only if all of the parts that it began with are flattened. -/
theorem ok_of_flattenFrom {outer : List (Except Fault Text)} {current : Except Fault Text}
    {s u : Text} (h : flattenFrom scale outer current s = .ok u) :
    (∃ t, current = .ok t) ∧ ∀ x ∈ outer, ∃ t, x = .ok t := by
  induction s generalizing outer current with
  | nil =>
    rw [flattenFrom] at h
    induction outer generalizing current with
    | nil => exact ⟨⟨u, h⟩, by simp⟩
    | cons before outer ih =>
      obtain ⟨⟨t, ht⟩, houter⟩ := ih h
      obtain ⟨a, ha, ht⟩ := Outcome.bind_eq_ok_iff.1 ht
      obtain ⟨b, hb, -⟩ := Outcome.map_eq_ok_iff.1 ht
      exact ⟨⟨b, hb⟩, List.forall_mem_cons.2 ⟨⟨a, ha⟩, houter⟩⟩
  | cons c s ih =>
    rw [flattenFrom.eq_def] at h
    dsimp only at h
    split at h
    · exact List.forall_mem_cons.1 (ih h).2
    · split at h
      · split at h
        · obtain ⟨t, ht⟩ := (ih h).1
          obtain ⟨a, ha, -⟩ := Outcome.map_eq_ok_iff.1 ht
          exact ⟨⟨a, ha⟩, by simp⟩
        · next before outer =>
          obtain ⟨⟨t, ht⟩, houter⟩ := ih h
          obtain ⟨a, ha, ht⟩ := Outcome.bind_eq_ok_iff.1 ht
          obtain ⟨r, hr, -⟩ := Outcome.map_eq_ok_iff.1 ht
          obtain ⟨b, hb, -⟩ := Outcome.bind_eq_ok_iff.1 hr
          exact ⟨⟨b, hb⟩, List.forall_mem_cons.2 ⟨⟨a, ha⟩, houter⟩⟩
      · obtain ⟨⟨t, ht⟩, houter⟩ := ih h
        obtain ⟨a, ha, -⟩ := Outcome.map_eq_ok_iff.1 ht
        exact ⟨⟨a, ha⟩, houter⟩

/-! ## One group among other text -/

/-- Reading a part of a text leads to a stack, whatever follows. -/
theorem exists_stack (s : Text) (outer : List Forest) (current : Forest) :
    ∃ outer' current', ∀ t, pairFrom outer current (s ++ t) = pairFrom outer' current' t := by
  induction s generalizing outer current with
  | nil => exact ⟨outer, current, fun t ↦ rfl⟩
  | cons c s ih =>
    simp only [List.cons_append, pairFrom]
    split
    · exact ih _ _
    · split
      · split
        · exact ih _ _
        · exact ih _ _
      · exact ih _ _

/-- Flattening brings no parentheses into a text whose parentheses all have partners. -/
theorem IsPaired.isBare_of_flatten {f : Forest} (hf : f.IsPaired) {s : Text}
    (h : f.flatten scale = .ok s) : IsBare s := by
  induction f generalizing s with
  | nil => cases h; simp [IsBare]
  | char c rest ih =>
    obtain ⟨t, ht, rfl⟩ := Outcome.map_eq_ok_iff.1 h
    intro d hd
    rcases List.mem_cons.1 hd with rfl | hd
    · exact Bool.eq_false_iff.2 hf.1
    · exact ih hf.2 ht d hd
  | group inner rest ihinner ihrest =>
    obtain ⟨r, hr, h⟩ := Outcome.bind_eq_ok_iff.1 h
    obtain ⟨u, hu, hr⟩ := Outcome.bind_eq_ok_iff.1 hr
    obtain ⟨t, ht, rfl⟩ := Outcome.map_eq_ok_iff.1 h
    exact isBare_append.2 ⟨isBare_of_enclosed (ihinner hf.1 hu) hr, ihrest hf.2 ht⟩

/-- A text with a group in it flattens as it does with the result of the group in its place. -/
theorem flatten_ofText_group_eq_ok_iff {f : Forest} (hf : f.IsPaired) (before after u : Text) :
    (ofText (before ++ (group f nil).text ++ after)).flatten scale = .ok u ↔
      ∃ t, (group f nil).flatten scale = .ok t ∧
        (ofText (before ++ t ++ after)).flatten scale = .ok u := by
  have hgroup : (group f nil).IsPaired := hf.group
  obtain ⟨outer, current, hread⟩ := exists_stack before [] nil
  have hwith : ∀ g : Forest, g.IsPaired → (ofText (before ++ g.text ++ after)).flatten scale =
      flattenFrom scale (outer.map (flatten scale))
        ((current.flatten scale).bind fun s ↦ (g.flatten scale).map (s ++ ·)) after := by
    intro g hg
    rw [ofText, List.append_assoc, hread, pairFrom_text_append hg, flatten_pairFrom,
      flatten_append]
  have hresult : ∀ t, (group f nil).flatten scale = .ok t →
      (ofText (before ++ (group f nil).text ++ after)).flatten scale =
        (ofText (before ++ t ++ after)).flatten scale := by
    intro t ht
    have hbare : (ofChars t).IsPaired := isPaired_ofChars (hgroup.isBare_of_flatten ht)
    have := hwith (ofChars t) hbare
    rw [text_ofChars] at this
    rw [this, hwith _ hgroup, ht, flatten_ofChars]
  constructor
  · intro h
    have hall := h
    rw [hwith _ hgroup] at hall
    obtain ⟨a, ha⟩ := (ok_of_flattenFrom hall).1
    obtain ⟨s, -, hs⟩ := Outcome.bind_eq_ok_iff.1 ha
    obtain ⟨t, ht, -⟩ := Outcome.map_eq_ok_iff.1 hs
    exact ⟨t, ht, hresult t ht ▸ h⟩
  · rintro ⟨t, ht, h⟩
    rw [hresult t ht, h]

end Forest
end Nested

/-! ## Evaluating a text with a group in it -/

open Nested

variable {scale : Int}

/-- An evaluation ends well if the groups can be replaced and what is left has a value. -/
theorem outcome_evaluate_eq_ok_iff {s : Text} {a : Answer} :
    (evaluate scale s).outcome = .ok a ↔
      ∃ t, (Forest.ofText s).flatten scale = .ok t ∧
        ∃ u, (Flat.reduce scale t).outcome = .ok u ∧ conclude scale u = .ok a := by
  rw [outcome_evaluate, Nested.outcome_reduce]
  simp only [Outcome.bind_eq_ok_iff, outcome_resolve_eq_ok_iff]
  constructor
  · rintro ⟨u, ⟨t, ht, hu⟩, ha⟩
    exact ⟨t, ht, u, hu, ha⟩
  · rintro ⟨t, ht, u, hu, ha⟩
    exact ⟨u, ⟨t, ht, hu⟩, ha⟩

theorem evaluate_group_eq_ok_iff {group : Text} (hgroup : (Forest.ofText group).IsPaired)
    (before after : Text) (a : Answer) :
    (evaluate scale (before ++ '(' :: (group ++ [')']) ++ after)).outcome = .ok a ↔
      ∃ t, (resolve scale ('(' :: (group ++ [')']))).outcome = .ok t ∧
        (evaluate scale (before ++ t ++ after)).outcome = .ok a := by
  have htext : '(' :: (group ++ [')']) = (Forest.group (Forest.ofText group) .nil).text := by
    simp [Forest.text]
  have hforest : Forest.ofText ('(' :: (group ++ [')'])) = .group (Forest.ofText group) .nil := by
    rw [htext, Forest.ofText_text hgroup.group]
  simp only [outcome_evaluate_eq_ok_iff, outcome_resolve_eq_ok_iff, hforest]
  rw [htext]
  simp only [Forest.flatten_ofText_group_eq_ok_iff hgroup]
  constructor
  · rintro ⟨u, ⟨t, ht, hu⟩, h⟩
    exact ⟨t, ht, u, hu, h⟩
  · rintro ⟨t, ht, u, hu, h⟩
    exact ⟨u, ⟨t, ht, hu⟩, h⟩

/-- A group stands directly at a number or at another group: a digit or a parenthesis that closes
one comes right before it, or a digit or a parenthesis that opens one right behind it. -/
def IsGlued (before after : Text) : Prop :=
  (∃ c ∈ before.getLast?, c.isDigit = true ∨ c = ')') ∨
    ∃ c ∈ after.head?, c.isDigit = true ∨ c = '('

/-- **What a group reduces to runs together with what stands at its parentheses.**  A text with a
group in it, glued to its neighbours or not, has exactly the value of the text with the group's
result written in its place, and it is rejected exactly when that text is, whatever the group
reduces to. -/
theorem evaluate_group_iff (scale : Int) {group : Text} (hgroup : (Forest.ofText group).IsPaired)
    (before after : Text) :
    (∀ a, (evaluate scale (before ++ '(' :: (group ++ [')']) ++ after)).outcome = .ok a ↔
      ∃ t, (resolve scale ('(' :: (group ++ [')']))).outcome = .ok t ∧
        (evaluate scale (before ++ t ++ after)).outcome = .ok a) ∧
    ((∃ e, (evaluate scale (before ++ '(' :: (group ++ [')']) ++ after)).outcome = .error e) ↔
      ∀ t, (resolve scale ('(' :: (group ++ [')']))).outcome = .ok t →
        ∃ e, (evaluate scale (before ++ t ++ after)).outcome = .error e) := by
  refine ⟨evaluate_group_eq_ok_iff hgroup before after, ?_⟩
  simp only [Outcome.exists_error_iff, evaluate_group_eq_ok_iff hgroup]
  constructor
  · rintro h t ht ⟨a, ha⟩
    exact h ⟨a, t, ht, ha⟩
  · rintro h ⟨a, t, ht, ha⟩
    exact h t ht ⟨a, ha⟩

/-- `2(1 - 3)` is `2-2`: the minus sign of the result is read as the operator. -/
theorem evaluate_group_iff_difference :
    (Forest.ofText "1 - 3".toList).IsPaired ∧
      (evaluate 2 ("2".toList ++ '(' :: ("1 - 3".toList ++ [')']) ++ [])).outcome =
        .ok ⟨⟨false, 0, -2⟩, false⟩ := by
  have hgroup : (Forest.ofText "1 - 3".toList).IsPaired := by
    simp [Forest.ofText, Forest.pairFrom, Forest.closeAll, Forest.IsPaired, Forest.Lacks,
      Group.isParen]
  refine ⟨hgroup, ((evaluate_group_iff 2 hgroup "2".toList []).1 _).2 ⟨"-2".toList, ?_, ?_⟩⟩
  · refine outcome_resolve_eq_ok_iff.2 (Forest.flatten_of_within 9 ?_)
    decide +kernel
  · refine outcome_evaluate_of_within 9 ?_
    decide +kernel

/-- Digits at the parentheses of a group run together with its result: `2(3)` is not rejected, but
has the value 23. -/
theorem evaluate_glued_digit :
    IsGlued "2".toList [] ∧ (Forest.ofText "3".toList).IsPaired ∧
      (evaluate 2 ("2".toList ++ '(' :: ("3".toList ++ [')']) ++ [])).outcome =
        .ok ⟨⟨false, 2300, -2⟩, false⟩ := by
  refine ⟨.inl ⟨'2', rfl, .inl rfl⟩, ?_, ?_⟩
  · simp [Forest.ofText, Forest.pairFrom, Forest.closeAll, Forest.IsPaired, Forest.Lacks,
      Group.isParen]
  · refine outcome_evaluate_of_within 9 ?_
    decide +kernel

end Reckon
