import Mathlib.Data.List.Chain
import Reckon.Proofs.Json.Lexeme

/-!
# Texts and their tokens

The tokens of a text are the ones that it lays out, as long as numbers are told apart from what
follows them.  In a document they are, for behind a number there comes a mark or nothing, and
neither a mark nor white space goes on with a number (`Layout.tokens_append`).  The other way round,
a text whose tokens are all good lays them out, and a part of the tokens belongs to a part of the
text (`exists_layout_of_tokens`).
-/

set_option autoImplicit false

namespace Reckon
namespace Json

variable {gap r s u : Text} {t : Token} {ts us : List Token}

/-! ## What comes behind a number -/

/-- Whether a token is a mark: a bracket, a brace, a colon or a comma. -/
def Token.isMark : Token → Bool
  | .openArray | .closeArray | .openObject | .closeObject | .colon | .comma => true
  | _ => false

/-- Behind a number there comes a mark. -/
def Token.Parted (t u : Token) : Prop := t.isNumber = true → u.isMark = true

theorem not_continuesNumber_nil : ¬ ContinuesNumber [] := nofun

theorem not_continuesNumber_cons {c : Char} (hdigit : c.isDigit = false) (hpoint : c ≠ '.')
    (hpower : ¬ (c = 'e' ∨ c = 'E')) : ¬ ContinuesNumber (c :: s) := by
  intro h
  cases h with
  | digit hc => rw [hdigit] at hc; cases hc
  | places _ => exact hpoint rfl
  | power he _ => exact hpower he
  | signedPower he _ _ => exact hpower he

theorem isGap_eq_true_iff {c : Char} :
    isGap c = true ↔ c = ' ' ∨ c = '\t' ∨ c = '\n' ∨ c = '\r' := by
  simp [isGap, or_assoc]

theorem isGap_iff : IsGap s ↔ ∀ c ∈ s, isGap c = true := by
  simp only [IsGap, isGap_eq_true_iff]

/-- White space, where there is any, ends a number. -/
theorem not_continuesNumber_gap_append (h : IsGap gap) (hs : gap = [] → ¬ ContinuesNumber s) :
    ¬ ContinuesNumber (gap ++ s) := by
  cases gap with
  | nil => exact hs rfl
  | cons c gap =>
    rcases h c List.mem_cons_self with rfl | rfl | rfl | rfl <;>
      exact not_continuesNumber_cons (by decide) (by decide) (by decide)

/-- A mark ends a number. -/
theorem Lexeme.not_continuesNumber_append (h : Lexeme u t) (ht : t.isMark = true) :
    ¬ ContinuesNumber (u ++ s) := by
  cases h with
  | openArray | closeArray | openObject | closeObject | colon | comma =>
    exact not_continuesNumber_cons (by decide) (by decide) (by decide)
  | keyword hkeyword => cases hkeyword <;> cases ht
  | string _ | integer _ _ _ | overlong _ _ _ | float _ _ _ _ _ _ => cases ht

/-- So a number ends before a layout that begins with a mark. -/
theorem Layout.not_continuesNumber_append (h : Layout s ts)
    (hmark : ∀ t ∈ ts.head?, t.isMark = true) (hr : ts = [] → ¬ ContinuesNumber r) :
    ¬ ContinuesNumber (s ++ r) := by
  cases h with
  | nil hgap => exact not_continuesNumber_gap_append hgap fun _ ↦ hr rfl
  | cons hgap hlexeme _ =>
    rw [List.append_assoc, List.append_assoc]
    exact not_continuesNumber_gap_append hgap fun _ ↦
      hlexeme.not_continuesNumber_append (hmark _ rfl)

/-! ## From layouts to tokens -/

theorem tokens_nil : tokens [] = [] := by
  rw [tokens]
  rfl

theorem tokens_gap_append (h : IsGap gap) : tokens (gap ++ s) = tokens s := by
  have hdrop : (gap ++ s).dropWhile isGap = s.dropWhile isGap :=
    List.dropWhile_append_of_pos (isGap_iff.1 h)
  rw [tokens, tokens, hdrop]

/-- Text that is no white space begins with the token that is scanned there. -/
theorem tokens_cons {c : Char} (hc : isGap c = false) :
    tokens (c :: s) =
      match scanToken? (c :: s) with
      | none => [.bad]
      | some (token, rest) => token :: tokens rest := by
  have hdrop : (c :: s).dropWhile isGap = c :: s := List.dropWhile_cons_of_neg (by simp [hc])
  rw [tokens]
  split
  · next hnil => rw [hdrop] at hnil; cases hnil
  · next hcons =>
    rw [hdrop] at hcons
    cases hcons
    split <;> simp_all

theorem Lexeme.exists_cons (h : Lexeme u t) : ∃ c s, u = c :: s ∧ isGap c = false := by
  have hdigits : ∀ {whole : Text}, IsWhole whole → ∃ c s, whole = c :: s ∧ isGap c = false := by
    intro whole hwhole
    obtain ⟨c, s, rfl⟩ := List.exists_cons_of_ne_nil hwhole.ne_nil
    refine ⟨c, s, rfl, Bool.eq_false_iff.2 fun hgap ↦ ?_⟩
    have hc := hwhole.isDigit c List.mem_cons_self
    rcases isGap_eq_true_iff.1 hgap with rfl | rfl | rfl | rfl <;> cases hc
  cases h with
  | openArray | closeArray | openObject | closeObject | colon | comma | string _ =>
    exact ⟨_, _, rfl, by decide⟩
  | keyword hkeyword => cases hkeyword <;> exact ⟨_, _, rfl, by decide⟩
  | integer negative hwhole _ | overlong negative hwhole _ | float negative hwhole _ _ _ _ =>
    obtain ⟨c, s, rfl, hc⟩ := hdigits hwhole
    cases negative with
    | false => exact ⟨_, _, rfl, hc⟩
    | true => exact ⟨_, _, rfl, by decide⟩

/-- The tokens of a text that begins with a layout begin with its tokens. -/
theorem Layout.tokens_append (h : Layout s ts) (hparted : ts.IsChain Token.Parted)
    (hr : ∀ t ∈ ts.getLast?, t.isNumber = true → ¬ ContinuesNumber r) :
    tokens (s ++ r) = ts ++ tokens r := by
  induction h with
  | nil hgap => exact tokens_gap_append hgap
  | @cons gap u s t ts hgap hlexeme hlayout ih =>
    rw [List.isChain_cons] at hparted
    obtain ⟨hfirst, hrest⟩ := hparted
    have hends : t.isNumber = true → ¬ ContinuesNumber (s ++ r) := by
      intro hnumber
      refine hlayout.not_continuesNumber_append (fun t' ht' ↦ hfirst t' ht' hnumber) ?_
      rintro rfl
      exact hr t rfl hnumber
    have htail : ∀ t' ∈ ts.getLast?, t'.isNumber = true → ¬ ContinuesNumber r := by
      intro t' ht'
      refine hr t' ?_
      rw [List.getLast?_cons, Option.mem_some_iff, ht']
      rfl
    obtain ⟨c, v, rfl, hc⟩ := hlexeme.exists_cons
    have hscan := hlexeme.scanToken? hends
    rw [List.cons_append] at hscan
    rw [List.append_assoc, List.append_assoc, tokens_gap_append hgap, List.cons_append,
      tokens_cons hc, hscan]
    simp only [ih hrest htail, List.cons_append]

theorem Layout.tokens_eq (h : Layout s ts) (hparted : ts.IsChain Token.Parted) : tokens s = ts := by
  have htokens := h.tokens_append hparted (r := []) fun _ _ _ ↦ not_continuesNumber_nil
  rwa [List.append_nil, tokens_nil, List.append_nil] at htokens

/-! ## From tokens to layouts -/

/-- A text is white space and what comes behind it. -/
theorem exists_gap (s : Text) :
    ∃ gap r, s = gap ++ r ∧ IsGap gap ∧ ∀ c ∈ r.head?, isGap c = false := by
  obtain ⟨gap, r, rfl, hgap, hr⟩ := Text.exists_run isGap s
  exact ⟨gap, r, rfl, isGap_iff.2 hgap, hr⟩

theorem isGap_of_tokens_eq_nil (h : tokens s = []) : IsGap s := by
  obtain ⟨gap, r, rfl, hgap, hr⟩ := exists_gap s
  rw [tokens_gap_append hgap] at h
  cases r with
  | nil => rwa [List.append_nil]
  | cons c r =>
    rw [tokens_cons (hr c rfl)] at h
    split at h <;> cases h

/-- The first token is the one of a lexeme, unless it is a bad one. -/
theorem exists_of_tokens_eq_cons (h : tokens s = t :: ts) (ht : t ≠ .bad) :
    ∃ gap u rest, s = gap ++ (u ++ rest) ∧ IsGap gap ∧ Lexeme u t ∧ tokens rest = ts ∧
      ∀ n, t = .overlong n → ¬ ContinuesNumber rest := by
  obtain ⟨gap, r, rfl, hgap, hr⟩ := exists_gap s
  rw [tokens_gap_append hgap] at h
  cases r with
  | nil => rw [tokens_nil] at h; cases h
  | cons c r =>
    rw [tokens_cons (hr c rfl)] at h
    split at h
    · cases h
      exact absurd rfl ht
    · next hscan =>
      cases h
      obtain ⟨u, hu, hlexeme, hoverlong⟩ := exists_lexeme_of_scanToken? hscan
      exact ⟨gap, u, _, by rw [hu], hgap, hlexeme, rfl, hoverlong⟩

/-- The first tokens of a text, if they are good, are laid out in its first part. -/
theorem exists_layout_of_tokens (h : tokens s = ts ++ us) (hts : Token.bad ∉ ts) :
    ∃ front rest, s = front ++ rest ∧ Layout front ts ∧ tokens rest = us := by
  induction ts generalizing s with
  | nil => exact ⟨[], s, rfl, .nil (by simp [IsGap]), h⟩
  | cons t ts ih =>
    obtain ⟨hfirst, hrest⟩ := List.ne_and_not_mem_of_not_mem_cons hts
    obtain ⟨gap, u, rest, rfl, hgap, hlexeme, htokens, -⟩ :=
      exists_of_tokens_eq_cons h (Ne.symm hfirst)
    obtain ⟨front, rest, rfl, hlayout, hus⟩ := ih htokens hrest
    exact ⟨gap ++ (u ++ front), rest, by simp, .cons hgap hlexeme hlayout, hus⟩

/-- Layouts next to each other lay out the tokens of both. -/
theorem Layout.append (hs : Layout s ts) (hr : Layout r us) : Layout (s ++ r) (ts ++ us) := by
  induction hs with
  | @nil gap hgap =>
    have hjoin : ∀ {gap' : Text}, IsGap gap' → IsGap (gap ++ gap') := fun hgap' c hc ↦
      (List.mem_append.1 hc).elim (hgap c) (hgap' c)
    cases hr with
    | nil hgap' => exact .nil (hjoin hgap')
    | cons hgap' hlexeme hlayout =>
      rw [← List.append_assoc]
      exact .cons (hjoin hgap') hlexeme hlayout
  | cons hgap hlexeme _ ih =>
    rw [List.append_assoc, List.append_assoc]
    exact .cons hgap hlexeme ih

theorem isGap_nil : IsGap [] := nofun

theorem Lexeme.layout_append (h : Lexeme u t) (hs : Layout s ts) : Layout (u ++ s) (t :: ts) :=
  .cons isGap_nil h hs

theorem Lexeme.layout (h : Lexeme u t) : Layout u [t] := by
  simpa using h.layout_append (.nil isGap_nil)

theorem Layout.gap_append (hgap : IsGap gap) (hs : Layout s ts) : Layout (gap ++ s) ts :=
  (Layout.nil hgap).append hs

theorem layout_of_tokens (h : tokens s = ts) (hts : Token.bad ∉ ts) : Layout s ts := by
  have hall : tokens s = ts ++ [] := by rw [h, List.append_nil]
  obtain ⟨front, rest, rfl, hlayout, hrest⟩ := exists_layout_of_tokens hall hts
  have htail : Layout rest [] := .nil (isGap_of_tokens_eq_nil hrest)
  simpa using hlayout.append htail

end Json
end Reckon
