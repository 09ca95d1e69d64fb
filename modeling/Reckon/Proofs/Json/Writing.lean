import Reckon.Json.Writer
import Reckon.Proofs.Json.Nesting
import Reckon.Proofs.Rendering

/-!
# Writing and reading again

What is written for a value is a document of that value, whatever the indentation
(`IsPlain.document_writeAt`), and it takes no more room than the writer has found to be enough
(`IsPlain.not_meetsTooDeep_writeAt`).  The values are the ones without binary numbers in which every
string is a text and no object has a key twice (`IsPlain`), and nothing in them may be in the way of
writing them, neither a number nor a container (`obstacle?`).

The proof goes along the value.  A string is the inside of a lexeme character by character
(`Inside.charText_append`): a character stands for itself, or has a short escape, or is escaped as
one unit or two.  Behind an array's first item, what is written goes on with whatever items have
been derived so far (`exists_layout_writeItems`), and so it is with the members of an object, where
different keys are needed for the members to stay as they are (`Members.ofList_eq_self`).

Only printable ASCII and line feeds are written (`IsPlain.all_isWritten_writeAt`).
-/

set_option autoImplicit false

namespace Reckon
namespace Json

/-- A value without binary numbers, in which every string is a text and the keys of every object are
different texts. -/
inductive IsPlain : Json → Prop
  | null : IsPlain .null
  | bool (b : Bool) : IsPlain (.bool b)
  | integer (z : Int) : IsPlain (.integer z)
  | string (s : Text) : IsPlain (.string s)
  | array {vs : List Json} : (∀ v ∈ vs, IsPlain v) → IsPlain (.array vs)
  | object {ms : Members} : (ms.map Prod.fst).Nodup → (∀ m ∈ ms, ∃ k, m.1 = Point.ofText k) →
      (∀ m ∈ ms, IsPlain m.2) → IsPlain (.object ms)

/-! ## Strings -/

variable {s : Text} {points : List Point}

/-- Four hexadecimal digits write a unit. -/
theorem exists_unitText {n : Nat} (hn : n < 0x10000) :
    ∃ a b c d, unitText n = [a, b, c, d] ∧ IsHexUnit a b c d n := by
  have hdigit : ∀ m, IsHexDigit (Nat.digitChar (m % 16)) (m % 16) := fun m ↦
    ⟨Nat.mod_lt _ (by decide), .inl rfl⟩
  refine ⟨_, _, _, _, rfl, _, _, _, _, hdigit _, hdigit _, hdigit _, hdigit _, ?_⟩
  simp only [Nat.ofDigits_cons, Nat.ofDigits_nil]
  omega

/-- A character beyond the first 65536 is escaped in two halves, any other one in one unit. -/
theorem Inside.longEscape_append (c : Char) (h : Inside s points) :
    Inside (longEscape c ++ s) (.char c :: points) := by
  have hvalid := toNat_valid c
  unfold longEscape
  dsimp only
  split_ifs with hsmall
  · obtain ⟨a₁, a₂, a₃, a₄, htext, hunit⟩ := exists_unitText hsmall
    rw [htext]
    exact .unit hunit h
  · obtain ⟨high, hhigh⟩ : ∃ n, n = 0xd800 + (c.toNat - 0x10000) / 1024 := ⟨_, rfl⟩
    obtain ⟨low, hlow⟩ : ∃ n, n = 0xdc00 + (c.toNat - 0x10000) % 1024 := ⟨_, rfl⟩
    obtain ⟨a₁, a₂, a₃, a₄, hhighText, hhighUnit⟩ := exists_unitText (n := high) (by omega)
    obtain ⟨b₁, b₂, b₃, b₄, hlowText, hlowUnit⟩ := exists_unitText (n := low) (by omega)
    rw [← hhigh, ← hlow, hhighText, hlowText]
    refine .pair hhighUnit hlowUnit ?_ ?_ ?_ h
    · rw [IsHighHalf]
      omega
    · rw [IsLowHalf]
      omega
    · omega

theorem Inside.charText_append (c : Char) (h : Inside s points) :
    Inside (charText c ++ s) (.char c :: points) := by
  unfold charText
  split_ifs with hquote hescape hline hreturn htab hform hback hplain
  · subst hquote; exact .short .quote h
  · subst hescape; exact .short .backslash h
  · subst hline; exact .short .lineFeed h
  · subst hreturn; exact .short .carriageReturn h
  · subst htab; exact .short .tabulator h
  · subst hform; exact .short .formFeed h
  · subst hback; exact .short .backspace h
  · exact .plain hquote hescape hplain.1 h
  · exact h.longEscape_append c

theorem inside_flatMap_pointText (s : Text) :
    Inside ((Point.ofText s).flatMap pointText) (Point.ofText s) := by
  induction s with
  | nil => exact .nil
  | cons c s ih => exact ih.charText_append c

theorem lexeme_stringText (s : Text) : Lexeme (stringText s) (.string (Point.ofText s)) :=
  .string (inside_flatMap_pointText s)

/-! ## Numbers -/

/-- The digits of a number are a lexeme of it, if there are not too many of them. -/
theorem lexeme_ofInt {z : Int} (hz : Numeral.isOverlong z.natAbs = false) :
    Lexeme (Numeral.ofInt z) (.integer z) := by
  have hwhole : IsWhole (Numeral.digits z.natAbs) :=
    ⟨⟨Numeral.digits_ne_nil _, fun _ ↦ Numeral.isDigit_of_mem_digits⟩, Numeral.isTidy_digits _⟩
  have hshort : ¬ Numeral.maxDigits < (Numeral.digits z.natAbs).length := by
    rw [← Numeral.isOverlong_iff, hz]
    exact Bool.false_ne_true
  have hlexeme := Lexeme.integer (z < 0) hwhole (Nat.not_lt.1 hshort)
  rw [← ofDigits_eq_digitsValue, Numeral.ofDigits_digits] at hlexeme
  rw [Numeral.ofInt]
  split_ifs with hneg
  · rw [decide_eq_true hneg] at hlexeme
    simp only [if_true, show -(z.natAbs : Int) = z by omega] at hlexeme
    exact hlexeme
  · rw [decide_eq_false hneg] at hlexeme
    simp only [Bool.false_eq_true, if_false, show (z.natAbs : Int) = z by omega] at hlexeme
    exact hlexeme

/-! ## Layouts -/

variable {gap u : Text} {t : Token} {ts : List Token} {v : Json} {depth room : Nat}

theorem isGap_lineStart (depth : Nat) : IsGap (lineStart depth) := by
  intro c hc
  rcases List.mem_cons.1 hc with rfl | hc
  · decide
  · rw [List.eq_of_mem_replicate hc]
    decide

/-! ## Members -/

theorem Members.set_of_notMem {key : List Point} {ms : Members} (h : key ∉ ms.map Prod.fst) :
    ms.set key v = ms ++ [(key, v)] := by
  induction ms with
  | nil => rfl
  | cons m ms ih =>
    rw [List.map_cons, List.mem_cons, not_or] at h
    rw [Members.set, if_neg (Ne.symm h.1), ih h.2, List.cons_append]

/-- Members with different keys stay as they are. -/
theorem Members.ofList_eq_self {ms : Members} (h : (ms.map Prod.fst).Nodup) :
    Members.ofList ms = ms := by
  induction ms using List.reverseRecOn with
  | nil => rfl
  | append_singleton ms m ih =>
    rw [List.map_append, List.nodup_append] at h
    obtain ⟨hms, -, hdisjoint⟩ := h
    have hnew : m.1 ∉ ms.map Prod.fst := fun hmem ↦ hdisjoint _ hmem _ (by simp) rfl
    rw [Members.ofList_concat, ih hms, Members.set_of_notMem hnew]

/-! ## Obstacles -/

theorem obstacleItems?_eq_none_iff {vs : List Json} :
    obstacleItems? room vs = none ↔ ∀ v ∈ vs, obstacle? room v = none := by
  induction vs with
  | nil => simp [obstacleItems?]
  | cons v vs ih => simp [obstacleItems?, ih]

theorem obstacleMembers?_eq_none_iff {ms : Members} :
    obstacleMembers? room ms = none ↔ ∀ m ∈ ms, obstacle? room m.2 = none := by
  induction ms with
  | nil => simp [obstacleMembers?]
  | cons m ms ih => simp [obstacleMembers?, ih]

/-- Nothing is in the way of an array if there is room for it and nothing is in the way of an
item. -/
theorem obstacle?_array_eq_none_iff {vs : List Json} :
    obstacle? room (.array vs) = none ↔
      ∃ r, room = r + 1 ∧ ∀ v ∈ vs, obstacle? r v = none := by
  cases room with
  | zero => simp [obstacle?]
  | succ room => simp [obstacle?, obstacleItems?_eq_none_iff]

theorem obstacle?_object_eq_none_iff {ms : Members} :
    obstacle? room (.object ms) = none ↔
      ∃ r, room = r + 1 ∧ ∀ m ∈ ms, obstacle? r m.2 = none := by
  cases room with
  | zero => simp [obstacle?]
  | succ room => simp [obstacle?, obstacleMembers?_eq_none_iff]

/-! ## Values -/

/-- A text lays out the tokens of a value, and there is room for them. -/
def Spells (room : Nat) (s : Text) (v : Json) : Prop :=
  ∃ ts, Layout s ts ∧ Derives (.value v) ts ∧ Fits room ts

/-- A value that is a single token is spelled by a lexeme of it. -/
theorem Lexeme.spells (h : Lexeme u t) (ht : t.level = 0) (hv : Derives (.value v) [t]) :
    Spells room u v :=
  ⟨[t], h.layout, hv, (fits_nil (by omega)).cons ht⟩

/-- Behind some items, what is written for more of them goes on with the array and ends it. -/
theorem exists_layout_writeItems {vs : List Json}
    (h : ∀ v ∈ vs, Spells room (writeAt (depth + 1) v) v) :
    ∃ us, Layout (writeItems depth vs) (us ++ [.closeArray]) ∧ Fits room us ∧
      ∀ {ws ts}, Derives (.items ws) ts → Derives (.items (ws ++ vs)) (ts ++ us) := by
  induction vs with
  | nil =>
    refine ⟨[], Layout.gap_append (isGap_lineStart depth) Lexeme.closeArray.layout,
      fits_nil (by omega), fun hws ↦ ?_⟩
    rwa [List.append_nil, List.append_nil]
  | cons v vs ih =>
    obtain ⟨ts, hlayout, hv, hfits⟩ := h v List.mem_cons_self
    obtain ⟨us, hrest, hfitsRest, hitems⟩ := ih fun w hw ↦ h w (List.mem_cons_of_mem v hw)
    refine ⟨.comma :: (ts ++ us), ?_, (hfits.append hfitsRest).cons rfl, fun hws ↦ ?_⟩
    · rw [writeItems, List.cons_append, List.append_assoc]
      exact Lexeme.comma.layout_append ((hlayout.append hrest).gap_append (isGap_lineStart _))
    · simpa using hitems (.items hws hv)

/-- What is written for a member. -/
theorem layout_member (depth : Nat) {key : List Point} (hkey : ∃ k, key = Point.ofText k)
    (h : Layout s ts) :
    Layout (lineStart depth ++ (pointsText key ++ (':' :: ' ' :: s)))
      (.string key :: .colon :: ts) := by
  obtain ⟨k, rfl⟩ := hkey
  have hvalue : Layout ([' '] ++ s) ts := h.gap_append (by simp [IsGap])
  exact ((lexeme_stringText k).layout_append (Lexeme.colon.layout_append hvalue)).gap_append
    (isGap_lineStart _)

/-- Behind some members, what is written for more of them goes on with the object and ends it. -/
theorem exists_layout_writeMembers {ms : Members} (hkeys : ∀ m ∈ ms, ∃ k, m.1 = Point.ofText k)
    (h : ∀ m ∈ ms, Spells room (writeAt (depth + 1) m.2) m.2) :
    ∃ us, Layout (writeMembers depth ms) (us ++ [.closeObject]) ∧ Fits room us ∧
      ∀ {ws ts}, Derives (.members ws) ts → Derives (.members (ws ++ ms)) (ts ++ us) := by
  induction ms with
  | nil =>
    refine ⟨[], Layout.gap_append (isGap_lineStart depth) Lexeme.closeObject.layout,
      fits_nil (by omega), fun hws ↦ ?_⟩
    rwa [List.append_nil, List.append_nil]
  | cons m ms ih =>
    obtain ⟨hkey, hkeys⟩ := List.forall_mem_cons.1 hkeys
    obtain ⟨ts, hlayout, hv, hfits⟩ := h m List.mem_cons_self
    obtain ⟨us, hrest, hfitsRest, hmembers⟩ :=
      ih hkeys fun n hn ↦ h n (List.mem_cons_of_mem m hn)
    refine ⟨.comma :: .string m.1 :: .colon :: (ts ++ us), ?_,
      (((hfits.append hfitsRest).cons rfl).cons rfl).cons rfl, fun hws ↦ ?_⟩
    · have hmember := layout_member (depth + 1) hkey (hlayout.append hrest)
      simpa [writeMembers] using Lexeme.comma.layout_append hmember
    · simpa using hmembers (.members m.1 hws hv)

/-- What is written for a value spells it, inside any number of containers. -/
theorem IsPlain.spells_writeAt (h : IsPlain v) (hroom : obstacle? room v = none) (depth : Nat) :
    Spells room (writeAt depth v) v := by
  -- The grammar builds a list from its end and the writer from its beginning, so the items behind
  -- the first one are put behind whatever has been derived.
  induction h generalizing room depth with
  | null => exact (Lexeme.keyword .null).spells rfl .null
  | bool b =>
    cases b with
    | true => exact (Lexeme.keyword .true).spells rfl (.bool true)
    | false => exact (Lexeme.keyword .false).spells rfl (.bool false)
  | integer z =>
    have hshort : Numeral.isOverlong z.natAbs = false := by simpa [obstacle?] using hroom
    exact (lexeme_ofInt hshort).spells rfl (.integer z)
  | string s => exact (lexeme_stringText s).spells rfl (.string s)
  | @array vs _ ih =>
    obtain ⟨room, rfl, hvs⟩ := obstacle?_array_eq_none_iff.1 hroom
    cases vs with
    | nil =>
      exact ⟨_, Lexeme.openArray.layout_append Lexeme.closeArray.layout, .emptyArray,
        (fits_nil (Int.natCast_nonneg room)).enclose rfl rfl⟩
    | cons v vs =>
      have hspells : ∀ w ∈ v :: vs, Spells room (writeAt (depth + 1) w) w := fun w hw ↦
        ih w hw (hvs w hw) (depth + 1)
      obtain ⟨ts, hlayout, hv, hfits⟩ := hspells v List.mem_cons_self
      obtain ⟨us, hrest, hfitsRest, hitems⟩ :=
        exists_layout_writeItems fun w hw ↦ hspells w (List.mem_cons_of_mem v hw)
      refine ⟨_, ?_, .array (hitems (.item hv)), (hfits.append hfitsRest).enclose rfl rfl⟩
      rw [List.append_assoc]
      exact Lexeme.openArray.layout_append ((hlayout.append hrest).gap_append (isGap_lineStart _))
  | @object ms hnodup hkeys _ ih =>
    obtain ⟨room, rfl, hms⟩ := obstacle?_object_eq_none_iff.1 hroom
    cases ms with
    | nil =>
      exact ⟨_, Lexeme.openObject.layout_append Lexeme.closeObject.layout, .emptyObject,
        (fits_nil (Int.natCast_nonneg room)).enclose rfl rfl⟩
    | cons m ms =>
      have hspells : ∀ n ∈ m :: ms, Spells room (writeAt (depth + 1) n.2) n.2 := fun n hn ↦
        ih n hn (hms n hn) (depth + 1)
      obtain ⟨hkey, hkeys⟩ := List.forall_mem_cons.1 hkeys
      obtain ⟨ts, hlayout, hv, hfits⟩ := hspells m List.mem_cons_self
      obtain ⟨us, hrest, hfitsRest, hmembers⟩ :=
        exists_layout_writeMembers hkeys fun n hn ↦ hspells n (List.mem_cons_of_mem m hn)
      have hgathers : Gathers (m :: ms) (m :: ms) :=
        gathers_iff.2 (Members.ofList_eq_self hnodup).symm
      refine ⟨_, ?_, .object (hmembers (.member m.1 hv)) hgathers,
        (((hfits.append hfitsRest).cons rfl).cons rfl).enclose rfl rfl⟩
      have hmember := layout_member (depth + 1) hkey (hlayout.append hrest)
      simpa [writeAt] using Lexeme.openObject.layout_append hmember

/-- **What is written for a value is a document of it**, inside any number of containers. -/
theorem IsPlain.document_writeAt (h : IsPlain v) (hroom : obstacle? room v = none) (depth : Nat) :
    Document (writeAt depth v) v := by
  obtain ⟨ts, hlayout, hderives, -⟩ := h.spells_writeAt hroom depth
  exact ⟨ts, hlayout, hderives⟩

/-- The room that is enough for writing is enough for reading. -/
theorem IsPlain.not_meetsTooDeep_writeAt (h : IsPlain v) (hroom : obstacle? room v = none)
    (depth : Nat) (c : Container) : ¬ MeetsTooDeep room (writeAt depth v) c := by
  obtain ⟨ts, hlayout, hderives, hfits⟩ := h.spells_writeAt hroom depth
  exact hlayout.not_meetsTooDeep hderives.isChain hfits.nests

/-- So a value that is written is read again. -/
theorem IsPlain.read_write (h : IsPlain v) (hroom : obstacle? room v = none) :
    read room (write v) = .ok v :=
  read_eq_ok_iff.2 ⟨h.document_writeAt hroom 0, h.not_meetsTooDeep_writeAt hroom 0⟩

/-! ## The characters that are written -/

/-- A line feed, or printable ASCII. -/
def isWritten (c : Char) : Bool := c = '\n' || (' ' ≤ c && c ≤ '~')

theorem isWritten_of_isDigit {c : Char} (h : c.isDigit = true) : isWritten c = true := by
  rw [Char.isDigit_iff_toNat] at h
  have hbounds : ' ' ≤ c ∧ c ≤ '~' := by
    simp only [Char.le_def, UInt32.le_iff_toNat_le]
    exact ⟨le_trans (by decide) h.1, le_trans h.2 (by decide)⟩
  simp [isWritten, hbounds]

theorem all_isWritten_unitText (n : Nat) : (unitText n).all isWritten = true := by
  have hdigit : ∀ m < 16, isWritten (Nat.digitChar m) = true := by decide
  simp [unitText, hdigit, Nat.mod_lt]

theorem all_isWritten_charText (c : Char) : (charText c).all isWritten = true := by
  unfold charText
  split_ifs with hquote hescape hline hreturn htab hform hback hplain
  all_goals first | decide | skip
  · simp [isWritten, hplain]
  · rw [longEscape]
    split_ifs <;> simp [all_isWritten_unitText] <;> decide

/-- White space, quotes and marks. -/
theorem isWritten_marks :
    isWritten ' ' = true ∧ isWritten '\n' = true ∧ isWritten '"' = true ∧ isWritten ',' = true ∧
      isWritten ':' = true ∧ isWritten '[' = true ∧ isWritten ']' = true ∧
      isWritten '\x7b' = true ∧ isWritten '\x7d' = true := by
  decide

theorem all_isWritten_pointsText (ps : List Point) : (pointsText ps).all isWritten = true := by
  have hpoint : ∀ p, (pointText p).all isWritten = true := by
    intro p
    cases p with
    | char c => exact all_isWritten_charText c
    | half unit =>
      have hstart : isWritten '\\' = true ∧ isWritten 'u' = true := by decide
      simp only [pointText, List.all_cons, hstart, all_isWritten_unitText, Bool.and_self]
  simp [pointsText, hpoint, isWritten_marks]

theorem all_isWritten_lineStart (depth : Nat) : (lineStart depth).all isWritten = true := by
  simp [lineStart, isWritten_marks]

theorem all_isWritten_ofInt (z : Int) : (Numeral.ofInt z).all isWritten = true := by
  have hdigits : (Numeral.digits z.natAbs).all isWritten = true :=
    List.all_eq_true.2 fun c hc ↦ isWritten_of_isDigit (Numeral.isDigit_of_mem_digits hc)
  rw [Numeral.ofInt]
  split_ifs
  · rw [List.all_cons, hdigits]
    decide
  · exact hdigits

theorem all_isWritten_writeItems {vs : List Json}
    (h : ∀ v ∈ vs, (writeAt (depth + 1) v).all isWritten = true) :
    (writeItems depth vs).all isWritten = true := by
  induction vs with
  | nil => simp [writeItems, all_isWritten_lineStart, isWritten_marks]
  | cons v vs ih =>
    rw [List.forall_mem_cons] at h
    simp [writeItems, all_isWritten_lineStart, isWritten_marks, h.1, ih h.2]

theorem all_isWritten_writeMembers {ms : Members}
    (h : ∀ m ∈ ms, (writeAt (depth + 1) m.2).all isWritten = true) :
    (writeMembers depth ms).all isWritten = true := by
  induction ms with
  | nil => simp [writeMembers, all_isWritten_lineStart, isWritten_marks]
  | cons m ms ih =>
    rw [List.forall_mem_cons] at h
    simp [writeMembers, all_isWritten_lineStart, all_isWritten_pointsText, isWritten_marks, h.1,
      ih h.2]

/-- Nothing but printable ASCII and line feeds is written. -/
theorem IsPlain.all_isWritten_writeAt (h : IsPlain v) (depth : Nat) :
    (writeAt depth v).all isWritten = true := by
  induction h generalizing depth with
  | null => simp only [writeAt]; decide
  | bool b => cases b <;> simp only [writeAt] <;> decide
  | integer z => exact all_isWritten_ofInt z
  | string s => exact all_isWritten_pointsText _
  | @array vs _ ih =>
    cases vs with
    | nil => simp [writeAt, isWritten_marks]
    | cons v vs =>
      rw [List.forall_mem_cons] at ih
      have hrest := all_isWritten_writeItems fun w hw ↦ ih.2 w hw (depth + 1)
      simp [writeAt, all_isWritten_lineStart, isWritten_marks, ih.1, hrest]
  | @object ms _ _ _ ih =>
    cases ms with
    | nil => simp [writeAt, isWritten_marks]
    | cons m ms =>
      rw [List.forall_mem_cons] at ih
      have hrest := all_isWritten_writeMembers fun n hn ↦ ih.2 n hn (depth + 1)
      simp [writeAt, all_isWritten_lineStart, all_isWritten_pointsText, isWritten_marks, ih.1,
        hrest]

end Json
end Reckon
