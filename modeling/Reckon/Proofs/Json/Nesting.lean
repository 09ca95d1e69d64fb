import Reckon.Proofs.Json.Reading

/-!
# Reading with a limit to nesting

The reader sees a document's tokens only up to the first container for which there is no room, and
then a token for that container instead (`limited_append_opening`); if there is no such container,
it sees all of them (`limited_eq_self`).  There is room as long as no more containers are open than
the limit says (`Nests`).

What a fault that is this makes of a text depends on what else is wrong with it.  Where the text
breaks the rules before it gets so deep, this is what is found, and where a value could not stand it
makes no difference that it begins a container.  So the limit is felt just in a text that begins as
a document does up to the container (`read_eq_tooDeep_iff`), and in any other text nothing is
different from a reader without a limit (`readAll_limited`).  That gives the three results on
reading a text: which texts are documents, and which ones are refused for a number or for a
container in them (`read_eq_ok_iff`, `read_eq_overlong_iff`, `read_eq_tooDeep_iff`).
-/

set_option autoImplicit false

namespace Reckon
namespace Json

variable {limit : Nat} {room : Int} {s : Text} {t : Token} {ts us : List Token} {v : Json}
  {c : Container}

/-! ## Tokens and the room they take -/

theorem nests_nil : Nests room [] ↔ 0 ≤ room := by
  simp [Nests]

theorem nests_cons : Nests room (t :: ts) ↔ 0 ≤ room ∧ Nests (room - t.level) ts := by
  constructor
  · intro h
    refine ⟨by simpa using h [] List.nil_prefix, fun us hus ↦ ?_⟩
    have hlevel := h (t :: us) (List.cons_prefix_cons.2 ⟨rfl, hus⟩)
    rw [List.map_cons, List.sum_cons] at hlevel
    omega
  · rintro ⟨hroom, h⟩ us hus
    rcases List.prefix_cons_iff.1 hus with rfl | ⟨us, rfl, hus⟩
    · simpa using hroom
    · have hlevel := h us (List.cons_prefix_cons.1 hus).2
      rw [List.map_cons, List.sum_cons]
      omega

/-- There is room for tokens that are few, however they nest. -/
theorem nests_of_length_le (h : (ts.length : Int) ≤ room) : Nests room ts := by
  induction ts generalizing room with
  | nil => exact nests_nil.2 (by simpa using h)
  | cons t ts ih =>
    have hlevel : t.level ≤ 1 := by cases t <;> simp [Token.level]
    rw [List.length_cons] at h
    exact nests_cons.2 ⟨by omega, ih (by omega)⟩

theorem Nests.of_prefix (h : Nests room us) (hts : ts <+: us) : Nests room ts :=
  fun ws hws ↦ h ws (hws.trans hts)

theorem Container.opens?_opening (c : Container) : c.opening.opens? = some c := by
  cases c <;> rfl

theorem Container.level_opening (c : Container) : c.opening.level = 1 := by
  cases c <;> rfl

theorem Token.eq_opening (h : t.opens? = some c) : t = c.opening := by
  cases t <;> cases h <;> rfl

/-- What is left of the room when a token has been read that begins no container. -/
theorem Token.room_sub_level (h : t.opens? = none) (room : Nat) :
    (room : Int) - t.level = ((if t.closes then room + 1 else room : Nat) : Int) := by
  cases t with
  | openArray | openObject => cases h
  | _ => simp [Token.level, Token.closes]

theorem limited_opening (room : Nat) (c : Container) (ts : List Token) :
    limited (room + 1) (c.opening :: ts) = c.opening :: limited room ts := by
  cases c <;> rfl

theorem limited_other (h : t.opens? = none) (room : Nat) (ts : List Token) :
    limited room (t :: ts) = t :: limited (if t.closes then room + 1 else room) ts := by
  simp only [limited, h]

theorem Lexeme.ne_tooDeep {u : Text} (h : Lexeme u t) : t ≠ .tooDeep c := by
  rintro rfl
  cases h with
  | keyword hkeyword => cases hkeyword

/-- Nothing is too deep by itself. -/
theorem tooDeep_notMem_tokens : Token.tooDeep c ∉ tokens s := by
  fun_induction tokens s with
  | case1 => simp
  | case2 => simp
  | case3 s _ _ _ t rest hscan ih =>
    obtain ⟨u, -, hlexeme, -⟩ := exists_lexeme_of_scanToken? hscan
    rw [List.mem_cons, not_or]
    exact ⟨hlexeme.ne_tooDeep.symm, ih⟩

/-- Tokens for which there is room are all seen. -/
theorem limited_append (h : Nests limit ts) (us : List Token) :
    ∃ room : Nat, (room : Int) = limit - (ts.map Token.level).sum ∧
      limited limit (ts ++ us) = ts ++ limited room us := by
  induction ts generalizing limit with
  | nil => exact ⟨limit, by simp, rfl⟩
  | cons t ts ih =>
    obtain ⟨-, hrest⟩ := nests_cons.1 h
    rw [List.cons_append, List.map_cons, List.sum_cons]
    cases hopens : t.opens? with
    | none =>
      rw [Token.room_sub_level hopens] at hrest
      obtain ⟨room, hroom, htail⟩ := ih hrest
      refine ⟨room, ?_, by rw [limited_other hopens, htail, List.cons_append]⟩
      rw [hroom, ← Token.room_sub_level hopens]
      omega
    | some c =>
      obtain rfl := Token.eq_opening hopens
      rw [Container.level_opening] at hrest ⊢
      have hpos : 0 ≤ (limit : Int) - 1 := by simpa using hrest [] List.nil_prefix
      obtain ⟨limit, rfl⟩ : ∃ n, limit = n + 1 := ⟨limit - 1, by omega⟩
      rw [show ((limit + 1 : Nat) : Int) - 1 = limit by omega] at hrest
      obtain ⟨room, hroom, htail⟩ := ih hrest
      exact ⟨room, by omega, by rw [limited_opening, htail, List.cons_append]⟩

theorem limited_eq_self (h : Nests limit ts) : limited limit ts = ts := by
  obtain ⟨room, -, hall⟩ := limited_append h []
  rwa [List.append_nil, limited, List.append_nil] at hall

theorem nests_concat : Nests room (ts ++ [t]) ↔
    Nests room ts ∧ ((ts ++ [t]).map Token.level).sum ≤ room := by
  constructor
  · exact fun h ↦ ⟨h.of_prefix (List.prefix_append _ _), h _ List.prefix_rfl⟩
  · rintro ⟨h, hlast⟩ us hus
    rcases List.prefix_concat_iff.1 hus with rfl | hus
    · exact hlast
    · exact h us hus

/-- Nothing is seen of the first container for which there is no room, or behind it. -/
theorem limited_append_opening (h : Nests limit ts) (hdeep : ¬ Nests limit (ts ++ [c.opening])) :
    limited limit (ts ++ c.opening :: us) = ts ++ [.tooDeep c] := by
  obtain ⟨room, hroom, hall⟩ := limited_append h (c.opening :: us)
  obtain rfl : room = 0 := by
    have hlevel : ¬ ((ts ++ [c.opening]).map Token.level).sum ≤ (limit : Int) :=
      fun hle ↦ hdeep (nests_concat.2 ⟨h, hle⟩)
    rw [List.map_append, List.sum_append, List.map_singleton, List.sum_singleton,
      Container.level_opening] at hlevel
    omega
  simp only [hall, limited, Container.opens?_opening]

/-- Where there is no room for all tokens, there is a first container for which there is none. -/
theorem exists_opening_of_not_nests (h : ¬ Nests limit ts) :
    ∃ us, ∃ c : Container, ∃ us', ts = us ++ c.opening :: us' ∧ Nests limit us ∧
      ¬ Nests limit (us ++ [c.opening]) := by
  induction ts using List.reverseRecOn with
  | nil => exact absurd (nests_nil.2 (by omega)) h
  | append_singleton ts t ih =>
    by_cases hts : Nests limit ts
    · cases hopens : t.opens? with
      | some c =>
        obtain rfl := Token.eq_opening hopens
        exact ⟨ts, c, [], rfl, hts, h⟩
      | none =>
        refine absurd (nests_concat.2 ⟨hts, ?_⟩) h
        have hlevel := hts ts List.prefix_rfl
        have hnoneed : t.level ≤ 0 := by
          cases t with
          | openArray | openObject => cases hopens
          | _ => simp [Token.level]
        rw [List.map_append, List.sum_append, List.map_singleton, List.sum_singleton]
        omega
    · obtain ⟨us, c, us', rfl, hus, hdeep⟩ := ih hts
      exact ⟨us, c, us' ++ [t], by simp, hus, hdeep⟩

/-! ## Tokens that leave the room as it was -/

/-- Tokens for which there is room, and which end as many containers as they begin. -/
structure Fits (room : Int) (ts : List Token) : Prop where
  nests : Nests room ts
  level : (ts.map Token.level).sum = 0

theorem Fits.room_nonneg (h : Fits room ts) : 0 ≤ room := by
  simpa using h.nests [] List.nil_prefix

theorem fits_nil (hroom : 0 ≤ room) : Fits room [] := ⟨nests_nil.2 hroom, rfl⟩

theorem Fits.cons (ht : t.level = 0) (h : Fits room ts) : Fits room (t :: ts) := by
  refine ⟨nests_cons.2 ⟨h.room_nonneg, ?_⟩, ?_⟩
  · rw [ht, Int.sub_zero]
    exact h.nests
  · rw [List.map_cons, List.sum_cons, ht, h.level, Int.add_zero]

theorem Fits.append (hts : Fits room ts) (hus : Fits room us) : Fits room (ts ++ us) := by
  refine ⟨fun ws hws ↦ ?_, by rw [List.map_append, List.sum_append, hts.level, hus.level]; rfl⟩
  rcases List.prefix_or_prefix_of_prefix hws (List.prefix_append ts us) with hfront | ⟨rest, rfl⟩
  · exact hts.nests ws hfront
  · rw [List.map_append, List.sum_append, hts.level, Int.zero_add]
    exact hus.nests rest ((List.prefix_append_right_inj ts).1 hws)

/-- A container takes room for one more. -/
theorem Fits.enclose (h : Fits room ts) {opening closing : Token} (hopening : opening.level = 1)
    (hclosing : closing.level = -1) : Fits (room + 1) (opening :: (ts ++ [closing])) := by
  have hlevel : ((ts ++ [closing]).map Token.level).sum = -1 := by
    rw [List.map_append, List.sum_append, h.level, List.map_singleton, List.sum_singleton, hclosing]
    rfl
  have hroom := h.room_nonneg
  refine ⟨nests_cons.2 ⟨by omega, ?_⟩, ?_⟩
  · rw [hopening, Int.add_sub_cancel]
    exact nests_concat.2 ⟨h.nests, by omega⟩
  · rw [List.map_cons, List.sum_cons, hlevel, hopening]
    rfl

/-! ## Texts that get too deep -/

theorem meetsTooDeep_iff :
    MeetsTooDeep limit s c ↔ ∃ ts us p q, tokens s = ts ++ c.opening :: us ∧
      (Progress.value []).readAll ts = .ok p ∧ p.read .null = .ok q ∧ Nests limit ts ∧
        ¬ Nests limit (ts ++ [c.opening]) := by
  have hnumber : c.opening.isNumber = true → ∃ n, c.opening = .overlong n := by cases c <;> nofun
  have hbad : c.opening ≠ .bad := by cases c <;> nofun
  simp only [MeetsTooDeep, comesTo_iff hnumber hbad]
  constructor
  · rintro ⟨ts, ⟨us, p, q, htokens, hts, hnull⟩, hnests, hdeep⟩
    exact ⟨ts, us, p, q, htokens, hts, hnull, hnests, hdeep⟩
  · rintro ⟨ts, us, p, q, htokens, hts, hnull, hnests, hdeep⟩
    exact ⟨ts, ⟨us, p, q, htokens, hts, hnull⟩, hnests, hdeep⟩

/-- A text in which there is room for all tokens is not too deep. -/
theorem Layout.not_meetsTooDeep (h : Layout s ts) (hparted : ts.IsChain Token.Parted)
    (hnests : Nests limit ts) : ¬ MeetsTooDeep limit s c := by
  rw [meetsTooDeep_iff, h.tokens_eq hparted]
  rintro ⟨front, rest, -, -, rfl, -, -, -, hdeep⟩
  exact hdeep (hnests.of_prefix ⟨rest, by simp⟩)

/-- Where no value has to come it makes no difference whether there is room for a container. -/
theorem Progress.read_container_eq_malformed {p : Progress} (h : ∀ q, p.read .null ≠ .ok q) :
    p.read (.tooDeep c) = .error .malformed ∧ p.read c.opening = .error .malformed := by
  cases p with
  | value frames | firstItem frames => exact absurd rfl (h _)
  | _ => cases c <;> exact ⟨rfl, rfl⟩

/-- **A limit that a text does not come to makes no difference.** -/
theorem readAll_limited (h : ∀ c, ¬ MeetsTooDeep limit s c) :
    (Progress.value []).readAll (limited limit (tokens s)) =
      (Progress.value []).readAll (tokens s) := by
  by_cases hnests : Nests limit (tokens s)
  · rw [limited_eq_self hnests]
  · obtain ⟨ts, c, us, htokens, hts, hdeep⟩ := exists_opening_of_not_nests hnests
    rw [htokens, limited_append_opening hts hdeep, Progress.readAll_append,
      Progress.readAll_append]
    cases hread : (Progress.value []).readAll ts with
    | error e => rfl
    | ok p =>
      have hnull : ∀ q, p.read .null ≠ .ok q := fun q hnull ↦
        h c (meetsTooDeep_iff.2 ⟨ts, us, p, q, htokens, hread, hnull, hts, hdeep⟩)
      obtain ⟨htooDeep, hopening⟩ := Progress.read_container_eq_malformed (c := c) hnull
      simp only [Except.bind, Progress.readAll_cons, htooDeep, hopening]

/-- Whatever the limit is, there is a text that comes to it. -/
theorem meetsTooDeep_brackets (limit : Nat) :
    MeetsTooDeep limit (List.replicate (limit + 1) '[') .array := by
  have hlayout : ∀ n : Nat, Layout (List.replicate n '[') (List.replicate n .openArray) := by
    intro n
    induction n with
    | zero => exact .nil isGap_nil
    | succ n ih => exact Lexeme.openArray.layout_append ih
  have hderives : ∀ n : Nat, ∃ v, Derives (.value v)
      (List.replicate n .openArray ++ .null :: List.replicate n .closeArray) := by
    intro n
    induction n with
    | zero => exact ⟨.null, .null⟩
    | succ n ih =>
      obtain ⟨v, hv⟩ := ih
      exact ⟨_, by simpa [List.replicate_succ, ← List.replicate_succ'] using hv.item.array⟩
  have hdeep : ¬ Nests limit (List.replicate limit Token.openArray ++ [.openArray]) := by
    rw [nests_concat]
    simp [Token.level]
  obtain ⟨v, hv⟩ := hderives limit
  refine ⟨_, ⟨_, ['['], [], _, v, ?_, hlayout limit, hv, .openArray, nofun⟩,
    nests_of_length_le (by simp), hdeep⟩
  rw [List.append_nil, List.replicate_succ']

/-! ## Texts -/

theorem read_eq_ok_iff_readAll :
    read limit s = .ok v ↔
      (Progress.value []).readAll (limited limit (tokens s)) = .ok (.done v) := by
  rw [read]
  split <;> simp_all

theorem read_eq_error_iff_readAll {e : ReadFault} (he : e ≠ .malformed) :
    read limit s = .error e ↔
      (Progress.value []).readAll (limited limit (tokens s)) = .error e := by
  rw [read]
  split <;> simp_all [Ne.symm he]

/-- **A text is refused for a container in it** if it begins as a document does and begins a
container there that is inside too many others. -/
theorem read_eq_tooDeep_iff : read limit s = .error (.tooDeep c) ↔ MeetsTooDeep limit s c := by
  rw [read_eq_error_iff_readAll (by simp), meetsTooDeep_iff]
  constructor
  · intro h
    obtain ⟨ts, t, us, p, hall, hts, ht⟩ := Progress.exists_of_readAll_eq_error h
    obtain ⟨hfault, q, hnull⟩ := (Progress.read_eq_error_iff (by simp)).1 ht
    cases t <;> cases hfault
    by_cases hnests : Nests limit (tokens s)
    · rw [limited_eq_self hnests] at hall
      exact absurd (by simp [hall]) (tooDeep_notMem_tokens (s := s) (c := c))
    · obtain ⟨ts', c', us', htokens, hts', hdeep⟩ := exists_opening_of_not_nests hnests
      rw [htokens, limited_append_opening hts' hdeep] at hall
      rcases List.eq_nil_or_concat us with rfl | ⟨us, t, rfl⟩
      · obtain ⟨rfl, hlast⟩ := List.append_inj' hall rfl
        cases hlast
        exact ⟨ts', us', p, q, htokens, hts, hnull, hts', hdeep⟩
      · rw [List.concat_eq_append, ← List.cons_append, ← List.append_assoc] at hall
        obtain ⟨rfl, -⟩ := List.append_inj' hall rfl
        exact absurd (by simp [htokens]) (tooDeep_notMem_tokens (s := s) (c := c))
  · rintro ⟨ts, us, p, q, htokens, hts, hnull, hnests, hdeep⟩
    rw [htokens, limited_append_opening hnests hdeep]
    refine Progress.readAll_eq_error_of_read hts ?_
    exact (Progress.read_eq_error_iff (by simp)).2 ⟨rfl, q, hnull⟩

/-- A text that is read some other way does not come to the limit. -/
theorem not_meetsTooDeep_of_read {r : Except ReadFault Json} (h : read limit s = r)
    (hr : ∀ c, r ≠ .error (.tooDeep c)) (c : Container) : ¬ MeetsTooDeep limit s c := by
  rw [← read_eq_tooDeep_iff, h]
  exact hr c

/-- **The documents are the texts that are read**, as far as the limit allows. -/
theorem read_eq_ok_iff :
    read limit s = .ok v ↔ Document s v ∧ ∀ c, ¬ MeetsTooDeep limit s c := by
  constructor
  · intro h
    have hroom := not_meetsTooDeep_of_read h (by simp)
    rw [read_eq_ok_iff_readAll, readAll_limited hroom] at h
    exact ⟨document_iff_readAll.2 h, hroom⟩
  · rintro ⟨h, hroom⟩
    rw [read_eq_ok_iff_readAll, readAll_limited hroom]
    exact document_iff_readAll.1 h

/-- **A text is refused for a number in it** if it begins as a document does and comes to a whole
number of too many digits, and is not too deep before. -/
theorem read_eq_overlong_iff {n : Nat} :
    read limit s = .error (.overlong n) ↔ MeetsOverlong s n ∧ ∀ c, ¬ MeetsTooDeep limit s c := by
  constructor
  · intro h
    have hroom := not_meetsTooDeep_of_read h (by simp)
    rw [read_eq_error_iff_readAll (by simp), readAll_limited hroom] at h
    exact ⟨meetsOverlong_iff_readAll.2 h, hroom⟩
  · rintro ⟨h, hroom⟩
    rw [read_eq_error_iff_readAll (by simp), readAll_limited hroom]
    exact meetsOverlong_iff_readAll.1 h

end Json
end Reckon
