import Reckon.Json.Reader
import Reckon.Proofs.Json.Layout
import Reckon.Proofs.Json.Members

/-!
# Reading and the grammar

The reader goes through the tokens of a text without recursion, with the containers that are open on
a stack.  What it reads is nevertheless what the grammar derives.

From the grammar to the reader: a phrase takes the reader from where it may begin to where it has
ended, whatever comes next (`Derives.readAll_append`).

From the reader to the grammar: what has been read so far is, for each kind of progress, made up of
phrases that are finished and containers that are open (`Reached`, `Opens`); a token keeps that up
(`Reached.read`), and so does the whole reading.  What is open can always be closed again
(`Opens.exists_derives`), so whatever has been read without a fault is the beginning of a document.

Together, the documents are the texts whose tokens are read to the end (`document_iff_readAll`).  A
text comes to a token in the place of a value if what is before the token is read, and a null could
be read next (`comesTo_iff`); a number of too many digits is then the fault that is found
(`meetsOverlong_iff_readAll`).
-/

set_option autoImplicit false

namespace Reckon
namespace Json

variable {p q : Progress} {s : Text} {t : Token} {ts us : List Token} {v : Json}
  {frames : List Frame} {phrase : Phrase}

/-! ## Reading tokens after one another -/

theorem Progress.readAll_cons :
    p.readAll (t :: ts) = (p.read t).bind fun p ↦ p.readAll ts := by
  rw [readAll]
  cases p.read t <;> rfl

theorem Progress.readAll_append :
    p.readAll (ts ++ us) = (p.readAll ts).bind fun p ↦ p.readAll us := by
  induction ts generalizing p with
  | nil => rfl
  | cons t ts ih =>
    rw [List.cons_append, readAll_cons, readAll_cons]
    cases p.read t with
    | error e => rfl
    | ok p => exact ih

/-- What is read before a token leads to where the token is read. -/
theorem Progress.exists_of_readAll_eq_ok (h : p.readAll (ts ++ t :: us) = .ok q) :
    ∃ q₁ q₂, p.readAll ts = .ok q₁ ∧ q₁.read t = .ok q₂ := by
  rw [readAll_append] at h
  cases hts : p.readAll ts with
  | error e => rw [hts] at h; cases h
  | ok q₁ =>
    rw [hts, Except.bind, readAll_cons] at h
    cases ht : q₁.read t with
    | error e => rw [ht] at h; cases h
    | ok q₂ => exact ⟨q₁, q₂, rfl, ht⟩

/-! ## Strings -/

theorem ofPoints_ofText (text : Text) : ofPoints (Point.ofText text) = .string text := by
  rw [ofPoints, Point.text?_eq_some_iff.2 rfl]

theorem ofPoints_broken {points : List Point} (h : ∀ text, points ≠ Point.ofText text) :
    ofPoints points = .broken points := by
  rw [ofPoints]
  split
  · next hpoints => exact absurd (Point.text?_eq_some_iff.1 hpoints) (h _)
  · rfl

/-- Whatever its points are, a string is a value. -/
theorem derives_ofPoints (points : List Point) :
    Derives (.value (ofPoints points)) [.string points] := by
  by_cases h : ∃ text, points = Point.ofText text
  · obtain ⟨text, rfl⟩ := h
    rw [ofPoints_ofText]
    exact .string text
  · have hbroken : ∀ text, points ≠ Point.ofText text := fun text heq ↦ h ⟨text, heq⟩
    rw [ofPoints_broken hbroken]
    exact .broken hbroken

/-! ## From the grammar to the reader -/

/-- Where a phrase may begin. -/
def Phrase.before (frames : List Frame) : Phrase → Progress
  | .value _ => .value frames
  | .items _ => .firstItem frames
  | .members _ => .firstKey frames

/-- Where a phrase has ended. -/
def Phrase.behind (frames : List Frame) : Phrase → Progress
  | .value v => deliver v frames
  | .items vs => .nextItem vs frames
  | .members ms => .nextMember (Members.ofList ms) frames

/-- A value may stand where the first item of an array has to come. -/
theorem Derives.readAll_firstItem (h : Derives (.value v) ts) :
    (Progress.firstItem frames).readAll (ts ++ us) =
      (Progress.value (.array [] :: frames)).readAll (ts ++ us) := by
  cases h <;> rfl

/-- A phrase takes the reader from where it may begin to where it has ended. -/
theorem Derives.readAll_append (h : Derives phrase ts) (frames : List Frame) (us : List Token) :
    (phrase.before frames).readAll (ts ++ us) = (phrase.behind frames).readAll us := by
  induction h generalizing frames us with
  | null | bool _ | integer _ | float _ | emptyArray | emptyObject => rfl
  | string text =>
    show (deliver (ofPoints (Point.ofText text)) frames).readAll us = _
    rw [ofPoints_ofText]
    rfl
  | @broken points hpoints =>
    show (deliver (ofPoints points) frames).readAll us = _
    rw [ofPoints_broken hpoints]
    rfl
  | array _ ih =>
    rw [List.cons_append, List.append_assoc]
    exact ih frames _
  | object _ hgathers ih =>
    obtain rfl := gathers_iff.1 hgathers
    rw [List.cons_append, List.append_assoc]
    exact ih frames _
  | item hv ih => exact hv.readAll_firstItem.trans (ih (.array [] :: frames) us)
  | @items vs v ts us' _ _ ihitems ihvalue =>
    rw [List.append_assoc, List.cons_append]
    exact (ihitems frames _).trans (ihvalue (.array vs :: frames) us)
  | @member key v ts _ ih => exact ih (.member [] key :: frames) us
  | @members ms key v ts us' _ _ ihmembers ihvalue =>
    rw [List.append_assoc, List.cons_append]
    refine (ihmembers frames _).trans
      ((ihvalue (.member (Members.ofList ms) key :: frames) us).trans ?_)
    rw [Phrase.behind, Phrase.behind, Members.ofList_concat]
    rfl

/-! ## What the tokens of a phrase are like -/

theorem Derives.bad_notMem (h : Derives phrase ts) : Token.bad ∉ ts := by
  induction h <;> simp_all

theorem Token.isChain_cons (ht : t.isNumber = false) (hts : ts.IsChain Parted) :
    (t :: ts).IsChain Parted := by
  refine List.isChain_cons.2 ⟨fun u _ hnumber ↦ ?_, hts⟩
  rw [ht] at hnumber
  cases hnumber

theorem Token.isChain_append (hts : ts.IsChain Parted) (ht : t.isMark = true)
    (hus : (t :: us).IsChain Parted) : (ts ++ t :: us).IsChain Parted := by
  refine List.isChain_append.2 ⟨hts, hus, fun _ _ u hu _ ↦ ?_⟩
  cases hu
  exact ht

/-- In a phrase a number is followed by a mark. -/
theorem Derives.isChain (h : Derives phrase ts) : ts.IsChain Token.Parted := by
  induction h with
  | null | bool _ | integer _ | float _ | string _ | broken _ => exact .singleton _
  | emptyArray | emptyObject => exact Token.isChain_cons rfl (.singleton _)
  | array _ ih | object _ _ ih =>
    exact Token.isChain_cons rfl (Token.isChain_append ih rfl (.singleton _))
  | item _ ih => exact ih
  | items _ _ ihitems ihvalue =>
    exact Token.isChain_append ihitems rfl (Token.isChain_cons rfl ihvalue)
  | member key _ ih => exact Token.isChain_cons rfl (Token.isChain_cons rfl ih)
  | members key _ _ ihmembers ihvalue =>
    exact Token.isChain_append ihmembers rfl
      (Token.isChain_cons rfl (Token.isChain_cons rfl (Token.isChain_cons rfl ihvalue)))

/-! ## From the reader to the grammar -/

/-- The tokens that open containers, up to where a value has to come, and the containers with what
they hold by then. -/
inductive Opens : List Token → List Frame → Prop
  | nil : Opens [] []
  | firstItem {ts : List Token} {frames : List Frame} : Opens ts frames →
      Opens (ts ++ [.openArray]) (.array [] :: frames)
  | item {ts us : List Token} {vs : List Json} {frames : List Frame} : Opens ts frames →
      Derives (.items vs) us → Opens (ts ++ .openArray :: (us ++ [.comma])) (.array vs :: frames)
  | firstMember {ts : List Token} {frames : List Frame} (key : List Point) : Opens ts frames →
      Opens (ts ++ [.openObject, .string key, .colon]) (.member [] key :: frames)
  | member {ts us : List Token} {ms : List (List Point × Json)} {frames : List Frame}
      (key : List Point) : Opens ts frames → Derives (.members ms) us →
      Opens (ts ++ .openObject :: (us ++ [.comma, .string key, .colon]))
        (.member (Members.ofList ms) key :: frames)

/-- What has been read when the reader has come so far. -/
def Reached (ts : List Token) : Progress → Prop
  | .value frames => Opens ts frames
  | .firstItem frames => ∃ us, Opens us frames ∧ ts = us ++ [.openArray]
  | .firstKey frames => ∃ us, Opens us frames ∧ ts = us ++ [.openObject]
  | .key members frames => ∃ us us' ms, Opens us frames ∧ Derives (.members ms) us' ∧
      members = Members.ofList ms ∧ ts = us ++ .openObject :: (us' ++ [.comma])
  | .colon members key frames => Opens (ts ++ [.colon]) (.member members key :: frames)
  | .nextItem items frames => ∃ us us', Opens us frames ∧ Derives (.items items) us' ∧
      ts = us ++ .openArray :: us'
  | .nextMember members frames => ∃ us us' ms, Opens us frames ∧ Derives (.members ms) us' ∧
      members = Members.ofList ms ∧ ts = us ++ .openObject :: us'
  | .done v => Derives (.value v) ts

theorem reached_start : Reached [] (.value []) := Opens.nil

/-- A value that is finished belongs to the innermost open container. -/
theorem Opens.reached_deliver (h : Opens ts frames) (hv : Derives (.value v) us) :
    Reached (ts ++ us) (deliver v frames) := by
  cases h with
  | nil => exact hv
  | firstItem h => exact ⟨_, us, h, .item hv, by simp⟩
  | item h hitems => exact ⟨_, _, h, .items hitems hv, by simp⟩
  | firstMember key h => exact ⟨_, _, [(key, v)], h, .member key hv, rfl, by simp⟩
  | @member _ us' ms _ key h hmembers =>
    exact ⟨_, _, ms ++ [(key, v)], h, .members key hmembers hv,
      (Members.ofList_concat ms key v).symm, by simp⟩

theorem Opens.reached_readValue (h : Opens ts frames) (hread : readValue frames t = .ok q) :
    Reached (ts ++ [t]) q := by
  cases t with
  | null => cases hread; exact h.reached_deliver .null
  | bool b => cases hread; exact h.reached_deliver (.bool b)
  | integer z => cases hread; exact h.reached_deliver (.integer z)
  | float x => cases hread; exact h.reached_deliver (.float x)
  | string points => cases hread; exact h.reached_deliver (derives_ofPoints points)
  | openArray => cases hread; exact ⟨ts, h, rfl⟩
  | openObject => cases hread; exact ⟨ts, h, rfl⟩
  | closeArray | closeObject | colon | comma | overlong _ | tooDeep _ | bad => cases hread

/-- A token keeps to the grammar. -/
theorem Reached.read (h : Reached ts p) (hread : p.read t = .ok q) : Reached (ts ++ [t]) q := by
  cases p with
  | value frames => exact Opens.reached_readValue h hread
  | firstItem frames =>
    obtain ⟨us, hopens, rfl⟩ := h
    cases t with
    | closeArray =>
      cases hread
      simpa using hopens.reached_deliver .emptyArray
    | _ => exact hopens.firstItem.reached_readValue hread
  | firstKey frames =>
    obtain ⟨us, hopens, rfl⟩ := h
    cases t with
    | closeObject =>
      cases hread
      simpa using hopens.reached_deliver .emptyObject
    | string key =>
      cases hread
      simpa [Reached] using hopens.firstMember key
    | _ => cases hread
  | key members frames =>
    obtain ⟨us, us', ms, hopens, hmembers, rfl, rfl⟩ := h
    cases t with
    | string key =>
      cases hread
      simpa [Reached] using hopens.member key hmembers
    | _ => cases hread
  | colon members key frames =>
    cases t with
    | colon => cases hread; exact h
    | _ => cases hread
  | nextItem items frames =>
    obtain ⟨us, us', hopens, hitems, rfl⟩ := h
    cases t with
    | comma =>
      cases hread
      simpa [Reached] using hopens.item hitems
    | closeArray =>
      cases hread
      simpa using hopens.reached_deliver (.array hitems)
    | _ => cases hread
  | nextMember members frames =>
    obtain ⟨us, us', ms, hopens, hmembers, rfl, rfl⟩ := h
    cases t with
    | comma =>
      cases hread
      exact ⟨us, us', ms, hopens, hmembers, rfl, by simp⟩
    | closeObject =>
      cases hread
      simpa using hopens.reached_deliver (.object hmembers (gathers_iff.2 rfl))
    | _ => cases hread
  | done v => cases t <;> cases hread

/-- So do all of them. -/
theorem Reached.readAll (h : Reached ts p) (hread : p.readAll us = .ok q) :
    Reached (ts ++ us) q := by
  induction us generalizing ts p with
  | nil =>
    cases hread
    rwa [List.append_nil]
  | cons t us ih =>
    rw [Progress.readAll_cons] at hread
    cases ht : p.read t with
    | error e => rw [ht] at hread; cases hread
    | ok p' =>
      rw [ht] at hread
      have htail := ih (h.read ht) hread
      rwa [List.append_assoc] at htail

/-- What is open can be closed again. -/
theorem Opens.exists_derives (h : Opens ts frames) (hv : Derives (.value v) us) :
    ∃ rest w, Derives (.value w) (ts ++ (us ++ rest)) := by
  induction h generalizing v us with
  | nil => exact ⟨[], v, by simpa using hv⟩
  | firstItem _ ih =>
    obtain ⟨rest, w, hw⟩ := ih (.array (.item hv))
    exact ⟨.closeArray :: rest, w, by simpa using hw⟩
  | item _ hitems ih =>
    obtain ⟨rest, w, hw⟩ := ih (.array (.items hitems hv))
    exact ⟨.closeArray :: rest, w, by simpa using hw⟩
  | firstMember key _ ih =>
    obtain ⟨rest, w, hw⟩ := ih (.object (.member key hv) (gathers_iff.2 rfl))
    exact ⟨.closeObject :: rest, w, by simpa using hw⟩
  | member key _ hmembers ih =>
    obtain ⟨rest, w, hw⟩ := ih (.object (.members key hmembers hv) (gathers_iff.2 rfl))
    exact ⟨.closeObject :: rest, w, by simpa using hw⟩

/-! ## Places for values -/

/-- A null is read where a value has to come, and there what has been read opens containers. -/
theorem Reached.exists_opens (h : Reached ts p) (hnull : p.read .null = .ok q) :
    ∃ frames, Opens ts frames := by
  cases p with
  | value frames => exact ⟨frames, h⟩
  | firstItem frames =>
    obtain ⟨us, hopens, rfl⟩ := h
    exact ⟨_, hopens.firstItem⟩
  | _ => cases hnull

/-- The tokens of a text that begins with a layout, up to one that stands behind it where a null
could stand. -/
theorem ComesTo.tokens_eq (h : ComesTo s ts t) :
    ∃ us p q, tokens s = ts ++ t :: us ∧ (Progress.value []).readAll ts = .ok p ∧
      p.read .null = .ok q := by
  obtain ⟨front, u, rest, us, v, rfl, hlayout, hderives, hlexeme, hends⟩ := h
  obtain ⟨hparted, -, hlast⟩ := List.isChain_append.1 hderives.isChain
  have hlast : ∀ t ∈ ts.getLast?, t.isNumber = true → ¬ ContinuesNumber (u ++ rest) :=
    fun t ht hnumber ↦ by cases hlast t ht _ rfl hnumber
  have hscan : tokens (u ++ rest) = t :: tokens rest := by
    obtain ⟨c, v, rfl, hc⟩ := hlexeme.exists_cons
    have hscan := hlexeme.scanToken? hends
    rw [List.cons_append] at hscan ⊢
    rw [tokens_cons hc, hscan]
  have hread : (Progress.value []).readAll (ts ++ .null :: us ++ []) = .ok (.done v) :=
    hderives.readAll_append [] []
  rw [List.append_nil] at hread
  obtain ⟨p, q, hts, hnull⟩ := Progress.exists_of_readAll_eq_ok hread
  exact ⟨tokens rest, p, q, by rw [hlayout.tokens_append hparted hlast, hscan], hts, hnull⟩

/-- **A text comes to a token** if what stands before it is read, and a null could be read next.
For numbers that have a value this need not be so, as they might go on. -/
theorem comesTo_iff (hnumber : t.isNumber = true → ∃ n, t = .overlong n) (hbad : t ≠ .bad) :
    ComesTo s ts t ↔ ∃ us p q, tokens s = ts ++ t :: us ∧
      (Progress.value []).readAll ts = .ok p ∧ p.read .null = .ok q := by
  constructor
  · exact ComesTo.tokens_eq
  · rintro ⟨us, p, q, htokens, hts, hnull⟩
    have hreached : Reached ts p := reached_start.readAll hts
    obtain ⟨frames, hopens⟩ := hreached.exists_opens hnull
    obtain ⟨rest, w, hderives⟩ := hopens.exists_derives .null
    have hgood : Token.bad ∉ ts := fun hmem ↦ hderives.bad_notMem (List.mem_append_left _ hmem)
    obtain ⟨front, tail, rfl, hlayout, htail⟩ := exists_layout_of_tokens htokens hgood
    obtain ⟨gap, u, tail, rfl, hgap, hlexeme, -, hends⟩ := exists_of_tokens_eq_cons htail hbad
    have hfront : Layout (front ++ gap) ts := by simpa using hlayout.append (.nil hgap)
    refine ⟨front ++ gap, u, tail, rest, w, by simp, hfront, hderives, hlexeme, fun hn ↦ ?_⟩
    obtain ⟨n, hn⟩ := hnumber hn
    exact hends n hn

/-! ## Faults -/

/-- The fault that a token is where a value has to come, if it breaks no rule of JSON. -/
def Token.fault? : Token → Option ReadFault
  | .overlong digits => some (.overlong digits)
  | .tooDeep container => some (.tooDeep container)
  | _ => none

/-- Any other fault but a broken rule is the one of the token, in the place of a value. -/
theorem Progress.read_eq_error_iff {e : ReadFault} (he : e ≠ .malformed) :
    p.read t = .error e ↔ t.fault? = some e ∧ ∃ q, p.read .null = .ok q := by
  constructor
  · intro h
    cases p with
    | value frames | firstItem frames =>
      cases t <;> cases h <;> first | exact absurd rfl he | exact ⟨rfl, _, rfl⟩
    | _ => cases t <;> cases h <;> exact absurd rfl he
  · rintro ⟨ht, q, hnull⟩
    cases p with
    | value frames | firstItem frames => cases t <;> cases ht <;> rfl
    | _ => cases hnull

theorem Progress.exists_of_readAll_eq_error {e : ReadFault} (h : p.readAll ts = .error e) :
    ∃ us t us' q, ts = us ++ t :: us' ∧ p.readAll us = .ok q ∧ q.read t = .error e := by
  induction ts generalizing p with
  | nil => cases h
  | cons t ts ih =>
    rw [readAll_cons] at h
    cases ht : p.read t with
    | error e' =>
      rw [ht] at h
      cases h
      exact ⟨[], t, ts, p, rfl, rfl, ht⟩
    | ok p' =>
      rw [ht] at h
      obtain ⟨us, t', us', q, rfl, hus, hq⟩ := ih h
      exact ⟨t :: us, t', us', q, rfl, by rw [readAll_cons, ht]; exact hus, hq⟩

theorem Progress.readAll_eq_error_of_read {e : ReadFault} (hts : p.readAll ts = .ok q)
    (ht : q.read t = .error e) : p.readAll (ts ++ t :: us) = .error e := by
  rw [readAll_append, hts, Except.bind, readAll_cons, ht]
  rfl

/-! ## Texts -/

/-- **The documents are the texts whose tokens are read to the end.** -/
theorem document_iff_readAll :
    Document s v ↔ (Progress.value []).readAll (tokens s) = .ok (.done v) := by
  constructor
  · rintro ⟨ts, hlayout, hderives⟩
    rw [hlayout.tokens_eq hderives.isChain, ← List.append_nil ts]
    exact hderives.readAll_append [] []
  · intro h
    have hderives : Derives (.value v) (tokens s) := reached_start.readAll h
    exact ⟨tokens s, layout_of_tokens rfl hderives.bad_notMem, hderives⟩

/-- **A text comes to a number of too many digits** if this is the fault that is found in it. -/
theorem meetsOverlong_iff_readAll {n : Nat} :
    MeetsOverlong s n ↔ (Progress.value []).readAll (tokens s) = .error (.overlong n) := by
  constructor
  · rintro ⟨ts, h⟩
    obtain ⟨us, p, q, htokens, hts, hnull⟩ := h.tokens_eq
    rw [htokens]
    refine Progress.readAll_eq_error_of_read hts ?_
    exact (Progress.read_eq_error_iff (by simp)).2 ⟨rfl, q, hnull⟩
  · intro h
    obtain ⟨ts, t, us, p, htokens, hts, ht⟩ := Progress.exists_of_readAll_eq_error h
    obtain ⟨hfault, q, hnull⟩ := (Progress.read_eq_error_iff (by simp)).1 ht
    cases t <;> cases hfault
    exact ⟨ts, (comesTo_iff (fun _ ↦ ⟨n, rfl⟩) (by simp)).2 ⟨us, p, q, htokens, hts, hnull⟩⟩

/-- A text is a document of at most one value. -/
theorem Document.eq {w : Json} (hv : Document s v) (hw : Document s w) : v = w := by
  rw [document_iff_readAll] at hv hw
  rw [hv] at hw
  cases hw
  rfl

/-- No number is in the way in a document. -/
theorem Document.not_meetsOverlong {n : Nat} (h : Document s v) : ¬ MeetsOverlong s n := by
  rw [meetsOverlong_iff_readAll, document_iff_readAll.1 h]
  nofun

end Json
end Reckon
