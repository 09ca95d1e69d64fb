import Reckon.Proofs.Json.Members
import Reckon.Proofs.Json.Reading

/-!
# What a key is bound to

A document of an object may bind a key several times.  What counts is the last one of the bindings,
and only those of the object itself: what stands inside of a value binds nothing (`Binds`).  Reading
a document keeps the values in an order of its own, but for every key it is the value that is bound
(`binds_iff`).

A text that goes on behind the end of an object is no document, however it goes on
(`Document.not_append`), and neither is one that begins with a byte order mark
(`not_document_byteOrderMark`).
-/

set_option autoImplicit false

namespace Reckon
namespace Json

variable {s front rest : Text} {ts : List Token} {v : Json} {members : Members}
  {key : List Point} {ms : List (List Point × Json)}

/-! ## Objects as they are written -/

/-- A text is a document of an object with these keys and values, in the order in which they stand
there. -/
def IsObject (s : Text) (ms : List (List Point × Json)) : Prop :=
  ∃ ts, Layout s (.openObject :: (ts ++ [.closeObject])) ∧
    (ts = [] ∧ ms = [] ∨ Derives (.members ms) ts)

theorem derives_object_iff :
    Derives (.value (.object members)) ts ↔ ∃ ms us, ts = .openObject :: (us ++ [.closeObject]) ∧
      (us = [] ∧ ms = [] ∨ Derives (.members ms) us) ∧ members = Members.ofList ms := by
  constructor
  · intro h
    cases h with
    | emptyObject => exact ⟨[], [], rfl, .inl ⟨rfl, rfl⟩, rfl⟩
    | object h hgathers => exact ⟨_, _, rfl, .inr h, gathers_iff.1 hgathers⟩
  · rintro ⟨ms, us, rfl, ⟨rfl, rfl⟩ | h, rfl⟩
    · exact .emptyObject
    · exact .object h (gathers_iff.2 rfl)

theorem document_object_iff :
    Document s (.object members) ↔ ∃ ms, IsObject s ms ∧ members = Members.ofList ms := by
  constructor
  · rintro ⟨ts, hlayout, hderives⟩
    obtain ⟨ms, us, rfl, hmembers, rfl⟩ := derives_object_iff.1 hderives
    exact ⟨ms, ⟨us, hlayout, hmembers⟩, rfl⟩
  · rintro ⟨ms, ⟨us, hlayout, hmembers⟩, rfl⟩
    exact ⟨_, hlayout, derives_object_iff.2 ⟨ms, us, rfl, hmembers, rfl⟩⟩

/-! ## Bindings -/

/-- A text is a document of an object, and the last binding of a key in this object is to a
value. -/
def Binds (s : Text) (key : List Point) (v : Json) : Prop :=
  ∃ ms, IsObject s ms ∧ BindsLast ms key v

theorem binds_iff :
    Binds s key v ↔
      ∃ members, Document s (.object members) ∧ Members.get? members key = some v := by
  simp only [document_object_iff]
  constructor
  · rintro ⟨ms, hms, hlast⟩
    exact ⟨_, ⟨ms, hms, rfl⟩, get?_ofList_eq_some_iff.2 hlast⟩
  · rintro ⟨_, ⟨ms, hms, rfl⟩, hget⟩
    exact ⟨ms, hms, get?_ofList_eq_some_iff.1 hget⟩

theorem Document.nodup_keys (h : Document s (.object members)) :
    (members.map Prod.fst).Nodup := by
  obtain ⟨ms, -, rfl⟩ := document_object_iff.1 h
  exact Members.nodup_keys_ofList ms

/-! ## Texts that are no documents -/

/-- Nothing is read behind the end of a document. -/
theorem Progress.eq_nil_of_readAll_done {p : Progress} (h : (done v).readAll ts = .ok p) :
    ts = [] := by
  cases ts with
  | nil => rfl
  | cons t ts => cases t <;> cases h

/-- Behind an object there may be white space, and nothing else. -/
theorem Document.not_append (h : Document front (.object members)) (hrest : ¬ IsGap rest) :
    ¬ Document (front ++ rest) v := by
  intro hdocument
  obtain ⟨ts, hlayout, hderives⟩ := h
  have hlast : ∀ t ∈ ts.getLast?, t.isNumber = true → ¬ ContinuesNumber rest := by
    obtain ⟨ms, us, rfl, -, -⟩ := derives_object_iff.1 hderives
    intro t ht hnumber
    rw [← List.cons_append, List.getLast?_concat] at ht
    cases ht
    cases hnumber
  have hread := document_iff_readAll.1 hdocument
  have hobject : (Progress.value []).readAll (ts ++ tokens rest) =
      (Progress.done (.object members)).readAll (tokens rest) :=
    hderives.readAll_append [] (tokens rest)
  rw [hlayout.tokens_append hderives.isChain hlast, hobject] at hread
  exact hrest (isGap_of_tokens_eq_nil (Progress.eq_nil_of_readAll_done hread))

/-- A byte order mark is no white space, and no token begins with it. -/
theorem not_document_byteOrderMark : ¬ Document ('\ufeff' :: s) v := by
  intro hdocument
  have hread := document_iff_readAll.1 hdocument
  have hscan : scanToken? ('\ufeff' :: s) = none := rfl
  rw [tokens_cons (by decide), hscan] at hread
  cases hread

end Json
end Reckon
