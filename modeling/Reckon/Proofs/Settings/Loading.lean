import Reckon.Proofs.Json.Nesting
import Reckon.Proofs.Settings.Lines
import Reckon.Settings.Load

/-!
# What is loaded from a settings file

Whether a setting can be loaded depends on the file alone, and not on the key.  There is no value in
three cases: the content is no text in UTF-8; the text comes to a whole number of too many digits
(`Json.MeetsOverlong`); or it comes to a container that is inside more others than the host reads
(`Json.MeetsTooDeep`).  In the last two cases it has broken no rule of JSON so far, and of the two
it is the first in the text that counts.  In every other case there is a value.  It comes from the
built-in settings alone if there is no file, or if the file holds anything but a document of an
object (`load_of_any_file`).
-/

set_option autoImplicit false

namespace Reckon
namespace Settings

/-! ## Contents as text -/

/-- What a text is kept as is a text. -/
theorem fromUTF8?_contentOf (s : Text) :
    String.fromUTF8? (contentOf s) = some (String.ofList s) := by
  have hvalid : (contentOf s).IsValidUTF8 := (String.ofList s).isValidUTF8
  rw [String.fromUTF8?, dif_pos hvalid]
  rfl

/-- A text that is kept is found again, with its lines ended in one way. -/
theorem textOf?_contentOf (s : Text) : textOf? (contentOf s) = some (unifyLines s) := by
  rw [textOf?, fromUTF8?_contentOf, Option.map_some, String.toList_ofList]

theorem textOf?_eq_none_iff {content : ByteArray} :
    textOf? content = none ↔ ¬ content.IsValidUTF8 := by
  rw [textOf?, Option.map_eq_none_iff, String.fromUTF8?]
  split <;> simp_all

/-! ## What a file contributes -/

variable {host : Host} {content : ByteArray} {members : Members} {e : Fault}

/-- A text has room in a host if it comes to no container that is inside too many others. -/
def HasRoom (host : Host) (t : Text) : Prop := ∀ c, ¬ Json.MeetsTooDeep host.readable t c

/-- A file contributes an object if it is a document of it, and nothing if it is a text of another
kind in which no number is in the way; either way the host has to have room for it. -/
theorem membersOf_eq_ok_iff :
    membersOf host content = .ok members ↔ ∃ t, textOf? content = some t ∧ HasRoom host t ∧
      (Json.Document t (.object members) ∨
        (∀ n, ¬ Json.MeetsOverlong t n) ∧ (¬ ∃ ms, Json.Document t (.object ms)) ∧
          members = []) := by
  cases htext : textOf? content with
  | none => simp [membersOf, htext]
  | some t =>
    simp only [membersOf, htext, Option.some.injEq, exists_eq_left']
    cases hread : Json.read host.readable t with
    | ok v =>
      obtain ⟨hdocument, hroom⟩ := Json.read_eq_ok_iff.1 hread
      have hvalue : ∀ {w}, Json.Document t w ↔ w = v :=
        ⟨fun hw ↦ hw.eq hdocument, fun hw ↦ hw ▸ hdocument⟩
      have hnumber : ∀ n, ¬ Json.MeetsOverlong t n := fun _ ↦ hdocument.not_meetsOverlong
      simp only [HasRoom, hroom, hvalue, hnumber]
      cases v <;> simp [eq_comm]
    | error fault =>
      have hdocument : ∀ v, HasRoom host t → ¬ Json.Document t v := fun v hroom hv ↦ by
        rw [Json.read_eq_ok_iff.2 ⟨hv, hroom⟩] at hread
        cases hread
      cases fault with
      | malformed =>
        have hroom : HasRoom host t := Json.not_meetsTooDeep_of_read hread (by simp)
        have hnumber : ∀ n, ¬ Json.MeetsOverlong t n := fun n hn ↦ by
          rw [Json.read_eq_overlong_iff.2 ⟨hn, hroom⟩] at hread
          cases hread
        simp [hroom, hnumber, hdocument _ hroom, eq_comm]
      | overlong n =>
        obtain ⟨hnumber, hroom⟩ := Json.read_eq_overlong_iff.1 hread
        simp only [hdocument _ hroom, reduceCtorEq, false_iff]
        rintro ⟨-, h | ⟨hshort, -⟩⟩
        · exact h
        · exact hshort n hnumber
      | tooDeep c =>
        have hdeep := Json.read_eq_tooDeep_iff.1 hread
        simp only [reduceCtorEq, false_iff]
        exact fun h ↦ h.1 c hdeep

/-- What is wrong with a file that contributes nothing and is not passed over. -/
theorem membersOf_eq_error_iff :
    membersOf host content = .error e ↔
      ¬ content.IsValidUTF8 ∧ e = .notUtf8 (host.explain content) ∨
      ∃ t, textOf? content = some t ∧
        ((∃ n, Json.MeetsOverlong t n ∧ HasRoom host t ∧ e = .overlong n) ∨
          ∃ c, Json.MeetsTooDeep host.readable t c ∧ e = .tooDeep c) := by
  have hoverlong : ∀ t n, (Json.MeetsOverlong t n ∧ HasRoom host t) ↔
      Json.read host.readable t = .error (.overlong n) := fun _ _ ↦ Json.read_eq_overlong_iff.symm
  simp only [← textOf?_eq_none_iff, ← and_assoc, hoverlong, ← Json.read_eq_tooDeep_iff]
  cases htext : textOf? content with
  | none => simp [membersOf, htext, eq_comm]
  | some t =>
    simp only [membersOf, htext]
    cases hread : Json.read host.readable t with
    | ok v => cases v <;> simp [hread]
    | error fault => cases fault <;> simp [hread, eq_comm]

/-! ## The value of a key -/

/-- The value that a key has among settings, null for one that has none; one key stands for all of
them. -/
def valueIn (settings : Members) (key : List Point) : Json :=
  if key = allKey then .object settings else (settings.get? key).getD .null

variable {store : Store} {key : List Point} {v : Json}

theorem load_of_no_content (h : store.content? = none) :
    load store key = .ok (valueIn builtIn key) := by
  rw [load, all, h]
  rfl

theorem load_of_content (h : store.content? = some content) :
    load store key =
      (membersOf store.host content).map fun ms ↦ valueIn (builtIn.overlay ms) key := by
  rw [load, all, h]
  dsimp only
  cases membersOf store.host content <;> rfl

theorem load_eq_ok_iff_of_content (h : store.content? = some content) :
    load store key = .ok v ↔
      ∃ ms, membersOf store.host content = .ok ms ∧ v = valueIn (builtIn.overlay ms) key := by
  rw [load_of_content h]
  cases membersOf store.host content <;> simp [Except.map, eq_comm]

theorem load_eq_error_iff_of_content (h : store.content? = some content) :
    load store key = .error e ↔ membersOf store.host content = .error e := by
  rw [load_of_content h]
  cases membersOf store.host content <;> simp [Except.map]

/-- The text of the file in use, if there is a file and it is a text. -/
def Store.text? (store : Store) : Option Text := store.content?.bind textOf?

/-- **What is loaded for a key, whatever is in the file.**  A document of an object is laid over the
built-in settings.  Without a file, and with a text that is no such document, there are the
built-in settings alone.  The exceptions are a file that is no text in UTF-8, a text that comes to a
whole number of too many digits, and a text that comes to a container inside too many others. -/
theorem load_of_any_file (store : Store) (key : List Point) :
    (∀ v, load store key = .ok v ↔
      (∃ t ms, store.text? = some t ∧ HasRoom store.host t ∧ Json.Document t (.object ms) ∧
        v = valueIn (builtIn.overlay ms) key) ∨
      (store.content? = none ∨ ∃ t, store.text? = some t ∧ HasRoom store.host t ∧
        (∀ n, ¬ Json.MeetsOverlong t n) ∧ ¬ ∃ ms, Json.Document t (.object ms)) ∧
        v = valueIn builtIn key) ∧
    ∀ e, load store key = .error e ↔
      (∃ content, store.content? = some content ∧ ¬ content.IsValidUTF8 ∧
        e = .notUtf8 (store.host.explain content)) ∨
      ∃ t, store.text? = some t ∧
        ((∃ n, Json.MeetsOverlong t n ∧ HasRoom store.host t ∧ e = .overlong n) ∨
          ∃ c, Json.MeetsTooDeep store.host.readable t c ∧ e = .tooDeep c) := by
  cases hcontent : store.content? with
  | none =>
    rw [load_of_no_content hcontent]
    simp [Store.text?, hcontent, eq_comm]
  | some content =>
    refine ⟨fun v ↦ ?_, fun e ↦ ?_⟩
    · simp only [load_eq_ok_iff_of_content hcontent, membersOf_eq_ok_iff, Store.text?, hcontent,
        Option.bind_some]
      constructor
      · rintro ⟨ms, ⟨t, ht, hroom, hdocument | ⟨hnumber, hobject, rfl⟩⟩, rfl⟩
        · exact .inl ⟨t, ms, ht, hroom, hdocument, rfl⟩
        · exact .inr ⟨.inr ⟨t, ht, hroom, hnumber, hobject⟩, rfl⟩
      · rintro (⟨t, ms, ht, hroom, hdocument, rfl⟩ |
          ⟨hnone | ⟨t, ht, hroom, hnumber, hobject⟩, rfl⟩)
        · exact ⟨ms, ⟨t, ht, hroom, .inl hdocument⟩, rfl⟩
        · cases hnone
        · exact ⟨[], ⟨t, ht, hroom, .inr ⟨hnumber, hobject, rfl⟩⟩, rfl⟩
    · rw [load_eq_error_iff_of_content hcontent, membersOf_eq_error_iff]
      simp [Store.text?, hcontent]

/-- The byte `0xff` is in no text, and a file that holds it gives no value. -/
theorem load_foreign_byte :
    ∃ store : Store, store = ⟨.empty, .file ⟨#[0xff]⟩, ⟨995, 995, fun _ ↦
        "'utf-8' codec can't decode byte 0xff in position 0: invalid start byte".toList⟩⟩ ∧
      load store scaleKey = .error (.notUtf8
        "'utf-8' codec can't decode byte 0xff in position 0: invalid start byte".toList) := by
  have hbyte : ¬ (⟨#[0xff]⟩ : ByteArray).IsValidUTF8 := by decide +kernel
  exact ⟨_, rfl,
    (load_eq_error_iff_of_content rfl).2 (membersOf_eq_error_iff.2 (.inl ⟨hbyte, rfl⟩))⟩

/-- On every host there is a file of brackets alone that gives no value. -/
theorem load_of_brackets (host : Host) (project : ByteArray) (key : List Point) :
    load ⟨project, .file (contentOf (List.replicate (host.readable + 1) '[')), host⟩ key =
      .error (.tooDeep .array) := by
  have hreturn : '\r' ∉ List.replicate (host.readable + 1) '[' := by simp [List.mem_replicate]
  refine (load_eq_error_iff_of_content rfl).2 (membersOf_eq_error_iff.2 (.inr ⟨_,
    textOf?_contentOf _, .inr ⟨.array, ?_, rfl⟩⟩))
  rw [unifyLines_eq_self hreturn]
  exact Json.meetsTooDeep_brackets host.readable

end Settings
end Reckon
