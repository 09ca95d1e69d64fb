import Reckon.Proofs.Json.Bindings
import Reckon.Proofs.Json.Writing
import Reckon.Proofs.Settings.Loading
import Reckon.Report

/-!
# Settings of a file over the built-in ones

The text of a settings file as it stands decides what is loaded (`load_of_any_text`), and it is all
of the file or none of it.  If the text is a document of an object, then each key that is bound in
it has the value it is bound to, null included (`load_of_binds`), and the other keys keep their
built-in values (`load_of_not_binds`).  If it is anything else, then the built-in settings are all
there is (`all_of_not_document`); so it is for a text that begins with a byte order mark, and for
one that goes on behind the end of an object.

The scale is the value of its key if that is a whole number.  A truth value is no number, and
neither is `2.0` a whole one.
-/

set_option autoImplicit false

namespace Reckon
namespace Settings

variable {store : Store} {content : ByteArray} {str : String} {members settings : Members}
  {key : List Point} {v : Json}

/-! ## All settings together -/

theorem textOf?_of_fromUTF8? (h : String.fromUTF8? content = some str) :
    textOf? content = some (unifyLines str.toList) := by
  rw [textOf?, h]
  rfl

theorem all_of_content (h : store.content? = some content) :
    all store = (membersOf store.host content).map builtIn.overlay := by
  rw [all, h]

theorem hasRoom_unifyLines_iff {host : Host} {t : Text} :
    HasRoom host (unifyLines t) ↔ HasRoom host t :=
  forall_congr' fun _ ↦ not_congr Json.meetsTooDeep_unifyLines_iff

theorem load_of_all (h : all store = .ok settings) :
    load store key = .ok (valueIn settings key) := by
  rw [load, h]
  rfl

section

variable (hcontent : store.content? = some content) (hdecodes : String.fromUTF8? content = some str)
  (hroom : HasRoom store.host str.toList)

include hcontent hdecodes hroom

/-- An object is laid over the built-in settings. -/
theorem all_of_document (h : Json.Document str.toList (.object members)) :
    all store = .ok (builtIn.overlay members) := by
  have hmembers : membersOf store.host content = .ok members := membersOf_eq_ok_iff.2
    ⟨_, textOf?_of_fromUTF8? hdecodes, hasRoom_unifyLines_iff.2 hroom,
      .inl (Json.document_unifyLines_iff.2 h)⟩
  rw [all_of_content hcontent, hmembers]
  rfl

/-- A text that is no document of an object contributes nothing. -/
theorem all_of_not_document (hshort : ∀ n, ¬ Json.MeetsOverlong str.toList n)
    (h : ¬ ∃ ms, Json.Document str.toList (.object ms)) : all store = .ok builtIn := by
  have hmembers : membersOf store.host content = .ok [] := by
    refine membersOf_eq_ok_iff.2 ⟨_, textOf?_of_fromUTF8? hdecodes,
      hasRoom_unifyLines_iff.2 hroom, .inr ⟨?_, ?_, rfl⟩⟩
    · simpa only [Json.meetsOverlong_unifyLines_iff] using hshort
    · simpa only [Json.document_unifyLines_iff] using h
  rw [all_of_content hcontent, hmembers]
  rfl

theorem load_of_binds (hkey : key ≠ allKey) (h : Json.Binds str.toList key v) :
    load store key = .ok v := by
  obtain ⟨members, hdocument, hget⟩ := Json.binds_iff.1 h
  rw [load_of_all (all_of_document hcontent hdecodes hroom hdocument), valueIn, if_neg hkey,
    Members.get?_overlay _ hdocument.nodup_keys, hget]
  rfl

theorem load_of_not_binds (hshort : ∀ n, ¬ Json.MeetsOverlong str.toList n)
    (hkey : key ≠ allKey) (h : ¬ ∃ v, Json.Binds str.toList key v) :
    load store key = .ok ((builtIn.get? key).getD .null) := by
  by_cases hobject : ∃ members, Json.Document str.toList (.object members)
  · obtain ⟨members, hdocument⟩ := hobject
    have hget : Members.get? members key = none := Option.eq_none_iff_forall_ne_some.2
      fun v hv ↦ h ⟨v, Json.binds_iff.2 ⟨members, hdocument, hv⟩⟩
    rw [load_of_all (all_of_document hcontent hdecodes hroom hdocument), valueIn, if_neg hkey,
      Members.get?_overlay _ hdocument.nodup_keys, hget]
    rfl
  · rw [load_of_all (all_of_not_document hcontent hdecodes hroom hshort hobject), valueIn,
      if_neg hkey]

end

/-! ## The scale -/

theorem scale_eq_ok_iff {z : Int} :
    scale store = .ok z ↔ load store scaleKey = .ok (.integer z) := by
  rw [scale]
  split <;> simp_all

theorem scale_of_load (h : load store scaleKey = .ok v) (hv : ∀ z, v ≠ .integer z) :
    scale store = .error (.badScale v) := by
  rw [scale, h]
  split <;> simp_all

/-! ## What is loaded -/

/-- **The settings of a file are laid over the built-in ones, all of them or none.**  A key that the
object of the file binds has the value of its last binding, and any other key its built-in value, or
null where there is none.  A text that is no document of an object contributes nothing, and it is
none if it begins with a byte order mark, or if there is more in it behind the end of an object.
The scale is the value of its key if that is a whole number; any other value is reported as a
setting that cannot be used. -/
theorem load_of_any_text (hcontent : store.content? = some content)
    (hdecodes : String.fromUTF8? content = some str)
    (hroom : HasRoom store.host str.toList) (hshort : ∀ n, ¬ Json.MeetsOverlong str.toList n) :
    (∀ key v, key ≠ allKey → Json.Binds str.toList key v → load store key = .ok v) ∧
      (∀ key, key ≠ allKey → (¬ ∃ v, Json.Binds str.toList key v) →
        load store key = .ok ((builtIn.get? key).getD .null)) ∧
      ((¬ ∃ members, Json.Document str.toList (.object members)) → all store = .ok builtIn) ∧
      (∀ rest, str.toList = '\ufeff' :: rest → all store = .ok builtIn) ∧
      (∀ front members rest, str.toList = front ++ rest → Json.Document front (.object members) →
        ¬ Json.IsGap rest → all store = .ok builtIn) ∧
      (∀ z, scale store = .ok z ↔ load store scaleKey = .ok (.integer z)) ∧
      ∀ v, load store scaleKey = .ok v → (∀ z, v ≠ .integer z) →
        scale store = .error (.badScale v) ∧
          (Report.ofSettings (.badScale v)).kind = .setting ∧
          (Report.ofSettings (.badScale v)).code = "5001".toList := by
  have hnothing := all_of_not_document hcontent hdecodes hroom hshort
  refine ⟨fun key v ↦ load_of_binds hcontent hdecodes hroom,
    fun key ↦ load_of_not_binds hcontent hdecodes hroom hshort, hnothing, fun rest htext ↦ ?_,
    fun front members rest htext hdocument hrest ↦ ?_, fun z ↦ scale_eq_ok_iff,
    fun v hload hv ↦ ⟨scale_of_load hload hv, rfl, rfl⟩⟩
  · refine hnothing ?_
    rintro ⟨members, hdocument⟩
    rw [htext] at hdocument
    exact Json.not_document_byteOrderMark hdocument
  · refine hnothing ?_
    rintro ⟨members', hdocument'⟩
    rw [htext] at hdocument'
    exact hdocument.not_append hrest hdocument'

/-- The text `2.5` stands for five halves. -/
theorem lexeme_five_halves :
    Json.Lexeme "2.5".toList (.float (.finite false 5629499534213120 (-51))) := by
  have hdigits : ∀ c : Char, c.isDigit = true → Json.IsDigits [c] := fun c hc ↦
    ⟨by simp, by simpa using hc⟩
  have hwhole : Json.IsWhole ['2'] := ⟨hdigits '2' rfl, .inr (by decide)⟩
  have hplaces : Json.IsPlaces ['.', '5'] (5 / 10) := by
    simpa [Json.digitsValue] using Json.IsPlaces.some (hdigits '5' rfl)
  have hnearest : Binary64.ofDecimal ⟨false, 25, -1⟩ = .finite false 5629499534213120 (-51) := by
    decide +kernel
  have hrounds := Binary64.rounds_ofDecimal ⟨false, 25, -1⟩
  rw [hnearest] at hrounds
  refine Json.Lexeme.float false hwhole hplaces .none (.inl (by simp)) ?_
  have htwo : Json.digitsValue ['2'] = 2 := by decide
  convert hrounds using 1
  norm_num [htwo]

/-- Of two bindings of the scale the second one counts, and it is to a fraction.  The object that a
key is bound to has a key that is half a character.  The level is not bound at all. -/
theorem load_of_bound_twice :
    ∃ store : Store, store = ⟨.empty, .file (contentOf ("\x7b\"decimal_places\": 3,\r\n".toList ++
        "\"a\": \x7b\"\\ud800\": 1\x7d, \"decimal_places\": 2.5\x7d".toList)), .usual⟩ ∧
      load store scaleKey = .ok (.float (.finite false 5629499534213120 (-51))) ∧
      load store [.char 'a'] = .ok (.object [([.half 0xd800], .integer 1)]) ∧
      load store levelKey = .ok (.string "WARNING".toList) ∧
      scale store = .error (.badScale (.float (.finite false 5629499534213120 (-51)))) := by
  obtain ⟨str, hstr⟩ : ∃ str : String, str.toList =
      "\x7b\"decimal_places\": 3,\r\n".toList ++
        "\"a\": \x7b\"\\ud800\": 1\x7d, \"decimal_places\": 2.5\x7d".toList :=
    ⟨String.ofList _, String.toList_ofList⟩
  rw [← hstr]
  have hinner : Json.Derives (.value (.object [([.half 0xd800], .integer 1)]))
      [.openObject, .string [.half 0xd800], .colon, .integer 1, .closeObject] :=
    .object (.member _ (.integer 1)) (Json.gathers_iff.2 rfl)
  have hlayout : Json.Layout str.toList
      [.openObject, .string scaleKey, .colon, .integer 3, .comma, .string [.char 'a'], .colon,
        .openObject, .string [.half 0xd800], .colon, .integer 1, .closeObject, .comma,
        .string scaleKey, .colon, .float (.finite false 5629499534213120 (-51)), .closeObject] := by
    have hspace : Json.IsGap [' '] := by simp [Json.IsGap]
    have hline : Json.IsGap ['\r', '\n'] := by simp [Json.IsGap]
    have hscale := Json.lexeme_stringText "decimal_places".toList
    have hname := Json.lexeme_stringText ['a']
    have hhalf : Json.Lexeme "\"\\ud800\"".toList (.string [.half 0xd800]) := by
      refine .string (.half (Json.hexUnit?_eq_some_iff.1 (by decide))
        (.inl ⟨Json.isHighHalf_iff.1 (by decide), ?_⟩) .nil)
      rintro ⟨_, _, _, _, _, _, h, -⟩
      cases h
    have hthree : Json.Lexeme (Numeral.ofInt 3) (.integer 3) :=
      Json.lexeme_ofInt (by decide +kernel)
    have hone : Json.Lexeme (Numeral.ofInt 1) (.integer 1) := Json.lexeme_ofInt (by decide +kernel)
    have hlast := hscale.layout_append (Json.Lexeme.colon.layout_append
      (.gap_append hspace (lexeme_five_halves.layout_append Json.Lexeme.closeObject.layout)))
    have hobject := Json.Lexeme.openObject.layout_append (hhalf.layout_append
      (Json.Lexeme.colon.layout_append (.gap_append hspace (hone.layout_append
        (Json.Lexeme.closeObject.layout_append (Json.Lexeme.comma.layout_append
          (.gap_append hspace hlast)))))))
    have hmiddle := hname.layout_append (Json.Lexeme.colon.layout_append
      (.gap_append hspace hobject))
    have hfirst := hscale.layout_append (Json.Lexeme.colon.layout_append
      (.gap_append hspace (hthree.layout_append (Json.Lexeme.comma.layout_append
        (.gap_append hline hmiddle)))))
    rw [hstr]
    exact Json.Lexeme.openObject.layout_append hfirst
  have hmembers := Json.Derives.members scaleKey (.members [.char 'a']
    (.member scaleKey (.integer 3)) hinner) (.float (.finite false 5629499534213120 (-51)))
  have hobject : Json.IsObject str.toList _ := ⟨_, hlayout, .inr hmembers⟩
  have hdocument := Json.document_object_iff.2 ⟨_, hobject, rfl⟩
  have hscale : Json.Binds str.toList scaleKey (.float (.finite false 5629499534213120 (-51))) :=
    ⟨_, hobject, [_, _], [], rfl, by simp⟩
  have hname : Json.Binds str.toList [.char 'a'] (.object [([.half 0xd800], .integer 1)]) :=
    ⟨_, hobject, [_], [_], rfl, by simp only [List.forall_mem_singleton]; decide⟩
  have hlevel : ¬ ∃ v, Json.Binds str.toList levelKey v := by
    rintro ⟨v, hlevel⟩
    obtain ⟨members, hmembers, hget⟩ := Json.binds_iff.1 hlevel
    cases hmembers.eq hdocument
    cases hget
  have hroom : HasRoom .usual str.toList := fun _ ↦ hlayout.not_meetsTooDeep
    (Json.Derives.object hmembers (Json.gathers_iff.2 rfl)).isChain
    (Json.nests_of_length_le (by decide))
  have hcontent : Store.content? ⟨.empty, .file (contentOf str.toList), .usual⟩ =
      some (contentOf str.toList) := rfl
  have hdecodes : String.fromUTF8? (contentOf str.toList) = some str := by
    rw [fromUTF8?_contentOf, String.ofList_toList]
  obtain ⟨hbound, hbuiltIn, -, -, -, -, hbadScale⟩ :=
    load_of_any_text hcontent hdecodes hroom fun _ ↦ hdocument.not_meetsOverlong
  have hload := hbound scaleKey _ (by decide) hscale
  exact ⟨_, rfl, hload, hbound _ _ (by decide) hname, hbuiltIn levelKey (by decide) hlevel,
    (hbadScale _ hload (by simp)).1⟩

end Settings
end Reckon
