import Reckon.Proofs.Json.Members
import Reckon.Proofs.Json.Writing
import Reckon.Proofs.Settings.Loading

/-!
# Settings that are kept

Settings that have been kept are found again (`load_of_save`).  What is kept is written without
carriage returns, so its text comes back as it was; the text is a document of the value that was
written (`Json.IsPlain.document_writeAt`); and what is then loaded for a key follows from laying
members over others (`Members.get?_overlay`).

Nothing is asked of the place, and nothing of the length of numbers: settings that have been kept
were written in full, and the file is there (`save_eq_ok_iff`, `Store.content?_of_put`).  But a host
may write containers inside more others than it reads, so the settings have to be such that there is
room for reading them as well.
-/

set_option autoImplicit false

namespace Reckon
namespace Settings

/-! ## Contents -/

/-- What is written for a value is found again as it is. -/
theorem textOf?_contentOf_write {v : Json} (h : v.IsPlain) :
    textOf? (contentOf (Json.write v)) = some (Json.write v) := by
  have hreturn : '\r' ∉ Json.write v := fun hmem ↦ by
    have hwritten := List.all_eq_true.1 (h.all_isWritten_writeAt 0) _ hmem
    exact absurd hwritten (by decide)
  rw [textOf?_contentOf, unifyLines_eq_self hreturn]

variable {store store' : Store} {v : Json}

/-- What is kept is in the file then, and the host stays what it is. -/
theorem Store.content?_of_put {content : ByteArray} (h : store.put content = .ok store') :
    store'.content? = some content ∧ store'.host = store.host := by
  unfold Store.put at h
  split at h <;> cases h
  · exact ⟨by simp [content?, *], rfl⟩
  · exact ⟨rfl, rfl⟩
  · exact ⟨rfl, rfl⟩

theorem save_eq_ok_iff :
    save store v = .ok store' ↔ v.obstacle? store.host.writable = none ∧
      store.put (contentOf (Json.write v)) = .ok store' := by
  rw [save]
  cases store.put (contentOf (Json.write v)) <;>
    cases v.obstacle? store.host.writable <;> simp

/-- **Settings that have been kept are found again**, if there is room for reading them: for all
settings together, the ones that were kept, laid over the built-in ones; and for each key the value
that was kept, or the built-in one where there was none, or null where there is none either. -/
theorem load_of_save {settings : Members} (hplain : (Json.object settings).IsPlain)
    (hroom : (Json.object settings).obstacle? store.host.readable = none)
    (hsave : save store (.object settings) = .ok store') :
    load store' allKey = .ok (.object (builtIn.overlay settings)) ∧
      (∀ key, (builtIn.overlay settings).get? key = (settings.get? key).or (builtIn.get? key)) ∧
      ∀ key, key ≠ allKey →
        load store' key = .ok (((settings.get? key).or (builtIn.get? key)).getD .null) := by
  obtain ⟨-, hput⟩ := save_eq_ok_iff.1 hsave
  obtain ⟨hcontent, hhost⟩ := Store.content?_of_put hput
  have hmembers :
      membersOf store'.host (contentOf (Json.write (.object settings))) = .ok settings := by
    rw [hhost]
    exact membersOf_eq_ok_iff.2 ⟨_, textOf?_contentOf_write hplain,
      hplain.not_meetsTooDeep_writeAt hroom 0, .inl (hplain.document_writeAt hroom 0)⟩
  have hload : ∀ key, load store' key = .ok (valueIn (builtIn.overlay settings) key) := fun key ↦ by
    rw [load_of_content hcontent, hmembers]
    rfl
  have hkeys : (settings.map Prod.fst).Nodup := by
    cases hplain with
    | object hkeys _ _ => exact hkeys
  have hget := Members.get?_overlay builtIn hkeys
  refine ⟨hload allKey, hget, fun key hkey ↦ ?_⟩
  rw [hload, valueIn, if_neg hkey, hget]

/-- A name with a quote, a tabulator and a character of two halves in it, and values inside of
values. -/
theorem load_of_save_nested :
    ∃ name store', name = Point.ofText "a\"\t😀".toList ∧
      save .fresh (.object [(name, .array [.null, .object [(allKey, .integer (-5))]]),
        (scaleKey, .integer 3)]) = .ok store' ∧
      load store' allKey = .ok (.object
        [(scaleKey, .integer 3), (levelKey, .string "WARNING".toList),
          (name, .array [.null, .object [(allKey, .integer (-5))]])]) ∧
      load store' name = .ok (.array [.null, .object [(allKey, .integer (-5))]]) ∧
      load store' levelKey = .ok (.string "WARNING".toList) ∧ load store' [] = .ok .null := by
  obtain ⟨name, hname⟩ : ∃ name, name = Point.ofText "a\"\t😀".toList := ⟨_, rfl⟩
  have hvalue : (Json.array [.null, .object [(allKey, .integer (-5))]]).IsPlain := by
    refine .array ?_
    simp only [List.forall_mem_cons]
    refine ⟨.null, .object (by decide) ?_ ?_, by simp⟩
    · simp only [List.forall_mem_cons]
      exact ⟨⟨_, rfl⟩, by simp⟩
    · simp only [List.forall_mem_cons]
      exact ⟨.integer _, by simp⟩
  obtain ⟨settings, hsettings⟩ : ∃ settings : Members, settings =
      [(name, .array [.null, .object [(allKey, .integer (-5))]]), (scaleKey, .integer 3)] :=
    ⟨_, rfl⟩
  have hplain : (Json.object settings).IsPlain := by
    rw [hsettings]
    refine .object (by rw [hname]; decide) ?_ ?_
    · simp only [List.forall_mem_cons]
      exact ⟨⟨_, hname⟩, ⟨_, rfl⟩, by simp⟩
    · simp only [List.forall_mem_cons]
      exact ⟨hvalue, .integer 3, by simp⟩
  have hroom : (Json.object settings).obstacle? 995 = none := by
    rw [hsettings, hname]
    decide +kernel
  have hsave : save .fresh (.object settings) = .ok _ := save_eq_ok_iff.2 ⟨hroom, rfl⟩
  obtain ⟨hall, -, hload⟩ := @load_of_save .fresh _ settings hplain hroom hsave
  have hnamed := hload name (by rw [hname]; decide)
  subst hsettings hname
  exact ⟨_, _, rfl, hsave, hall, hnamed, hload _ (by decide), hload _ (by decide)⟩

end Settings
end Reckon
