import Mathlib.Data.List.Dedup
import Mathlib.Data.List.Induction
import Mathlib.Data.List.Nodup
import Mathlib.Tactic.SplitIfs
import Reckon.Proofs.Json.Grammar

/-!
# Members and their keys

Members are built one at a time.  Each key then has the value that it was given last
(`Members.get?_set`), a new key comes behind the others (`Members.keys_set`), and no key is there
twice (`Members.nodup_keys_set`).  Where members with different keys are laid over others, a key has
its new value if there is one, and its old value otherwise (`Members.get?_overlay`).

So the members that a list of keys and values makes are the ones that it gathers
(`Json.gathers_iff`): they have each key where it comes up first, and with the value that it has
last.
-/

set_option autoImplicit false

namespace Reckon
namespace Members

variable {ms news : Members} {key : List Point} {v : Json}

/-! ## One key -/

theorem get?_cons (k : List Point) (v : Json) (ms : Members) (key : List Point) :
    get? ((k, v) :: ms) key = if key = k then some v else get? ms key := by
  rw [get?, List.lookup_cons]
  by_cases hkey : key = k
  · simp [hkey]
  · simp [hkey, get?, beq_eq_false_iff_ne.2 hkey]

theorem get?_set (ms : Members) (k : List Point) (v : Json) (key : List Point) :
    (ms.set k v).get? key = if key = k then some v else ms.get? key := by
  induction ms with
  | nil => rw [set, get?_cons]
  | cons m ms ih =>
    obtain ⟨k', v'⟩ := m
    rw [set]
    by_cases hk : k' = k
    · rw [if_pos hk, get?_cons, get?_cons, hk]
      split_ifs <;> rfl
    · rw [if_neg hk, get?_cons, get?_cons, ih]
      grind

/-- A key that is there keeps its place, and a new one comes last. -/
theorem keys_set (ms : Members) (k : List Point) (v : Json) :
    (ms.set k v).map Prod.fst =
      if k ∈ ms.map Prod.fst then ms.map Prod.fst else ms.map Prod.fst ++ [k] := by
  induction ms with
  | nil => rfl
  | cons m ms ih =>
    obtain ⟨k', v'⟩ := m
    rw [set]
    by_cases hk : k' = k
    · simp [hk]
    · simp only [if_neg hk, List.map_cons, ih, List.mem_cons, Ne.symm hk, false_or]
      split <;> simp

theorem nodup_keys_set (h : (ms.map Prod.fst).Nodup) (k : List Point) (v : Json) :
    ((ms.set k v).map Prod.fst).Nodup := by
  rw [keys_set]
  split
  · exact h
  · next hk => exact List.nodup_append_comm.1 (List.nodup_cons.2 ⟨hk, h⟩)

theorem get?_eq_none (h : key ∉ news.map Prod.fst) : news.get? key = none := by
  induction news with
  | nil => rfl
  | cons m news ih =>
    rw [List.map_cons, List.mem_cons, not_or] at h
    rw [get?_cons, if_neg h.1, ih h.2]

theorem get?_eq_some_of_mem (hms : (ms.map Prod.fst).Nodup) (h : (key, v) ∈ ms) :
    ms.get? key = some v := by
  induction ms with
  | nil => cases h
  | cons m ms ih =>
    rw [List.map_cons, List.nodup_cons] at hms
    rw [get?_cons]
    rcases List.mem_cons.1 h with rfl | h
    · exact if_pos rfl
    · have hne : key ≠ m.1 := fun heq ↦ hms.1 (heq ▸ List.mem_map_of_mem h)
      rw [if_neg hne, ih hms.2 h]

/-- Members with the same keys in the same order are the same if they have the same values. -/
theorem eq_of_get? (hkeys : ms.map Prod.fst = news.map Prod.fst) (hms : (ms.map Prod.fst).Nodup)
    (h : ∀ m ∈ ms, news.get? m.1 = some m.2) : ms = news := by
  induction ms generalizing news with
  | nil => rw [eq_comm, List.map_eq_nil_iff.1 hkeys.symm]
  | cons m ms ih =>
    obtain ⟨k, v⟩ := m
    cases news with
    | nil => cases hkeys
    | cons m' news =>
      obtain ⟨k', v'⟩ := m'
      obtain ⟨rfl, hrest⟩ := List.cons.inj hkeys
      obtain ⟨hk, hms⟩ := List.nodup_cons.1 hms
      obtain ⟨hfirst, h⟩ := List.forall_mem_cons.1 h
      rw [get?_cons, if_pos rfl] at hfirst
      cases hfirst
      have htail : ∀ m ∈ ms, get? news m.1 = some m.2 := by
        intro m hm
        have hmem : m.1 ∈ ms.map Prod.fst := List.mem_map_of_mem hm
        have hne : m.1 ≠ k := fun heq ↦ hk (heq ▸ hmem)
        rw [← h m hm, get?_cons, if_neg hne]
      rw [ih hrest hms htail]

/-! ## Many keys -/

/-- Where new members are laid over others, a key has its new value if there is one. -/
theorem get?_overlay (ms : Members) (hnews : (news.map Prod.fst).Nodup) (key : List Point) :
    (ms.overlay news).get? key = (news.get? key).or (ms.get? key) := by
  induction news generalizing ms with
  | nil => rfl
  | cons m news ih =>
    obtain ⟨k, v⟩ := m
    rw [List.map_cons, List.nodup_cons] at hnews
    have hstep : ms.overlay ((k, v) :: news) = (ms.set k v).overlay news := rfl
    rw [hstep, ih _ hnews.2, get?_set, get?_cons]
    by_cases hkey : key = k
    · rw [if_pos hkey, if_pos hkey, hkey, get?_eq_none hnews.1]
      rfl
    · rw [if_neg hkey, if_neg hkey]

theorem ofList_concat (ms : List (List Point × Json)) (key : List Point) (v : Json) :
    ofList (ms ++ [(key, v)]) = (ofList ms).set key v := by
  rw [ofList, overlay, List.foldl_append]
  rfl

/-- The keys are there in the order in which they come up first. -/
theorem keys_ofList (ms : List (List Point × Json)) :
    (ofList ms).map Prod.fst = (ms.map Prod.fst).eraseDups := by
  induction ms using List.reverseRecOn with
  | nil => rfl
  | append_singleton ms m ih =>
    rw [ofList_concat, keys_set, ih, List.map_append, List.eraseDups_append]
    simp only [List.mem_eraseDups]
    split
    · next hmem => simp [List.removeAll, hmem]
    · next hmem => simp [List.removeAll, hmem, List.eraseDups_cons]

theorem nodup_keys_ofList (ms : List (List Point × Json)) :
    ((ofList ms).map Prod.fst).Nodup := by
  induction ms using List.reverseRecOn with
  | nil => exact .nil
  | append_singleton ms m ih =>
    rw [ofList_concat]
    exact nodup_keys_set ih m.1 m.2

end Members

namespace Json

variable {ms : List (List Point × Json)} {members : Members} {key : List Point} {v : Json}

/-! ## Last values -/

theorem not_bindsLast_nil : ¬ BindsLast [] key v := by
  rintro ⟨front, back, h, -⟩
  simp at h

theorem bindsLast_concat {m : List Point × Json} :
    BindsLast (ms ++ [m]) key v ↔ if key = m.1 then m.2 = v else BindsLast ms key v := by
  obtain ⟨k, w⟩ := m
  split
  · next hm =>
    cases hm
    constructor
    · rintro ⟨front, back, h, hback⟩
      rcases List.eq_nil_or_concat back with rfl | ⟨back, m', rfl⟩
      · obtain ⟨-, hlast⟩ := List.append_inj' h rfl
        cases hlast
        rfl
      · rw [List.concat_eq_append, ← List.cons_append, ← List.append_assoc] at h
        obtain ⟨-, hlast⟩ := List.append_inj' h rfl
        cases hlast
        exact absurd rfl (hback (k, w) (by simp))
    · rintro rfl
      exact ⟨ms, [], rfl, by simp⟩
  · next hm =>
    constructor
    · rintro ⟨front, back, h, hback⟩
      rcases List.eq_nil_or_concat back with rfl | ⟨back, m', rfl⟩
      · obtain ⟨-, hlast⟩ := List.append_inj' h rfl
        cases hlast
        exact absurd rfl hm
      · rw [List.concat_eq_append, ← List.cons_append, ← List.append_assoc] at h
        obtain ⟨hinit, -⟩ := List.append_inj' h rfl
        exact ⟨front, back, hinit, fun m hmem ↦ hback m (by simp [hmem])⟩
    · rintro ⟨front, back, rfl, hback⟩
      refine ⟨front, back ++ [(k, w)], by simp, ?_⟩
      simp only [List.forall_mem_append, List.forall_mem_singleton]
      exact ⟨hback, Ne.symm hm⟩

/-- A key has the value that it is given last. -/
theorem get?_ofList_eq_some_iff :
    (Members.ofList ms).get? key = some v ↔ BindsLast ms key v := by
  induction ms using List.reverseRecOn with
  | nil => exact iff_of_false nofun not_bindsLast_nil
  | append_singleton ms m ih =>
    rw [Members.ofList_concat, Members.get?_set, bindsLast_concat]
    split
    · exact Option.some_inj
    · exact ih

/-- **What keys and values gather is what giving the keys their values in turn makes.** -/
theorem gathers_iff : Gathers ms members ↔ members = Members.ofList ms := by
  constructor
  · rintro ⟨hkeys, hlast⟩
    rw [← Members.keys_ofList] at hkeys
    exact Members.eq_of_get? hkeys (hkeys ▸ Members.nodup_keys_ofList ms) fun m hm ↦
      get?_ofList_eq_some_iff.2 (hlast m hm)
  · rintro rfl
    refine ⟨Members.keys_ofList ms, fun m hm ↦ get?_ofList_eq_some_iff.1 ?_⟩
    exact Members.get?_eq_some_of_mem (Members.nodup_keys_ofList ms) hm

end Json
end Reckon
