import RecordQuery.Entries

/-!
Putting and looking up entries. A new key goes to the end. What is found under a key is
an entry, nothing is found under a key that no entry has, and where keys are distinct every
entry is found.
-/

namespace RecordQuery.Entries

variable {β : Type} {key : String} {value : β} {entries : List (String × β)}

theorem put_of_not_mem (h : key ∉ keys entries) :
    put key value entries = entries ++ [(key, value)] := by
  induction entries with
  | nil => rfl
  | cons entry rest ih =>
      obtain ⟨k, old⟩ := entry
      simp only [keys, List.map_cons, List.mem_cons, not_or] at h
      rw [put, if_neg (Ne.symm h.1), ih h.2, List.cons_append]

theorem get?_of_mem (hnodup : (keys entries).Nodup) (h : (key, value) ∈ entries) :
    get? key entries = some value := by
  induction entries with
  | nil => cases h
  | cons entry rest ih =>
      obtain ⟨k, first⟩ := entry
      simp only [keys, List.map_cons, List.nodup_cons] at hnodup
      rcases List.mem_cons.mp h with hfirst | hrest
      · obtain ⟨rfl, rfl⟩ := Prod.mk.inj hfirst
        rw [get?, if_pos rfl]
      · have hne : k ≠ key := by
          rintro rfl
          exact hnodup.1 (List.mem_map_of_mem hrest)
        rw [get?, if_neg hne, ih hnodup.2 hrest]

theorem mem_of_get? (h : get? key entries = some value) : (key, value) ∈ entries := by
  induction entries with
  | nil => cases h
  | cons entry rest ih =>
      obtain ⟨k, first⟩ := entry
      rw [get?] at h
      split at h
      · next heq =>
        obtain rfl := Option.some.inj h
        exact heq ▸ List.mem_cons_self
      · exact List.mem_cons_of_mem _ (ih h)

theorem get?_eq_none_of_not_mem (h : key ∉ keys entries) : get? key entries = none := by
  cases hget : get? key entries with
  | none => rfl
  | some value => exact absurd (List.mem_map_of_mem (mem_of_get? hget)) h

end RecordQuery.Entries
