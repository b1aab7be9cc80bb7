/-
NavigationServer.Lib.Dict — dictionaries that keep the order of their keys.

A `Dict` is the list of its entries, oldest key first. A new key comes to the
end; a key that is there keeps its place and gets the new value (`set`). What a
dictionary holds is known by its lookups: an entry is a lookup (`mem_entries_iff`),
and `set` and `erase` change the lookup of their own key only.
-/
import Mathlib.Data.List.Basic
import Mathlib.Data.List.Nodup

namespace NavigationServer.Lib

/-- The entries, each key once. -/
structure Dict (κ α : Type*) where
  entries : List (κ × α)
  nodup : (entries.map Prod.fst).Nodup

namespace Dict

variable {κ α : Type*}

def empty : Dict κ α := ⟨[], List.nodup_nil⟩

instance : EmptyCollection (Dict κ α) := ⟨empty⟩

/-- The values, oldest key first. -/
def values (d : Dict κ α) : List α := d.entries.map Prod.snd

variable [DecidableEq κ]

/-- The value of a key. -/
def get? (d : Dict κ α) (k : κ) : Option α := (d.entries.find? (fun e => e.1 = k)).map Prod.snd

/-- The entries with a new value for a key. -/
def replace (k : κ) (v : α) (entries : List (κ × α)) : List (κ × α) :=
  entries.map (fun e => if e.1 = k then (k, v) else e)

theorem map_fst_replace (k : κ) (v : α) (entries : List (κ × α)) :
    (replace k v entries).map Prod.fst = entries.map Prod.fst := by
  rw [replace, List.map_map]
  refine List.map_congr_left fun e _ => ?_
  rw [Function.comp_apply]
  split
  · rename_i h
    exact h.symm
  · rfl

def set (d : Dict κ α) (k : κ) (v : α) : Dict κ α where
  entries := if k ∈ d.entries.map Prod.fst then replace k v d.entries else d.entries ++ [(k, v)]
  nodup := by
    split
    · rw [map_fst_replace]
      exact d.nodup
    · rename_i hk
      rw [List.map_append, List.map_singleton]
      exact d.nodup.append (List.nodup_singleton k) (by simpa using hk)

def erase (d : Dict κ α) (k : κ) : Dict κ α where
  entries := d.entries.filter (fun e => e.1 ≠ k)
  nodup := (List.filter_sublist.map Prod.fst).nodup d.nodup

theorem mem_entries_iff {d : Dict κ α} {k : κ} {v : α} : (k, v) ∈ d.entries ↔ d.get? k = some v := by
  obtain ⟨entries, hnodup⟩ := d
  rw [get?]
  dsimp only
  induction entries with
  | nil => simp
  | cons e entries ih =>
    rw [List.map_cons, List.nodup_cons] at hnodup
    have hrest := ih hnodup.2
    rw [List.find?_cons]
    by_cases he : e.1 = k
    · rw [decide_eq_true he]
      constructor
      · intro hmem
        rcases List.mem_cons.mp hmem with rfl | hmem
        · rfl
        · exact absurd (List.mem_map_of_mem hmem) (he ▸ hnodup.1)
      · intro hval
        obtain rfl : e.2 = v := Option.some.inj hval
        exact List.mem_cons.mpr (Or.inl (Prod.ext he.symm rfl))
    · rw [decide_eq_false he]
      constructor
      · intro hmem
        rcases List.mem_cons.mp hmem with rfl | hmem
        · exact absurd rfl he
        · exact hrest.mp hmem
      · exact fun hval => List.mem_cons_of_mem _ (hrest.mpr hval)

/-- The lookup of a key is decided by its entries. -/
theorem get?_eq_of_mem_iff {d d' : Dict κ α} {k : κ}
    (h : ∀ v, (k, v) ∈ d.entries ↔ (k, v) ∈ d'.entries) : d.get? k = d'.get? k := by
  refine Option.ext fun v => ?_
  have hv := h v
  rwa [mem_entries_iff, mem_entries_iff] at hv

@[simp] theorem get?_empty (k : κ) : (∅ : Dict κ α).get? k = none := rfl

@[simp] theorem get?_set_self (d : Dict κ α) (k : κ) (v : α) : (d.set k v).get? k = some v := by
  rw [← mem_entries_iff, set]
  dsimp only
  split
  · rename_i hk
    obtain ⟨e, he, rfl⟩ := List.mem_map.mp hk
    exact List.mem_map.mpr ⟨e, he, if_pos rfl⟩
  · exact List.mem_append_right _ (List.mem_singleton_self _)

theorem get?_set_ne (d : Dict κ α) {k k' : κ} (v : α) (h : k' ≠ k) :
    (d.set k v).get? k' = d.get? k' := by
  refine get?_eq_of_mem_iff fun w => ?_
  rw [set]
  dsimp only
  split
  · rw [replace, List.mem_map]
    constructor
    · rintro ⟨e, he, heq⟩
      split at heq
      · cases heq
        exact absurd rfl h
      · exact heq ▸ he
    · exact fun hmem => ⟨(k', w), hmem, if_neg h⟩
  · rw [List.mem_append, List.mem_singleton]
    refine or_iff_left fun heq => ?_
    cases heq
    exact h rfl

@[simp] theorem get?_erase_self (d : Dict κ α) (k : κ) : (d.erase k).get? k = none := by
  refine Option.eq_none_iff_forall_ne_some.mpr fun v hv => ?_
  have hmem := mem_entries_iff.mpr hv
  simp [erase] at hmem

theorem get?_erase_ne (d : Dict κ α) {k k' : κ} (h : k' ≠ k) : (d.erase k).get? k' = d.get? k' := by
  refine get?_eq_of_mem_iff fun w => ?_
  simp [erase, h]

/-- The values are different where no two keys have the same. -/
theorem nodup_values (d : Dict κ α)
    (h : ∀ k k' v, d.get? k = some v → d.get? k' = some v → k = k') : d.values.Nodup := by
  have hentries : d.entries.Nodup := List.Nodup.of_map Prod.fst d.nodup
  refine List.Nodup.map_on ?_ hentries
  rintro ⟨k, v⟩ he ⟨k', v'⟩ he' heq
  obtain rfl : v = v' := heq
  rw [h k k' v (mem_entries_iff.mp he) (mem_entries_iff.mp he')]

end Dict

end NavigationServer.Lib
