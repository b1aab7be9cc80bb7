/-
NavigationServer.Lib.Lists — lists as tables: one place changes, one is added.

A table of objects is a list, and a reference is a place in it. `List.modify`
changes a place, and a projection of the objects that the change does not touch
is the same list as before (`map_modify`).
-/
import Mathlib.Algebra.GroupWithZero.Nat
import Mathlib.Data.List.AList
import Mathlib.Data.List.Basic

namespace NavigationServer.Lib

variable {α β : Type*}

/-! ## One place changes -/

theorem map_modify (l : List α) (i : Nat) (f : α → α) (g : α → β)
    (h : ∀ x, g (f x) = g x) : (l.modify i f).map g = l.map g := by
  apply List.ext_getElem?
  intro j
  rw [List.getElem?_map, List.getElem?_map, List.getElem?_modify]
  cases l[j]? with
  | none => rfl
  | some x =>
    by_cases hij : i = j
    · simp [hij, h]
    · simp [hij]

theorem map_modify_comm (l : List α) (i : Nat) (f : α → α) (f' : β → β) (g : α → β)
    (h : ∀ x, g (f x) = f' (g x)) : (l.modify i f).map g = (l.map g).modify i f' := by
  apply List.ext_getElem?
  intro j
  rw [List.getElem?_map, List.getElem?_modify, List.getElem?_modify, List.getElem?_map]
  cases l[j]? with
  | none => rfl
  | some x =>
    by_cases hij : i = j
    · simp [hij, h]
    · simp [hij]

theorem modify_const (l : List α) (i : Nat) (x : α) : l.modify i (fun _ => x) = l.set i x := by
  apply List.ext_getElem?
  intro j
  rw [List.getElem?_modify, List.getElem?_set]
  by_cases hij : i = j
  · subst hij
    rcases Nat.lt_or_ge i l.length with hlt | hge
    · simp [hlt]
    · simp [Nat.not_lt.mpr hge]
  · simp [hij]

theorem modify_concat (l : List α) (x : α) (f : α → α) :
    (l ++ [x]).modify l.length f = l ++ [f x] := by
  induction l with
  | nil => rfl
  | cons a l ih => simpa using ih

theorem of_getElem?_modify {l : List α} {i j : Nat} {f : α → α} {y : α}
    (h : (l.modify i f)[j]? = some y) : ∃ x, l[j]? = some x ∧ y = if i = j then f x else x := by
  rw [List.getElem?_modify] at h
  obtain ⟨x, hx, rfl⟩ := Option.map_eq_some_iff.mp h
  exact ⟨x, hx, rfl⟩

theorem getElem?_modify_of {l : List α} {j : Nat} {x : α} (i : Nat) (f : α → α)
    (h : l[j]? = some x) : (l.modify i f)[j]? = some (if i = j then f x else x) := by
  rw [List.getElem?_modify, h]
  rfl

/-! ## A place is added -/

theorem getElem?_concat_some {l : List α} {i : Nat} {x y : α}
    (h : (l ++ [x])[i]? = some y) : l[i]? = some y ∨ (i = l.length ∧ y = x) := by
  rcases Nat.lt_trichotomy i l.length with hlt | rfl | hgt
  · rw [List.getElem?_append_left hlt] at h
    exact Or.inl h
  · rw [List.getElem?_concat_length] at h
    exact Or.inr ⟨rfl, (Option.some.inj h).symm⟩
  · rw [List.getElem?_eq_none (by simp; omega)] at h
    cases h

theorem getElem?_concat_of_some {l : List α} {i : Nat} {y : α} (x : α)
    (h : l[i]? = some y) : (l ++ [x])[i]? = some y := by
  rw [List.getElem?_append_left (List.getElem?_eq_some_iff.mp h).1]
  exact h

/-! ## Keys are deleted -/

theorem lookup_foldl_erase {κ : Type*} [DecidableEq κ] (keys : List κ)
    (m : AList (fun _ : κ => β)) (a : κ) :
    (keys.foldl (fun m key => m.erase key) m).lookup a = if a ∈ keys then none else m.lookup a := by
  induction keys generalizing m with
  | nil => simp
  | cons key keys ih =>
    rw [List.foldl_cons, ih]
    by_cases ha : a ∈ keys
    · simp [ha]
    · rcases eq_or_ne a key with rfl | hne
      · simp [ha]
      · simp [ha, hne, AList.lookup_erase_ne hne]

/-! ## The values of a table -/

/-- What an insertion does to a sum over the values. -/
theorem sum_insert {κ : Type*} [DecidableEq κ] (t : AList (fun _ : κ => β)) (f : β → Nat) (a : κ)
    (b : β) :
    ((t.insert a b).entries.map (fun e => f e.2)).sum + ((t.lookup a).map f).getD 0
      = (t.entries.map (fun e => f e.2)).sum + f b := by
  rw [AList.entries_insert, List.map_cons, List.sum_cons]
  by_cases ha : a ∈ t
  · obtain ⟨old, front, back, hfront, hentries, herase⟩ := List.exists_of_kerase (AList.mem_keys.mp ha)
    have hold : t.lookup a = some old := by
      rw [← AList.mem_lookup_iff.mpr (hentries ▸ by simp : (⟨a, old⟩ : Sigma _) ∈ t.entries)]
    rw [herase, hentries, hold]
    simp only [List.map_append, List.map_cons, List.sum_append, List.sum_cons, Option.map_some,
      Option.getD_some]
    omega
  · rw [List.kerase_of_notMem_keys ha, AList.lookup_eq_none.mpr ha]
    simp only [Option.map_none, Option.getD_none]
    omega

/-! ## Lists in order -/

/-- Where the first ones satisfy a condition, one satisfies it when it stands
among as many as do. -/
theorem iff_lt_countP {l : List α} {P : α → Bool}
    (hmono : l.Pairwise fun x y => P y = true → P x = true) {i : Nat} {x : α} (h : l[i]? = some x) :
    P x = true ↔ i < l.countP P := by
  induction l generalizing i with
  | nil => cases h
  | cons a l ih =>
    obtain ⟨ha, hl⟩ := List.pairwise_cons.mp hmono
    rw [List.countP_cons]
    cases i with
    | zero =>
      obtain rfl : a = x := Option.some.inj h
      by_cases hP : P a = true
      · simp [hP]
      · have hnone : l.countP P = 0 := List.countP_eq_zero.mpr fun y hy hPy => hP (ha y hy hPy)
        simp [hP, hnone]
    | succ i =>
      rw [List.getElem?_cons_succ] at h
      have hiff := ih hl h
      by_cases hP : P a = true
      · rw [hiff, if_pos hP]
        omega
      · have hnone : l.countP P = 0 := List.countP_eq_zero.mpr fun y hy hPy => hP (ha y hy hPy)
        rw [hiff, hnone, if_neg hP]
        omega

/-! ## The first occurrence -/

theorem idxOf?_split [DecidableEq α] {l : List α} {x : α} {i : Nat} (h : l.idxOf? x = some i) :
    ∃ a b : List α, l = a ++ x :: b ∧ x ∉ a ∧ a.length = i := by
  obtain ⟨hi, hx, hfirst⟩ := List.idxOf?_eq_some_iff.mp h
  refine ⟨l.take i, l.drop (i + 1), ?_, ?_, ?_⟩
  · rw [← hx, ← List.drop_eq_getElem_cons hi, List.take_append_drop]
  · intro hmem
    obtain ⟨j, hj, hjx⟩ := List.mem_iff_getElem.mp hmem
    have hji : j < i := Nat.lt_of_lt_of_le hj (List.length_take_le i l)
    rw [List.getElem_take] at hjx
    exact absurd hjx (by simpa using hfirst j hji)
  · rw [List.length_take, Nat.min_eq_left (Nat.le_of_lt hi)]

theorem idxOf?_append_cons [DecidableEq α] {l : List α} {x : α} (h : x ∉ l) (rest : List α) :
    (l ++ x :: rest).idxOf? x = some l.length := by
  refine List.idxOf?_eq_some_iff.mpr ⟨by simp, by simp, fun j hj => ?_⟩
  rw [List.getElem_append_left hj]
  exact fun heq => h (heq ▸ List.getElem_mem hj)

/-- What stands before a first occurrence, and behind it. -/
theorem append_cons_cancel [DecidableEq α] {a a' b b' : List α} {x : α} (h : x ∉ a) (h' : x ∉ a')
    (heq : a ++ x :: b = a' ++ x :: b') : a = a' ∧ b = b' := by
  have hindex := idxOf?_append_cons h b
  rw [heq, idxOf?_append_cons h' b'] at hindex
  obtain ⟨hfront, hback⟩ := List.append_inj heq (Option.some.inj hindex).symm
  exact ⟨hfront, (List.cons.inj hback).2⟩

/-- The last value that is found in a list. -/
theorem getLast?_filterMap_cons {α β : Type*} (f : α → Option β) (a : α) (l : List α) :
    ((a :: l).filterMap f).getLast? = (l.filterMap f).getLast?.or (f a) := by
  rw [List.filterMap_cons]
  cases f a with
  | none => simp
  | some b =>
    rw [List.getLast?_cons]
    cases (l.filterMap f).getLast? <;> rfl

end NavigationServer.Lib
