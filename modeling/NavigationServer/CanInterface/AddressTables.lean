/-
NavigationServer.CanInterface.AddressTables — the tables of the local addresses.

`Tables` is what the controller knows of the addresses of its applications: the
address and the NAME of each, the application that the table of devices has at
an address, the index, and the addresses that the CAN interface accepts. They
are `WellFormed` when they say the same, and three operations keep them so: an
application is added, one gets another address in all of them (`readdress`), and
one has fields of its NAME changed. What a call does to the tables is one of
these, or nothing.

`withAddress` alone does not keep the tables well formed: it is the first half of
`readdress`, after which the application has an address that the others do not know.
-/
import Mathlib.Data.List.Perm.Basic
import Mathlib.Data.Nat.Size
import NavigationServer.CanInterface.ActiveController
import NavigationServer.Lib.Lists

namespace NavigationServer.CanInterface

open NavigationServer.Lib
open NavigationServer.Nmea2000Datamodel

/-- What the controller knows of its addresses. An application is its place in `apps`. -/
structure Tables where
  apps : List (Nat × NMEA2000MutableName)
  appAt : Nat → Option Nat
  appIndex : AList (fun _ : Nat => Nat)
  addresses : List Nat
  pool : NMEA2000ApplicationPool

namespace Tables

/-! ## 1. Well-formed tables -/

/-- What the pool was built with: no address above 254, at most 127 identity
numbers, and room for them in the root. -/
structure PoolFits (pool : NMEA2000ApplicationPool) : Prop where
  le : ∀ a ∈ pool.addressPool, a ≤ 254
  max : pool.maxApplication ≤ 127
  root : 2 ^ (pool.maxApplication - 1).size ∣ pool.uniqueIdRoot

/-- The tables say the same: who has an address is read off any of them. The identity
numbers count up from the root, so the NAMEs differ. -/
structure WellFormed (t : Tables) : Prop where
  nodup : (t.apps.map Prod.fst).Nodup
  le : ∀ (k a : Nat) (n : NMEA2000MutableName), t.apps[k]? = some (a, n) → a ≤ 253
  appAt : ∀ a k : Nat, t.appAt a = some k ↔ ∃ n, t.apps[k]? = some (a, n)
  appIndex : ∀ (k a : Nat) (n : NMEA2000MutableName), t.apps[k]? = some (a, n) →
    t.appIndex.lookup a = some k
  addresses : t.addresses.Perm (255 :: t.apps.map Prod.fst)
  identity : ∀ (k a : Nat) (n : NMEA2000MutableName), t.apps[k]? = some (a, n) →
    n.HasIdentity (t.pool.uniqueIdRoot ||| k)
  count : t.pool.applicationCount = t.apps.length
  count_le : t.pool.applicationCount ≤ t.pool.maxApplication
  pool : PoolFits t.pool

namespace WellFormed

variable {t : Tables}

/-- There are no more applications than the pool allows. -/
theorem length_lt_of_getElem? {k a : Nat} {n : NMEA2000MutableName} (h : t.WellFormed)
    (hk : t.apps[k]? = some (a, n)) : k < t.pool.maxApplication := by
  have hlt := (List.getElem?_eq_some_iff.mp hk).1
  have hcount := h.count
  have hle := h.count_le
  omega

/-- Two identity numbers of one root are different. -/
theorem identity_injective {root k k' m : Nat} (hroot : 2 ^ (m - 1).size ∣ root) (hm : m ≤ 127)
    (hk : k < m) (hk' : k' < m) (h : (root ||| k) % 2 ^ 21 = (root ||| k') % 2 ^ 21) : k = k' := by
  have hsize : (m - 1).size ≤ 21 := Nat.size_le.mpr (by omega)
  have hlow : ∀ i, i < m → (root ||| i) % 2 ^ 21 % 2 ^ (m - 1).size = i := by
    intro i hi
    have hlt : i < 2 ^ (m - 1).size := lt_of_le_of_lt (Nat.le_sub_one_of_lt hi) (Nat.lt_size_self (m - 1))
    rw [Nat.mod_mod_of_dvd _ (pow_dvd_pow 2 hsize), Nat.or_mod_two_pow,
      Nat.mod_eq_zero_of_dvd hroot, Nat.zero_or, Nat.mod_eq_of_lt hlt]
  rw [← hlow k hk, h, hlow k' hk']

/-- The NAMEs of the applications are different. -/
theorem name_injective (h : t.WellFormed) {k k' a a' : Nat} {n n' : NMEA2000MutableName}
    (hk : t.apps[k]? = some (a, n)) (hk' : t.apps[k']? = some (a', n'))
    (hname : n.intValue = n'.intValue) : k = k' := by
  have hid := (h.identity k a n hk).intValue_mod
  have hid' := (h.identity k' a' n' hk').intValue_mod
  rw [hname, hid'] at hid
  exact identity_injective h.pool.root h.pool.max (h.length_lt_of_getElem? hk)
    (h.length_lt_of_getElem? hk') hid.symm

end WellFormed

/-! ## 2. The operations -/

/-- Application `k` goes to the address `a`, in all tables. -/
def readdress (t : Tables) (k old a : Nat) : Tables where
  apps := t.apps.modify k (fun x => (a, x.2))
  appAt := Function.update (Function.update t.appAt old none) a (some k)
  appIndex := (t.appIndex.erase old).insert a k
  addresses := t.addresses.erase old ++ [a &&& 0xFF]
  pool := t.pool

/-- Application `k` has the address `a` of its own, and not yet in the other
tables. -/
def withAddress (t : Tables) (k a : Nat) : Tables :=
  { t with apps := t.apps.modify k (fun x => (a, x.2)) }

/-- Addresses of the pool are gone. -/
def leavePool (t : Tables) (rest : List Nat) : Tables :=
  { t with pool := { t.pool with addressPool := rest } }

/-- Fields of a NAME are changed. -/
def rename (t : Tables) (k : Nat) (params : List (Nat × Nat)) : Tables :=
  { t with apps := t.apps.modify k (fun x => (x.1, x.2.modifyParameters params)) }

/-- An application is added. -/
def add (t : Tables) (a : Nat) (name : NMEA2000MutableName) : Tables where
  apps := t.apps ++ [(a, name)]
  appAt := Function.update t.appAt a (some t.apps.length)
  appIndex := t.appIndex.insert a t.apps.length
  addresses := t.addresses ++ [a &&& 0xFF]
  pool := { t.pool with applicationCount := t.pool.applicationCount + 1 }

namespace WellFormed

variable {t : Tables}

/-- A smaller pool still fits. -/
theorem leavePool (h : t.WellFormed) {rest : List Nat}
    (hrest : ∀ a ∈ rest, a ∈ t.pool.addressPool) : (t.leavePool rest).WellFormed :=
  ⟨h.nodup, h.le, h.appAt, h.appIndex, h.addresses, h.identity, h.count, h.count_le,
    fun a ha => h.pool.le a (hrest a ha), h.pool.max, h.pool.root⟩

/-- What is at a place when one place is changed. -/
theorem getElem?_modify_some {α : Type} {l : List α} {k j : Nat} {f : α → α} {y : α}
    (h : (l.modify k f)[j]? = some y) : ∃ x, l[j]? = some x ∧ y = if k = j then f x else x := by
  rw [List.getElem?_modify] at h
  obtain ⟨x, hx, heq⟩ := Option.map_eq_some_iff.mp h
  exact ⟨x, hx, heq.symm⟩

/-- The fields that a group function may change are not the identity number. -/
theorem rename (h : t.WellFormed) (k : Nat) (params : List (Nat × Nat)) :
    (t.rename k params).WellFormed := by
  have hfst : (t.rename k params).apps.map Prod.fst = t.apps.map Prod.fst :=
    map_modify _ _ _ _ (fun _ => rfl)
  have hback : ∀ (j a : Nat) (n : NMEA2000MutableName), (t.rename k params).apps[j]? = some (a, n) →
      ∃ n', t.apps[j]? = some (a, n') ∧ (n = n' ∨ n = n'.modifyParameters params) := by
    intro j a n hj
    obtain ⟨x, hx, heq⟩ := getElem?_modify_some hj
    split at heq
    · cases heq
      exact ⟨x.2, hx, Or.inr rfl⟩
    · subst heq
      exact ⟨n, hx, Or.inl rfl⟩
  refine ⟨?_, ?_, ?_, ?_, ?_, ?_, ?_, h.count_le, h.pool⟩
  · rw [hfst]
    exact h.nodup
  · intro j a n hj
    obtain ⟨n', hn', -⟩ := hback j a n hj
    exact h.le j a n' hn'
  · intro a j
    rw [show (t.rename k params).appAt = t.appAt from rfl, h.appAt]
    constructor
    · rintro ⟨n, hn⟩
      by_cases hkj : k = j
      · exact ⟨n.modifyParameters params, by simp [Tables.rename, hn, hkj]⟩
      · exact ⟨n, by simp [Tables.rename, hn, hkj]⟩
    · rintro ⟨n, hn⟩
      obtain ⟨n', hn', -⟩ := hback j a n hn
      exact ⟨n', hn'⟩
  · intro j a n hj
    obtain ⟨n', hn', -⟩ := hback j a n hj
    exact h.appIndex j a n' hn'
  · rw [hfst]
    exact h.addresses
  · intro j a n hj
    obtain ⟨n', hn', rfl | rfl⟩ := hback j a n hj
    · exact h.identity j a n hn'
    · exact (h.identity j a n' hn').modifyParameters params
  · rw [show (t.rename k params).apps.length = t.apps.length from List.length_modify ..]
    exact h.count

/-- An address below 254 is its low byte, with which the CAN interface compares. -/
theorem and_low_byte {a : Nat} (ha : a ≤ 253) : a &&& 0xFF = a := by
  rw [show 0xFF = 2 ^ 8 - 1 from rfl, Nat.and_two_pow_sub_one_eq_mod, Nat.mod_eq_of_lt (by omega)]

/-- Applications with one address are one. -/
theorem address_injective (h : t.WellFormed) {k k' a : Nat} {n n' : NMEA2000MutableName}
    (hk : t.apps[k]? = some (a, n)) (hk' : t.apps[k']? = some (a, n')) : k = k' := by
  have hat := (h.appAt a k).mpr ⟨n, hk⟩
  rw [(h.appAt a k').mpr ⟨n', hk'⟩] at hat
  exact (Option.some.inj hat).symm

/-- **An application gets an address that no other one has.** -/
theorem readdress (h : t.WellFormed) {k old a : Nat} {n : NMEA2000MutableName}
    (hk : t.apps[k]? = some (old, n)) (ha : a ≤ 253) (hfree : ∀ j, t.appAt a = some j → j = k) :
    (t.readdress k old a).WellFormed := by
  have hlt : k < t.apps.length := (List.getElem?_eq_some_iff.mp hk).1
  have hself : (t.readdress k old a).apps[k]? = some (a, n) := by
    simp [Tables.readdress, hk]
  have hother : ∀ j, j ≠ k → (t.readdress k old a).apps[j]? = t.apps[j]? := by
    intro j hj
    rw [Tables.readdress, List.getElem?_modify]
    simp [Ne.symm hj]
  -- another application has neither the old address nor the new one
  have hne : ∀ (j b : Nat) (m : NMEA2000MutableName), j ≠ k → t.apps[j]? = some (b, m) →
      b ≠ old ∧ b ≠ a := by
    intro j b m hj hb
    refine ⟨?_, ?_⟩
    · rintro rfl
      exact hj (h.address_injective hb hk)
    · rintro rfl
      exact hj (hfree j ((h.appAt b j).mpr ⟨m, hb⟩))
  have hcase : ∀ (j b : Nat) (m : NMEA2000MutableName),
      (t.readdress k old a).apps[j]? = some (b, m) →
        (j = k ∧ b = a ∧ m = n) ∨ (j ≠ k ∧ t.apps[j]? = some (b, m)) := by
    intro j b m hj
    rcases eq_or_ne j k with rfl | hjk
    · rw [hself] at hj
      cases hj
      exact Or.inl ⟨rfl, rfl, rfl⟩
    · rw [hother j hjk] at hj
      exact Or.inr ⟨hjk, hj⟩
  -- the addresses, with the old one replaced
  have hfst : (t.readdress k old a).apps.map Prod.fst = (t.apps.map Prod.fst).set k a := by
    rw [Tables.readdress, map_modify_comm _ _ _ (fun _ => a) _ (fun _ => rfl)]
    exact modify_const _ _ _
  have hold : (t.apps.map Prod.fst)[k]? = some old := by
    rw [List.getElem?_map, hk]
    rfl
  refine ⟨?_, ?_, ?_, ?_, ?_, ?_, ?_, h.count_le, h.pool⟩
  · rw [hfst]
    rcases eq_or_ne a old with rfl | hao
    · obtain ⟨hlt', hget⟩ := List.getElem?_eq_some_iff.mp hold
      rw [← hget, List.set_getElem_self]
      exact h.nodup
    · refine h.nodup.set ?_
      intro hmem
      obtain ⟨⟨b, m⟩, hb, rfl⟩ := List.mem_map.mp hmem
      obtain ⟨j, hj⟩ := List.getElem?_of_mem hb
      have hjk : j = k := hfree j ((h.appAt b j).mpr ⟨m, hj⟩)
      subst hjk
      rw [hk] at hj
      cases hj
      exact hao rfl
  · intro j b m hj
    rcases hcase j b m hj with ⟨-, rfl, -⟩ | ⟨-, hj⟩
    · exact ha
    · exact h.le j b m hj
  · intro b j
    change Function.update (Function.update t.appAt old none) a (some k) b = some j ↔ _
    rcases eq_or_ne b a with rfl | hba
    · rw [Function.update_self]
      constructor
      · intro hj
        cases hj
        exact ⟨n, hself⟩
      · rintro ⟨m, hm⟩
        rcases hcase j b m hm with ⟨rfl, -, -⟩ | ⟨hjk, hm⟩
        · rfl
        · exact absurd rfl (hne j b m hjk hm).2
    · rw [Function.update_of_ne hba]
      rcases eq_or_ne b old with rfl | hbo
      · rw [Function.update_self]
        constructor
        · intro hj
          cases hj
        · rintro ⟨m, hm⟩
          rcases hcase j b m hm with ⟨-, rfl, -⟩ | ⟨hjk, hm⟩
          · exact absurd rfl hba
          · exact absurd rfl (hne j b m hjk hm).1
      · rw [Function.update_of_ne hbo, h.appAt]
        constructor
        · rintro ⟨m, hm⟩
          refine ⟨m, ?_⟩
          rw [hother j]
          · exact hm
          · rintro rfl
            rw [hk] at hm
            cases hm
            exact hbo rfl
        · rintro ⟨m, hm⟩
          rcases hcase j b m hm with ⟨-, rfl, -⟩ | ⟨-, hm⟩
          · exact absurd rfl hba
          · exact ⟨m, hm⟩
  · intro j b m hj
    change ((t.appIndex.erase old).insert a k).lookup b = some j
    rcases hcase j b m hj with ⟨rfl, rfl, -⟩ | ⟨hjk, hj⟩
    · exact AList.lookup_insert _
    · obtain ⟨hbo, hba⟩ := hne j b m hjk hj
      rw [AList.lookup_insert_ne hba, AList.lookup_erase_ne hbo]
      exact h.appIndex j b m hj
  · rw [hfst]
    change (t.addresses.erase old ++ [a &&& 0xFF]).Perm _
    rw [and_low_byte ha]
    have hlen : k < (t.apps.map Prod.fst).length := by rwa [List.length_map]
    have hget : (t.apps.map Prod.fst)[k] = old := (List.getElem?_eq_some_iff.mp hold).2
    have herase : (t.addresses.erase old).Perm (255 :: (t.apps.map Prod.fst).eraseIdx k) := by
      have hperm := (List.getElem_cons_eraseIdx_perm hlen).symm
      rw [hget] at hperm
      have hswap := (h.addresses.trans (hperm.cons 255)).trans (List.Perm.swap ..)
      have := hswap.erase old
      rwa [List.erase_cons_head] at this
    calc List.Perm (t.addresses.erase old ++ [a]) (a :: t.addresses.erase old) :=
          List.perm_append_singleton a _
      List.Perm _ (a :: 255 :: (t.apps.map Prod.fst).eraseIdx k) := herase.cons a
      List.Perm _ (255 :: a :: (t.apps.map Prod.fst).eraseIdx k) := List.Perm.swap ..
      List.Perm _ (255 :: (t.apps.map Prod.fst).set k a) :=
          (List.set_perm_cons_eraseIdx hlen a).symm.cons 255
  · intro j b m hj
    rcases hcase j b m hj with ⟨rfl, -, rfl⟩ | ⟨-, hj⟩
    · exact h.identity j old m hk
    · exact h.identity j b m hj
  · rw [show (t.readdress k old a).apps.length = t.apps.length from List.length_modify ..]
    exact h.count

/-- **An application is added at an address that none has.** -/
theorem add (h : t.WellFormed) {a : Nat} {name : NMEA2000MutableName} (ha : a ≤ 253)
    (hfree : t.appAt a = none)
    (hname : name.HasIdentity (t.pool.uniqueIdRoot ||| t.pool.applicationCount))
    (hcount : t.pool.applicationCount < t.pool.maxApplication) : (t.add a name).WellFormed := by
  have hcase : ∀ (j b : Nat) (m : NMEA2000MutableName), (t.add a name).apps[j]? = some (b, m) →
      (j = t.apps.length ∧ b = a ∧ m = name) ∨ t.apps[j]? = some (b, m) := by
    intro j b m hj
    rcases getElem?_concat_some hj with hj | ⟨rfl, heq⟩
    · exact Or.inr hj
    · cases heq
      exact Or.inl ⟨rfl, rfl, rfl⟩
  have hne : ∀ (j b : Nat) (m : NMEA2000MutableName), t.apps[j]? = some (b, m) → b ≠ a := by
    rintro j b m hj rfl
    rw [(h.appAt b j).mpr ⟨m, hj⟩] at hfree
    cases hfree
  have hfst : (t.add a name).apps.map Prod.fst = t.apps.map Prod.fst ++ [a] := by
    simp [Tables.add]
  refine ⟨?_, ?_, ?_, ?_, ?_, ?_, ?_, ?_, h.pool.le, h.pool.max, h.pool.root⟩
  · rw [hfst, List.nodup_append]
    refine ⟨h.nodup, List.nodup_singleton a, ?_⟩
    rintro b hb c hc rfl
    obtain ⟨⟨b', m⟩, hmem, rfl⟩ := List.mem_map.mp hb
    obtain ⟨j, hj⟩ := List.getElem?_of_mem hmem
    exact hne j b' m hj (List.mem_singleton.mp hc)
  · intro j b m hj
    rcases hcase j b m hj with ⟨-, rfl, -⟩ | hj
    · exact ha
    · exact h.le j b m hj
  · intro b j
    change Function.update t.appAt a (some t.apps.length) b = some j ↔ _
    rcases eq_or_ne b a with rfl | hba
    · rw [Function.update_self]
      constructor
      · intro hj
        cases hj
        exact ⟨name, List.getElem?_concat_length⟩
      · rintro ⟨m, hm⟩
        rcases hcase j b m hm with ⟨rfl, -, -⟩ | hm
        · rfl
        · exact absurd rfl (hne j b m hm)
    · rw [Function.update_of_ne hba, h.appAt]
      constructor
      · rintro ⟨m, hm⟩
        exact ⟨m, getElem?_concat_of_some _ hm⟩
      · rintro ⟨m, hm⟩
        rcases hcase j b m hm with ⟨-, rfl, -⟩ | hm
        · exact absurd rfl hba
        · exact ⟨m, hm⟩
  · intro j b m hj
    change (t.appIndex.insert a t.apps.length).lookup b = some j
    rcases hcase j b m hj with ⟨rfl, rfl, -⟩ | hj
    · exact AList.lookup_insert _
    · rw [AList.lookup_insert_ne (hne j b m hj)]
      exact h.appIndex j b m hj
  · rw [hfst]
    change (t.addresses ++ [a &&& 0xFF]).Perm _
    rw [and_low_byte ha]
    exact h.addresses.append_right [a]
  · intro j b m hj
    rcases hcase j b m hj with ⟨rfl, -, rfl⟩ | hj
    · rw [h.count] at hname
      exact hname
    · exact h.identity j b m hj
  · change t.pool.applicationCount + 1 = (t.apps ++ [(a, name)]).length
    rw [List.length_append, h.count, List.length_singleton]
  · exact hcount

end WellFormed

end Tables

end NavigationServer.CanInterface
