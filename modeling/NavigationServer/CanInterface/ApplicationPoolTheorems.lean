/-
NavigationServer.CanInterface.ApplicationPoolTheorems — no address and no NAME is
given out twice.

A run takes the addresses off the list in order, so those that it gives are a
sublist of it. The NAMEs take the numbers of the counter in order, and the
identity numbers of two numbers differ: the bits of the counter lie in the zeros
that the shift leaves, below the twenty-one bits that the NAME keeps.
-/
import NavigationServer.CanInterface.AddressTheorems
import NavigationServer.CanInterface.ApplicationPool
import NavigationServer.Nmea2000Datamodel.MutableNameTheorems

namespace NavigationServer.CanInterface

open NavigationServer.Lib
open NavigationServer.Nmea2000Datamodel

/-! ## 1. Addresses -/

namespace NMEA2000ApplicationPool

open NMEA2KActiveController

variable {pool : NMEA2000ApplicationPool}

/-- The address that is taken stands in front of what is left. -/
theorem takeAddress_sublist (known : Nat → Bool) (addresses : List Nat)
    (h : (takeAddress known addresses).1 ≠ 254) :
    ((takeAddress known addresses).1 :: (takeAddress known addresses).2).Sublist addresses := by
  induction addresses with
  | nil => exact absurd rfl h
  | cons a addresses ih =>
    rw [takeAddress] at h ⊢
    split
    · rename_i hknown
      rw [if_pos hknown] at h
      exact (ih h).cons a
    · exact List.Sublist.refl _

theorem takeAddress_rest_sublist (known : Nat → Bool) (addresses : List Nat) :
    (takeAddress known addresses).2.Sublist addresses := by
  induction addresses with
  | nil => exact List.Sublist.refl _
  | cons a addresses ih =>
    rw [takeAddress]
    split
    · exact ih.cons a
    · exact List.sublist_cons_self a addresses

/-- Where no address is taken, the controller knows all of them. -/
theorem takeAddress_exhausted {known : Nat → Bool} {addresses : List Nat}
    (h254 : 254 ∉ addresses) (h : (takeAddress known addresses).1 = 254) :
    ∀ a ∈ addresses, known a = true := by
  induction addresses with
  | nil => exact fun a ha => absurd ha List.not_mem_nil
  | cons a addresses ih =>
    rw [takeAddress] at h
    obtain ⟨ha, hrest⟩ := List.ne_and_not_mem_of_not_mem_cons h254
    split at h
    · rename_i hknown
      exact List.forall_mem_cons.mpr ⟨hknown, ih hrest h⟩
    · exact absurd h ha.symm

theorem addressPool_applicationName (pool : NMEA2000ApplicationPool)
    (deviceClass deviceFunction : Nat) :
    (pool.applicationName deviceClass deviceFunction).2.addressPool = pool.addressPool := by
  unfold applicationName
  split <;> rfl

/-- A call looks for an address, or leaves the list alone. -/
theorem answer_address (pool : NMEA2000ApplicationPool) (input : PoolInput) :
    ((pool.answer input).1.address = none ∧ (pool.answer input).2.addressPool = pool.addressPool) ∨
      ((pool.answer input).1.address = some (takeAddress input.known pool.addressPool).1 ∧
        (pool.answer input).2.addressPool = (takeAddress input.known pool.addressPool).2) := by
  unfold answer
  split
  · rename_i deviceClass deviceFunction hcall
    right
    unfold applicationIds
    dsimp only
    split
    · exact ⟨rfl, rfl⟩
    · exact ⟨rfl, addressPool_applicationName _ _ _⟩
  · exact Or.inl ⟨rfl, addressPool_applicationName _ _ _⟩
  · exact Or.inr ⟨rfl, rfl⟩

/-- A run goes through the addresses once. -/
theorem addressesGiven_sublist (pool : NMEA2000ApplicationPool) (inputs : List PoolInput) :
    (addressesGiven (machine.outs pool inputs)).Sublist pool.addressPool := by
  induction inputs generalizing pool with
  | nil => exact List.nil_sublist _
  | cons input inputs ih =>
    have hrest := ih (pool.answer input).2
    change (addressesGiven ((pool.answer input).1 ::
      machine.outs (pool.answer input).2 inputs)).Sublist pool.addressPool
    rcases answer_address pool input with ⟨hnone, hsame⟩ | ⟨hsome, hleft⟩
    · rw [hsame] at hrest
      rw [addressesGiven, List.filterMap_cons_none hnone]
      exact hrest
    · rw [hleft] at hrest
      rw [addressesGiven, List.filterMap_cons_some hsome]
      by_cases h254 : (takeAddress input.known pool.addressPool).1 = 254
      · rw [List.filter_cons_of_neg (by simpa using h254)]
        exact hrest.trans (takeAddress_rest_sublist _ _)
      · rw [List.filter_cons_of_pos (by simpa using h254)]
        exact (hrest.cons_cons _).trans (takeAddress_sublist _ _ h254)

/-! ## 2. NAMEs -/

/-- What `application_name` does: a NAME takes the next number of the counter. -/
theorem applicationName_cases (pool : NMEA2000ApplicationPool) (deviceClass deviceFunction : Nat) :
    pool.applicationName deviceClass deviceFunction = (none, pool) ∨
      ∃ name, pool.applicationName deviceClass deviceFunction
          = (some name, { pool with applicationCount := pool.applicationCount + 1 }) ∧
        name.value % 2 ^ 21 = (pool.uniqueIdRoot ||| pool.applicationCount) % 2 ^ 21 ∧
        pool.applicationCount < pool.maxApplication := by
  unfold applicationName
  split
  · rename_i kwargs hkwargs
    obtain ⟨hidentity, hlt⟩ := NMEA2KActiveController.applicationName_identity hkwargs
    refine Or.inr ⟨_, rfl, ?_, hlt⟩
    have hname : (MutableName.init kwargs).valueDict.HasIdentity
        (pool.uniqueIdRoot ||| pool.applicationCount) :=
      ⟨(MutableName.lookup_init kwargs (by decide)).trans hidentity.identity,
        (MutableName.lookup_init kwargs (by decide)).trans hidentity.noValue⟩
    exact hname.intValue_mod
  · exact Or.inl rfl

/-- The pool before and after a call, but for the list of addresses. -/
inductive Issues (pool : NMEA2000ApplicationPool) : Option MutableName → NMEA2000ApplicationPool → Prop
  | none (rest : List Nat) : Issues pool none { pool with addressPool := rest }
  | name (rest : List Nat) (name : MutableName)
      (identity : name.value % 2 ^ 21 = (pool.uniqueIdRoot ||| pool.applicationCount) % 2 ^ 21)
      (room : pool.applicationCount < pool.maxApplication) :
      Issues pool (some name)
        { pool with addressPool := rest, applicationCount := pool.applicationCount + 1 }

theorem issues_applicationName (pool : NMEA2000ApplicationPool) (rest : List Nat)
    (deviceClass deviceFunction : Nat) :
    pool.Issues ({ pool with addressPool := rest }.applicationName deviceClass deviceFunction).1
      ({ pool with addressPool := rest }.applicationName deviceClass deviceFunction).2 := by
  rcases applicationName_cases { pool with addressPool := rest } deviceClass deviceFunction with
    hnone | ⟨name, hsome, hidentity, hroom⟩
  · rw [hnone]
    exact Issues.none rest
  · rw [hsome]
    exact Issues.name rest name hidentity hroom

/-- A call issues a NAME or none. -/
theorem issues_answer (pool : NMEA2000ApplicationPool) (input : PoolInput) :
    pool.Issues (pool.answer input).1.name (pool.answer input).2 := by
  unfold answer
  split
  · unfold applicationIds
    dsimp only
    split
    · exact Issues.none _
    · exact issues_applicationName pool _ _ _
  · exact issues_applicationName pool pool.addressPool _ _
  · exact Issues.none _

/-- A call that raises issues no NAME. -/
theorem answer_indexError {pool : NMEA2000ApplicationPool} {input : PoolInput}
    (h : (pool.answer input).1.indexError = true) : (pool.answer input).1.name = none := by
  unfold answer at h ⊢
  split at h
  · unfold applicationIds at h ⊢
    dsimp only at h ⊢
    split at h
    · rename_i h254
      rw [if_pos h254]
    · rename_i h254
      rw [if_neg h254]
      exact Option.isNone_iff_eq_none.mp h
  · exact Option.isNone_iff_eq_none.mp h
  · cases h

/-- The NAMEs of a run take numbers from the counter on, each another one. -/
theorem namesIssued_numbers (pool : NMEA2000ApplicationPool) (inputs : List PoolInput) :
    ∃ numbers : List Nat, numbers.Pairwise (· < ·) ∧
      (∀ i ∈ numbers, pool.applicationCount ≤ i ∧ i < pool.maxApplication) ∧
      (namesIssued (machine.outs pool inputs)).map (fun name => name.value % 2 ^ 21)
        = numbers.map (fun i => (pool.uniqueIdRoot ||| i) % 2 ^ 21) := by
  induction inputs generalizing pool with
  | nil => exact ⟨[], List.Pairwise.nil, fun i hi => absurd hi List.not_mem_nil, rfl⟩
  | cons input inputs ih =>
    have hissues := issues_answer pool input
    change ∃ numbers : List Nat, numbers.Pairwise (· < ·) ∧
      (∀ i ∈ numbers, pool.applicationCount ≤ i ∧ i < pool.maxApplication) ∧
      (namesIssued ((pool.answer input).1 :: machine.outs (pool.answer input).2 inputs)).map
        (fun name => name.value % 2 ^ 21) = numbers.map (fun i => (pool.uniqueIdRoot ||| i) % 2 ^ 21)
    obtain ⟨numbers, hlt, hrange, hmap⟩ := ih (pool.answer input).2
    generalize hname : (pool.answer input).1.name = name at hissues
    generalize (pool.answer input).2 = next at hissues hrange hmap ⊢
    cases hissues with
    | none rest =>
      refine ⟨numbers, hlt, hrange, ?_⟩
      rw [namesIssued, List.filterMap_cons_none hname]
      exact hmap
    | name rest name hidentity hroom =>
      refine ⟨pool.applicationCount :: numbers, List.pairwise_cons.mpr ⟨?_, hlt⟩, ?_, ?_⟩
      · intro i hi
        exact (hrange i hi).1
      · refine List.forall_mem_cons.mpr ⟨⟨Nat.le_refl _, hroom⟩, ?_⟩
        intro i hi
        exact ⟨Nat.le_of_succ_le (hrange i hi).1, (hrange i hi).2⟩
      · rw [namesIssued, List.filterMap_cons_some hname, List.map_cons, List.map_cons, hidentity]
        exact congrArg _ hmap

theorem nodup_of_pairwise_lt {numbers : List Nat} (h : numbers.Pairwise (· < ·)) : numbers.Nodup :=
  h.imp Nat.ne_of_lt

/-- The values of the NAMEs of a run are different. -/
theorem namesIssued_nodup {pool : NMEA2000ApplicationPool} (inputs : List PoolInput)
    (hroot : 2 ^ (pool.maxApplication - 1).size ∣ pool.uniqueIdRoot)
    (hmax : pool.maxApplication ≤ 127) :
    ((namesIssued (machine.outs pool inputs)).map MutableName.value).Nodup := by
  obtain ⟨numbers, hlt, hrange, hmap⟩ := namesIssued_numbers pool inputs
  refine List.Nodup.of_map (fun value => value % 2 ^ 21) ?_
  rw [List.map_map]
  change ((namesIssued (machine.outs pool inputs)).map (fun name => name.value % 2 ^ 21)).Nodup
  rw [hmap]
  refine (nodup_of_pairwise_lt hlt).map_on ?_
  intro i hi j hj hsame
  exact Tables.WellFormed.identity_injective hroot hmax (hrange i hi).2 (hrange j hj).2 hsame

/-! ## 3. Runs of a new pool -/

/-- The list only gets shorter. -/
theorem sublist_answer (pool : NMEA2000ApplicationPool) (input : PoolInput) :
    (pool.answer input).2.addressPool.Sublist pool.addressPool := by
  rcases answer_address pool input with ⟨-, hsame⟩ | ⟨-, hleft⟩
  · rw [hsame]
  · rw [hleft]
    exact takeAddress_rest_sublist _ _

theorem sublist_of_mem_trace {pool : NMEA2000ApplicationPool} {inputs : List PoolInput}
    {mv : Move NMEA2000ApplicationPool PoolInput PoolAnswer} (h : mv ∈ machine.trace pool inputs) :
    mv.pre.addressPool.Sublist pool.addressPool :=
  (machine.trace_invariant (fun s => s.addressPool.Sublist pool.addressPool) (fun _ _ => True)
    (fun s input hs _ => (sublist_answer s input).trans hs) (List.Sublist.refl _) inputs
    (fun _ _ => trivial) mv h).1

/-- An address that a call gives is one of the list that the controller does not
know. -/
theorem answer_given {pool : NMEA2000ApplicationPool} {input : PoolInput} {a : Nat}
    (h : (pool.answer input).1.address = some a) (ha : a ≠ 254) :
    a ∈ pool.addressPool ∧ input.known a = false := by
  rcases answer_address pool input with ⟨hnone, -⟩ | ⟨hsome, -⟩
  · rw [hnone] at h
    cases h
  · rw [hsome] at h
    cases h
    exact (takeAddress_cases input.known pool.addressPool).2.resolve_left ha

theorem answer_exhausted {pool : NMEA2000ApplicationPool} {input : PoolInput}
    (h254 : 254 ∉ pool.addressPool) (h : (pool.answer input).1.address = some 254) :
    ∀ a ∈ pool.addressPool, input.known a = true := by
  rcases answer_address pool input with ⟨hnone, -⟩ | ⟨hsome, -⟩
  · rw [hnone] at h
    cases h
  · rw [hsome] at h
    exact takeAddress_exhausted h254 (Option.some.inj h)

theorem not_mem_addressPool_init {mfgCode maxApplication macId firstAddress : Nat}
    (h : firstAddress + 2 * maxApplication ≤ 253) :
    254 ∉ (init mfgCode maxApplication macId firstAddress).addressPool := by
  intro hmem
  obtain ⟨-, hlt⟩ := List.mem_range'_1.mp hmem
  omega

/-- **The pool gives out unique identities**: in every run of a new pool whose
addresses lie below 254, whatever the controller knows at each call, no address
is given twice or while it is known, 254 is answered when all that is left of the
list is known, the NAMEs are different, and a call that raises issues none. -/
theorem unique_identities (mfgCode maxApplication macId firstAddress : Nat)
    (h : firstAddress + 2 * maxApplication ≤ 253) (inputs : List PoolInput) :
    (addressesGiven (machine.outs (init mfgCode maxApplication macId firstAddress) inputs)).Nodup ∧
      ((namesIssued (machine.outs (init mfgCode maxApplication macId firstAddress) inputs)).map
        MutableName.value).Nodup ∧
      ∀ mv ∈ machine.trace (init mfgCode maxApplication macId firstAddress) inputs,
        (∀ a, mv.output.address = some a → a ≠ 254 →
          a ∈ mv.pre.addressPool ∧ mv.input.known a = false) ∧
        (mv.output.address = some 254 → ∀ a ∈ mv.pre.addressPool, mv.input.known a = true) ∧
        (mv.output.indexError = true → mv.output.name = none) := by
  refine ⟨?_, ?_, ?_⟩
  · exact (addressesGiven_sublist _ inputs).nodup (List.nodup_range' ..)
  · refine namesIssued_nodup inputs ?_ ?_
    · change 2 ^ (maxApplication - 1).size ∣ macId <<< (maxApplication - 1).size
      rw [Nat.shiftLeft_eq]
      exact Nat.dvd_mul_left _ _
    · change maxApplication ≤ 127
      omega
  · intro mv hmv
    have hstep := Machine.step_of_mem_trace machine hmv
    have hanswer : mv.output = (mv.pre.answer mv.input).1 := (congrArg Prod.fst hstep).symm
    have h254 : 254 ∉ mv.pre.addressPool :=
      fun hmem => not_mem_addressPool_init h ((sublist_of_mem_trace hmv).subset hmem)
    rw [hanswer]
    exact ⟨fun a => answer_given, answer_exhausted h254, answer_indexError⟩

/-- The pool of the defaults, where an address is taken from outside. -/
theorem unique_identities_default :
    128 + 2 * 8 ≤ 253 ∧
      (addressesGiven (machine.outs (init 999 8 0x1234 128)
        [⟨.applicationIds 25 130, fun a => a = 128⟩, ⟨.getNewAddress, fun a => a = 129⟩,
          ⟨.applicationName 25 130, fun _ => false⟩])).Nodup :=
  ⟨by decide, (unique_identities 999 8 0x1234 128 (by decide) _).1⟩

end NMEA2000ApplicationPool

end NavigationServer.CanInterface
