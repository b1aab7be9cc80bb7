/-
NavigationServer.NmeaData.StatisticsTheorems — the entries and their sources.

`keepsSourcesApart_iff`: the entries count the sources one by one in exactly the
histories in which every message is accepted and no two messages of different
sources collide. A collision is one source address being the other one times a
power of two, with the difference of the PGNs and codes as its exponent; the
address 0 collides with itself whatever the PGN is.
-/
import NavigationServer.Lib.Lists
import NavigationServer.NmeaData.Statistics
import NavigationServer.Nmea2000Datamodel.PgnDefinitionTheorems

namespace NavigationServer.NmeaData

open NavigationServer.Lib
open NavigationServer.Nmea2000Datamodel
open NavigationServer.RouterCore

/-! ## 1. Sources -/

/-- The manufacturer code of a message of a proprietary PGN, and 0 for another
one. -/
def manufacturer (msg : NMEA2000Msg) : Except Exn Nat := do
  if ← isPgnProprietary msg.pgn then msg.getManufacturer else return 0

/-- The PGN, the source address and the manufacturer code. -/
def identity (msg : NMEA2000Msg) : Except Exn (Nat × Nat × Nat) :=
  (manufacturer msg).map fun manufacturer => (msg.pgn, msg.sa, manufacturer)

/-- The PGN is one, and a proprietary message carries a manufacturer code. -/
def Readable (msg : NMEA2000Msg) : Prop :=
  msg.pgn ≤ 0x1FFFF ∧ (isPgnProprietary msg.pgn = .ok true → 2 ≤ msg.payload.length)

/-- What the source address is shifted by. -/
def shift (pgn manufacturer : Nat) : Nat :=
  if isPgnProprietary pgn = .ok true then 40 + pgn + manufacturer else 18 + pgn

/-- One source address is the other one, shifted by what lies between the two. -/
def Collide : Nat × Nat × Nat → Nat × Nat × Nat → Prop
  | (pgn, sa, mfg), (pgn', sa', mfg') =>
      (shift pgn mfg ≤ shift pgn' mfg' ∧ sa = sa' * 2 ^ (shift pgn' mfg' - shift pgn mfg)) ∨
        (shift pgn' mfg' ≤ shift pgn mfg ∧ sa' = sa * 2 ^ (shift pgn mfg - shift pgn' mfg'))

instance (i i' : Nat × Nat × Nat) : Decidable (Collide i i') := by
  unfold Collide
  infer_instance

namespace N2KStatistics

/-- The entry that a message is counted in. -/
def keyOf (msg : NMEA2000Msg) : Except Exn Nat := (manufacturerAndKey msg).map Prod.snd

/-- **What the statistics of a history should be.** Every message is counted, two
messages in one entry are of one source, and the counts are those of the
sources. -/
structure KeepsSourcesApart (msgs : List NMEA2000Msg) : Prop where
  counted : ∀ move ∈ statistics.trace new msgs, move.output = .ok ()
  apart : ∀ msg ∈ msgs, ∀ msg' ∈ msgs, keyOf msg = keyOf msg' ↔ identity msg = identity msg'
  count : ∀ entry ∈ (statistics.final new msgs).entries.entries,
    entry.2.count
      = msgs.countP (fun msg => identity msg = .ok (entry.2.pgn, entry.2.sa, entry.2.mfg))
  total : ((statistics.final new msgs).entries.entries.map (fun entry => entry.2.count)).sum
    = msgs.length

/-! ## 2. The key -/

/-- Two shifted numbers. -/
theorem shiftLeft_eq_shiftLeft_iff {a b s t : Nat} :
    a <<< s = b <<< t
      ↔ (s ≤ t ∧ a = b * 2 ^ (t - s)) ∨ (t ≤ s ∧ b = a * 2 ^ (s - t)) := by
  have hle : ∀ {a b s t : Nat}, s ≤ t → (a <<< s = b <<< t ↔ a = b * 2 ^ (t - s)) := by
    intro a b s t h
    have hpow : 2 ^ t = 2 ^ (t - s) * 2 ^ s := by rw [← pow_add, Nat.sub_add_cancel h]
    rw [Nat.shiftLeft_eq, Nat.shiftLeft_eq, hpow, ← Nat.mul_assoc]
    exact Nat.mul_left_inj (Nat.two_pow_pos s).ne'
  rcases Nat.lt_trichotomy s t with h | rfl | h
  · rw [hle (Nat.le_of_lt h)]
    simp [Nat.le_of_lt h, Nat.not_le.mpr h]
  · rw [hle (Nat.le_refl s)]
    simp [eq_comm]
  · rw [eq_comm, hle (Nat.le_of_lt h)]
    simp [Nat.le_of_lt h, Nat.not_le.mpr h]

theorem findRange_isOk_iff (pgn : Nat) : (∃ r, findRange pgn = .ok r) ↔ pgn ≤ 0x1FFFF := by
  refine ⟨fun ⟨r, hr⟩ => le_of_findRange hr, fun h => ?_⟩
  have hfound : ∀ {ranges : List PGNRange}, (∃ r ∈ ranges, pgn ≤ r.upTo) →
      ∃ r, ranges.find? (fun r => pgn ≤ r.upTo) = some r := by
    rintro ranges ⟨r, hr, hle⟩
    refine Option.isSome_iff_exists.mp (List.find?_isSome.mpr ⟨r, hr, ?_⟩)
    exact decide_eq_true hle
  have hranges : ∃ r ∈ if pgn ≤ lastSingleFrame then pgnRange.take 5 else pgnRange.drop 5,
      pgn ≤ r.upTo := by
    split
    · rename_i hsingle
      exact ⟨pgnRange.get ⟨4, by decide⟩, by decide, hsingle⟩
    · exact ⟨pgnRange.get ⟨8, by decide⟩, by decide, h⟩
  obtain ⟨r, hr⟩ := hfound hranges
  refine ⟨r, ?_⟩
  rw [findRange]
  simp only [hr]

theorem isPgnProprietary_isOk_iff (pgn : Nat) :
    (∃ b, isPgnProprietary pgn = .ok b) ↔ pgn ≤ 0x1FFFF := by
  rw [← findRange_isOk_iff, isPgnProprietary]
  cases findRange pgn with
  | error e => simp [bind, Except.bind]
  | ok r => simp [bind, Except.bind, pure, Except.pure]

theorem readable_iff (msg : NMEA2000Msg) : Readable msg ↔ ∃ m, manufacturer msg = .ok m := by
  rw [Readable, ← isPgnProprietary_isOk_iff, manufacturer]
  cases isPgnProprietary msg.pgn with
  | error e => simp [bind, Except.bind]
  | ok b =>
    cases b with
    | false => simp [bind, Except.bind, pure, Except.pure]
    | true =>
      simp only [bind, Except.bind, if_true, NMEA2000Msg.getManufacturer]
      split
      · simp
        omega
      · simp
        omega

/-- The key of a message is its source address, shifted. -/
theorem manufacturerAndKey_eq (msg : NMEA2000Msg) :
    manufacturerAndKey msg
      = (manufacturer msg).map fun m => (m, msg.sa <<< shift msg.pgn m) := by
  rw [manufacturerAndKey, manufacturer]
  cases hprop : isPgnProprietary msg.pgn with
  | error e => rfl
  | ok b =>
    cases b with
    | false => simp [bind, Except.bind, pure, Except.pure, Except.map, shift, hprop]
    | true =>
      simp only [bind, Except.bind, if_true]
      cases msg.getManufacturer with
      | error e => rfl
      | ok m =>
        simp only [Except.map, pure, Except.pure, shift, hprop, if_true]
        rw [← Nat.shiftLeft_add]
        congr 3
        omega

/-- The key of a source. -/
def keyOfIdentity : Nat × Nat × Nat → Nat
  | (pgn, sa, mfg) => sa <<< shift pgn mfg

theorem keyOf_eq (msg : NMEA2000Msg) : keyOf msg = (identity msg).map keyOfIdentity := by
  rw [keyOf, manufacturerAndKey_eq, identity]
  cases manufacturer msg <;> rfl

/-- **Two sources have one key exactly when they collide.** -/
theorem keyOfIdentity_eq_iff (i i' : Nat × Nat × Nat) :
    keyOfIdentity i = keyOfIdentity i' ↔ Collide i i' := by
  obtain ⟨pgn, sa, mfg⟩ := i
  obtain ⟨pgn', sa', mfg'⟩ := i'
  exact shiftLeft_eq_shiftLeft_iff

theorem readable_iff_identity (msg : NMEA2000Msg) : Readable msg ↔ ∃ i, identity msg = .ok i := by
  rw [readable_iff, identity]
  cases manufacturer msg with
  | error e => simp [Except.map]
  | ok m => simp [Except.map]

/-! ## 3. The entries along a history -/

/-- Every entry carries the source of one of its messages and their number. -/
structure Tallied (sofar : List NMEA2000Msg) (s : N2KStatistics) : Prop where
  absent : ∀ key, s.entries.lookup key = none → ∀ msg ∈ sofar, keyOf msg ≠ .ok key
  source : ∀ key entry, s.entries.lookup key = some entry →
    ∃ msg ∈ sofar, keyOf msg = .ok key ∧ identity msg = .ok (entry.pgn, entry.sa, entry.mfg)
  count : ∀ key entry, s.entries.lookup key = some entry →
    entry.count = sofar.countP (fun msg => keyOf msg = .ok key)
  total : (s.entries.entries.map (fun entry => entry.2.count)).sum = sofar.length

theorem tallied_new : Tallied [] new where
  absent := by simp
  source := by simp [new]
  count := by simp [new]
  total := rfl

/-- A readable message is counted in the entry of its source's key. -/
theorem step_readable (s : N2KStatistics) {msg : NMEA2000Msg} {m : Nat} (h : manufacturer msg = .ok m) :
    statistics.step s msg = (.ok (), {
      entries := s.entries.insert (keyOfIdentity (msg.pgn, msg.sa, m))
        ((s.entries.lookup (keyOfIdentity (msg.pgn, msg.sa, m))).getD ⟨msg.pgn, msg.sa, m, 0⟩).addCount
      totalMsg := s.totalMsg + 1 }) := by
  simp only [statistics, addEntry, manufacturerAndKey_eq, h, Except.map, bind, Except.bind, pure,
    Except.pure, keyOfIdentity]

theorem counted_iff (s : N2KStatistics) (msg : NMEA2000Msg) :
    (statistics.step s msg).1 = .ok () ↔ Readable msg := by
  rw [readable_iff]
  cases h : manufacturer msg with
  | error e => simp [statistics, addEntry, manufacturerAndKey_eq, h, Except.map, bind, Except.bind]
  | ok m => simp [step_readable s h]

theorem Tallied.step {sofar : List NMEA2000Msg} {s : N2KStatistics} (h : Tallied sofar s)
    {msg : NMEA2000Msg} (hmsg : Readable msg) :
    Tallied (sofar ++ [msg]) (statistics.step s msg).2 := by
  obtain ⟨m, hm⟩ := (readable_iff msg).mp hmsg
  have hidentity : identity msg = .ok (msg.pgn, msg.sa, m) := by rw [identity, hm]; rfl
  have hkey : keyOf msg = .ok (keyOfIdentity (msg.pgn, msg.sa, m)) := by
    rw [keyOf_eq, hidentity]
    rfl
  rw [step_readable s hm]
  generalize keyOfIdentity (msg.pgn, msg.sa, m) = key at hkey ⊢
  -- what the entry of the message was before
  have hother : ∀ {key'}, key' ≠ key → ¬ keyOf msg = .ok key' := by
    intro key' hne heq
    exact hne (Except.ok.inj (heq.symm.trans hkey))
  constructor
  case absent =>
    intro key' hlookup msg' hmem
    rcases eq_or_ne key' key with rfl | hne
    · simp at hlookup
    · rw [AList.lookup_insert_ne hne] at hlookup
      rcases List.mem_append.mp hmem with hmem | hmem
      · exact h.absent key' hlookup msg' hmem
      · exact List.mem_singleton.mp hmem ▸ hother hne
  case source =>
    intro key' entry hlookup
    rcases eq_or_ne key' key with rfl | hne
    · rw [AList.lookup_insert] at hlookup
      obtain rfl := Option.some.inj hlookup
      cases hold : s.entries.lookup key' with
      | none => exact ⟨msg, by simp, hkey, hidentity⟩
      | some old =>
        obtain ⟨msg', hmem, hkey', hsource⟩ := h.source key' old hold
        exact ⟨msg', List.mem_append_left _ hmem, hkey', hsource⟩
    · rw [AList.lookup_insert_ne hne] at hlookup
      obtain ⟨msg', hmem, hsource⟩ := h.source key' entry hlookup
      exact ⟨msg', List.mem_append_left _ hmem, hsource⟩
  case count =>
    intro key' entry hlookup
    rw [List.countP_append, List.countP_singleton]
    rcases eq_or_ne key' key with rfl | hne
    · rw [AList.lookup_insert] at hlookup
      obtain rfl := Option.some.inj hlookup
      rw [if_pos (by simpa using hkey)]
      cases hold : s.entries.lookup key' with
      | none =>
        have hnone : sofar.countP (fun msg => keyOf msg = .ok key') = 0 :=
          List.countP_eq_zero.mpr fun msg' hmem => by simpa using h.absent key' hold msg' hmem
        rw [hnone]
        rfl
      | some old =>
        rw [← h.count key' old hold]
        rfl
    · rw [AList.lookup_insert_ne hne] at hlookup
      rw [if_neg (by simpa using hother hne)]
      exact h.count key' entry hlookup
  case total =>
    have hsum := sum_insert s.entries N2KStatEntry.count key
      ((s.entries.lookup key).getD ⟨msg.pgn, msg.sa, m, 0⟩).addCount
    rw [h.total] at hsum
    rw [List.length_append, List.length_singleton]
    cases hold : s.entries.lookup key with
    | none =>
      rw [hold] at hsum
      simpa [N2KStatEntry.addCount] using hsum
    | some old =>
      rw [hold] at hsum
      simp only [Option.map_some, Option.getD_some, N2KStatEntry.addCount] at hsum ⊢
      omega

theorem counted_trace_iff (s : N2KStatistics) (msgs : List NMEA2000Msg) :
    (∀ move ∈ statistics.trace s msgs, move.output = .ok ()) ↔ ∀ msg ∈ msgs, Readable msg := by
  induction msgs generalizing s with
  | nil => simp
  | cons msg msgs ih =>
    simp only [Machine.trace_cons, List.forall_mem_cons, counted_iff, ih]

theorem tallied_final {msgs : List NMEA2000Msg} (h : ∀ msg ∈ msgs, Readable msg) :
    Tallied msgs (statistics.final new msgs) := by
  refine statistics.final_inputs_invariant Tallied (fun _ msg => Readable msg) tallied_new
    (fun _ _ htallied hmsg => htallied.step hmsg) msgs ?_
  intro move hmove
  exact h _ (statistics.input_mem_of_mem_trace hmove)

/-! ## 4. The sources in their entries -/

/-- **The entries count the sources one by one exactly when every message is
readable and no two different sources collide.** -/
theorem keepsSourcesApart_iff (msgs : List NMEA2000Msg) :
    KeepsSourcesApart msgs ↔
      (∀ msg ∈ msgs, Readable msg) ∧
        ∀ msg ∈ msgs, ∀ msg' ∈ msgs, ∀ i i', identity msg = .ok i → identity msg' = .ok i' →
          i ≠ i' → ¬ Collide i i' := by
  constructor
  · intro h
    refine ⟨(counted_trace_iff new msgs).mp h.counted, ?_⟩
    intro msg hmsg msg' hmsg' i i' hi hi' hne hcollide
    have hkeys : keyOf msg = keyOf msg' := by
      rw [keyOf_eq, keyOf_eq, hi, hi']
      exact congrArg Except.ok ((keyOfIdentity_eq_iff i i').mpr hcollide)
    have heq := (h.apart msg hmsg msg' hmsg').mp hkeys
    rw [hi, hi'] at heq
    exact hne (Except.ok.inj heq)
  · rintro ⟨hreadable, hdistinct⟩
    have htallied := tallied_final hreadable
    have hapart : ∀ msg ∈ msgs, ∀ msg' ∈ msgs,
        keyOf msg = keyOf msg' ↔ identity msg = identity msg' := by
      intro msg hmsg msg' hmsg'
      obtain ⟨i, hi⟩ := (readable_iff_identity msg).mp (hreadable msg hmsg)
      obtain ⟨i', hi'⟩ := (readable_iff_identity msg').mp (hreadable msg' hmsg')
      rw [keyOf_eq, keyOf_eq, hi, hi']
      constructor
      · intro hkeys
        have hcollide := (keyOfIdentity_eq_iff i i').mp (Except.ok.inj hkeys)
        by_contra hne
        exact hdistinct msg hmsg msg' hmsg' i i' hi hi' (fun heq => hne (congrArg _ heq)) hcollide
      · intro heq
        rw [heq]
    refine ⟨(counted_trace_iff new msgs).mpr hreadable, hapart, ?_, htallied.total⟩
    intro entry hentry
    have hlookup := AList.mem_lookup_iff.mpr hentry
    obtain ⟨msg, hmsg, hkey, hidentity⟩ := htallied.source entry.1 entry.2 hlookup
    rw [htallied.count entry.1 entry.2 hlookup]
    refine List.countP_congr fun msg' hmsg' => ?_
    simp only [decide_eq_true_eq]
    rw [← hkey, ← hidentity]
    exact hapart msg' hmsg' msg hmsg

/-- A PGN from the address 1 and the one before it from the address 2. -/
theorem not_keepsSourcesApart_neighbours :
    ¬ KeepsSourcesApart [.of 129026 2 1 255 [], .of 129025 2 2 255 []] := by
  intro h
  have hkeys : keyOf (.of 129026 2 1 255 []) = keyOf (.of 129025 2 2 255 []) := by decide +kernel
  have hsources := (h.apart _ (by simp) _ (by simp)).mp hkeys
  exact absurd hsources (by decide +kernel)

end N2KStatistics

end NavigationServer.NmeaData
