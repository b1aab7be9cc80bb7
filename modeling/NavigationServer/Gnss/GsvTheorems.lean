/-
NavigationServer.Gnss.GsvTheorems — the satellites of the GNSS service against
the cycles of GSV sentences.

The dictionary of a constellation is never cleared, and a collection is over as
soon as each number was seen, of whichever cycle. `Gathered` is what holds of the
dictionary while the sentences of one cycle come in: the numbers seen are in it,
and what is in it is a satellite of the cycle. At the end it is the list of the
cycle (`Gathered.perm`). `Orderly` is what a step needs for that: no sentence of
another cycle in an open collection, and no satellite left behind that the new
cycle does not have.

The run lemma carries `Watched`: for each system, the cycle that opened its collection,
with the sentences heard of it. A sentence is read in an open collection
(`processGSV_next`), opens one (`processGSV_first`), or is passed over
(`processGSV_misaligned`); a sentence of another kind leaves all collections alone
(`same_processNmea0183`).

The angles are converted to radians once more when the message is built, so a list is
reflected only where that changes nothing (`Level`). The floats are those of a field `K`;
the rounding of the products is left out.
-/
import NavigationServer.Gnss.FixTheorems
import NavigationServer.Gnss.SatsInView

namespace NavigationServer.Gnss

open NavigationServer.Lib

variable {K : Type}

/-! ## 1. The dictionary of satellites -/

@[simp] theorem SatellitesInView.svn_bare (sat : SatellitesInView K) : sat.bare.svn = sat.svn := rfl

@[simp] theorem SatellitesInView.bare_bare (sat : SatellitesInView K) : sat.bare.bare = sat.bare := rfl

/-- The status of a satellite is not its number. -/
theorem map_svn_bare (l : List (SatellitesInView K)) :
    (l.map SatellitesInView.bare).map SatellitesInView.svn = l.map SatellitesInView.svn := by
  rw [List.map_map]
  rfl

/-- The numbers in the dictionary: a satellite that is known takes its place, a new one
comes behind. -/
theorem map_svn_storeSatellite (l : List (SatellitesInView K)) (sat : SatellitesInView K) :
    (storeSatellite l sat).map SatellitesInView.svn
      = if sat.svn ∈ l.map SatellitesInView.svn then l.map SatellitesInView.svn
        else l.map SatellitesInView.svn ++ [sat.svn] := by
  unfold storeSatellite
  simp only [List.mem_map]
  split
  · rw [List.map_map]
    apply List.map_congr_left
    intro old _
    rw [Function.comp_apply]
    split
    · rename_i h
      exact h.symm
    · rfl
  · rw [List.map_append, List.map_singleton]

/-- What is in the dictionary behind a satellite: the satellite, and the other ones. -/
theorem mem_bare_storeSatellite {l : List (SatellitesInView K)} {sat x : SatellitesInView K} :
    x ∈ (storeSatellite l sat).map SatellitesInView.bare
      ↔ x = sat.bare ∨ (x ∈ l.map SatellitesInView.bare ∧ x.svn ≠ sat.svn) := by
  unfold storeSatellite
  split
  · rename_i hold
    obtain ⟨old, hold, hsvn⟩ := hold
    simp only [List.map_map, List.mem_map, Function.comp_apply]
    constructor
    · rintro ⟨y, hy, rfl⟩
      split
      · exact .inl rfl
      · rename_i hne
        exact .inr ⟨⟨y, hy, rfl⟩, hne⟩
    · rintro (rfl | ⟨⟨y, hy, rfl⟩, hne⟩)
      · refine ⟨old, hold, ?_⟩
        rw [if_pos hsvn]
        rfl
      · refine ⟨y, hy, ?_⟩
        rw [SatellitesInView.svn_bare] at hne
        rw [if_neg hne]
  · rename_i hnew
    rw [List.map_append, List.mem_append, List.map_singleton, List.mem_singleton]
    constructor
    · rintro (hmem | rfl)
      · obtain ⟨y, hy, rfl⟩ := List.mem_map.mp hmem
        exact .inr ⟨hmem, fun hsvn => hnew ⟨y, hy, hsvn⟩⟩
      · exact .inl rfl
    · rintro (rfl | ⟨hmem, -⟩)
      · exact .inr rfl
      · exact .inl hmem

/-- A dictionary has each number once. -/
theorem nodup_storeSatellite {l : List (SatellitesInView K)} (sat : SatellitesInView K)
    (h : (l.map SatellitesInView.svn).Nodup) :
    ((storeSatellite l sat).map SatellitesInView.svn).Nodup := by
  rw [map_svn_storeSatellite]
  split
  · exact h
  · rename_i hnew
    exact List.nodup_append.mpr ⟨h, List.nodup_singleton _, by
      intro n hn _ hlast heq
      rw [List.mem_singleton.mp hlast] at heq
      exact hnew (heq ▸ hn)⟩

/-- The satellites of a sentence go into the dictionary. -/
def storeAll (l sats : List (SatellitesInView K)) : List (SatellitesInView K) :=
  sats.foldl storeSatellite l

/-- Each number stays once. -/
theorem nodup_storeAll {l : List (SatellitesInView K)} (sats : List (SatellitesInView K))
    (h : (l.map SatellitesInView.svn).Nodup) : ((storeAll l sats).map SatellitesInView.svn).Nodup := by
  induction sats generalizing l with
  | nil => exact h
  | cons sat sats ih => exact ih (nodup_storeSatellite sat h)

/-- What is in the dictionary behind a sentence: its satellites, and those that it does not
list. -/
theorem mem_bare_storeAll {l sats : List (SatellitesInView K)} {x : SatellitesInView K}
    (h : (sats.map SatellitesInView.svn).Nodup) :
    x ∈ (storeAll l sats).map SatellitesInView.bare
      ↔ x ∈ sats.map SatellitesInView.bare ∨
        (x ∈ l.map SatellitesInView.bare ∧ x.svn ∉ sats.map SatellitesInView.svn) := by
  induction sats generalizing l with
  | nil => simp [storeAll]
  | cons sat sats ih =>
    rw [List.map_cons, List.nodup_cons] at h
    have hstep : storeAll l (sat :: sats) = storeAll (storeSatellite l sat) sats := rfl
    rw [hstep, ih h.2, mem_bare_storeSatellite, List.map_cons, List.mem_cons, List.map_cons,
      List.mem_cons]
    constructor
    · rintro (hmem | ⟨rfl | ⟨hmem, hne⟩, hnot⟩)
      · exact .inl (.inr hmem)
      · exact .inl (.inl rfl)
      · exact .inr ⟨hmem, fun h => h.elim hne hnot⟩
    · rintro ((rfl | hmem) | ⟨hmem, hnot⟩)
      · exact .inr ⟨.inl rfl, h.1⟩
      · exact .inl hmem
      · exact .inr ⟨.inr ⟨hmem, fun h => hnot (.inl h)⟩, fun h => hnot (.inr h)⟩

/-! ## 2. The satellites of a cycle come in -/

namespace GsvCycle

/-- A satellite of a cycle is one of a sentence. -/
theorem mem_satellites {c : GsvCycle} {sat : GsvSat} :
    sat ∈ c.satellites ↔ ∃ number < c.parts.length, sat ∈ c.part number := by
  unfold satellites part
  rw [List.mem_flatten]
  constructor
  · rintro ⟨l, hl, hsat⟩
    obtain ⟨number, hlt, rfl⟩ := List.mem_iff_getElem.mp hl
    exact ⟨number, hlt, by simpa [hlt] using hsat⟩
  · rintro ⟨number, hlt, hsat⟩
    exact ⟨c.parts[number], List.getElem_mem hlt, by simpa [hlt] using hsat⟩

/-- The satellites of a sentence, in the order of the cycle. -/
theorem part_sublist {c : GsvCycle} {number : Nat} (h : number < c.parts.length) :
    (c.part number).Sublist c.satellites := by
  have hpart : c.part number = c.parts[number] := by simp [part, h]
  rw [hpart]
  exact List.sublist_flatten_of_mem (List.getElem_mem h)

end GsvCycle

variable [Field K] (float : Bytes → Option K) (pi : K)

/-- The satellites in the dictionary, where `flags` tells which sentences of the
cycle were seen. -/
structure Gathered (c : GsvCycle) (flags : List Bool) (dict : List (SatellitesInView K)) : Prop where
  length : flags.length = c.parts.length
  nodup : (dict.map SatellitesInView.svn).Nodup
  known : ∀ x ∈ dict, x.svn ∈ c.satellites.map GsvSat.svn
  stored : ∀ number, flags[number]? = some true → ∀ sat ∈ c.part number, sat.value float pi ∈ dict

variable {float pi}

/-- The numbers of the satellites that are read. -/
theorem map_svn_value (sats : List GsvSat) :
    (sats.map (GsvSat.value float pi)).map SatellitesInView.svn = sats.map GsvSat.svn := by
  rw [List.map_map]
  rfl

/-- A satellite that is read is not in use yet. -/
theorem map_bare_value (sats : List GsvSat) :
    (sats.map (GsvSat.value float pi)).map SatellitesInView.bare = sats.map (GsvSat.value float pi) := by
  rw [List.map_map]
  rfl

/-- Nothing was seen yet. -/
theorem Gathered.start {c : GsvCycle} {dict : List (SatellitesInView K)}
    (hnodup : (dict.map SatellitesInView.svn).Nodup)
    (hknown : ∀ x ∈ dict, x.svn ∈ c.satellites.map GsvSat.svn) :
    Gathered float pi c (List.replicate c.parts.length false) dict where
  length := List.length_replicate
  nodup := hnodup
  known := hknown
  stored := by
    intro number hnumber
    have hmem := List.mem_of_getElem? hnumber
    exact absurd (List.eq_of_mem_replicate hmem) (by decide)

/-- A sentence of the cycle comes in. -/
theorem Gathered.store {c : GsvCycle} {flags : List Bool} {l : List (SatellitesInView K)}
    (h : Gathered float pi c flags (l.map SatellitesInView.bare)) (hdistinct : c.Distinct)
    {number : Nat} (hnumber : number < c.parts.length) :
    Gathered float pi c (flags.set number true)
      ((storeAll l ((c.part number).map (GsvSat.value float pi))).map SatellitesInView.bare) := by
  have hsub := GsvCycle.part_sublist hnumber
  have hpart : (((c.part number).map (GsvSat.value float pi)).map SatellitesInView.svn).Nodup := by
    rw [map_svn_value]
    exact List.Nodup.sublist (hsub.map _) hdistinct
  refine ⟨by rw [List.length_set, h.length], ?_, ?_, ?_⟩
  · have hnodup := h.nodup
    rw [map_svn_bare] at hnodup ⊢
    exact nodup_storeAll _ hnodup
  · intro x hx
    rw [mem_bare_storeAll hpart, map_bare_value] at hx
    rcases hx with hx | ⟨hx, -⟩
    · obtain ⟨sat, hsat, rfl⟩ := List.mem_map.mp hx
      exact List.mem_map_of_mem (hsub.subset hsat)
    · exact h.known x hx
  -- what an earlier sentence stored is there still, or comes with this one
  · intro j hj sat hsat
    rw [mem_bare_storeAll hpart, map_bare_value, map_svn_value]
    rcases eq_or_ne number j with rfl | hne
    · exact .inl (List.mem_map_of_mem hsat)
    · rw [List.getElem?_set_ne hne] at hj
      by_cases hin : (sat.value float pi).svn ∈ (c.part number).map GsvSat.svn
      · -- a satellite is listed once, so it is the one of this sentence
        obtain ⟨other, hother, hsvn⟩ := List.mem_map.mp hin
        have hjlt : j < c.parts.length := by
          rw [← h.length]
          exact (List.getElem?_eq_some_iff.mp hj).1
        have heq : other = sat := List.inj_on_of_nodup_map hdistinct (hsub.subset hother)
          ((GsvCycle.part_sublist hjlt).subset hsat) hsvn
        rw [heq] at hother
        exact .inl (List.mem_map_of_mem hother)
      · exact .inr ⟨h.stored j hj sat hsat, hin⟩

/-- **Where every sentence was seen, the dictionary is the list of the cycle.** -/
theorem Gathered.perm {c : GsvCycle} {flags : List Bool} {dict : List (SatellitesInView K)}
    (h : Gathered float pi c flags dict) (hdistinct : c.Distinct) (hflags : false ∉ flags) :
    dict.Perm (c.satellites.map (GsvSat.value float pi)) := by
  have hvalues : ((c.satellites.map (GsvSat.value float pi)).map SatellitesInView.svn).Nodup := by
    rw [map_svn_value]
    exact hdistinct
  have hstored : ∀ sat ∈ c.satellites, sat.value float pi ∈ dict := by
    intro sat hsat
    obtain ⟨number, hlt, hsat⟩ := GsvCycle.mem_satellites.mp hsat
    rw [← h.length] at hlt
    refine h.stored number ?_ sat hsat
    have htrue : flags[number] = true := by
      cases hflag : flags[number] with
      | true => rfl
      | false => exact absurd (hflag ▸ List.getElem_mem hlt) hflags
    rw [List.getElem?_eq_getElem hlt, htrue]
  -- both have each number once, so it is enough that they have the same satellites
  rw [List.perm_ext_iff_of_nodup (List.Nodup.of_map _ h.nodup) (List.Nodup.of_map _ hvalues)]
  intro x
  constructor
  · intro hx
    obtain ⟨sat, hsat, hsvn⟩ := List.mem_map.mp (h.known x hx)
    have heq : sat.value float pi = x := List.inj_on_of_nodup_map h.nodup (hstored sat hsat) hx hsvn
    exact heq ▸ List.mem_map_of_mem hsat
  · intro hx
    obtain ⟨sat, hsat, rfl⟩ := List.mem_map.mp hx
    exact hstored sat hsat

/-! ## 3. A sentence is read -/

namespace GsvCycle

variable {c : GsvCycle} {number : Nat}

/-- The fields of a sentence: its place, the satellites, the signal. -/
theorem fields_sentence : (c.sentence number).fields
    = [decimal c.parts.length, decimal (number + 1), c.count]
        ++ ((c.part number).flatMap GsvSat.fields ++ [c.signal]) := rfl

/-- How many sentences the cycle has. -/
theorem total_sentence : (do int10 (← item (c.sentence number).fields 0))
    = .ok (c.parts.length : Int) :=
  int10_eq_ok.mpr (intOfDecimal_decimal _)

/-- Which one this is, counted from 1. -/
theorem number_sentence : (do int10 (← item (c.sentence number).fields 1))
    = .ok ((number : Int) + 1) :=
  int10_eq_ok.mpr (intOfDecimal_decimal _)

/-- How many satellites the cycle says it has. -/
theorem count_sentence {n : Int} (h : intOfDecimal c.count = some n) :
    (do int10 (← item (c.sentence number).fields 2)) = .ok n :=
  int10_eq_ok.mpr h

/-- The number of the first sentence is spelled 1. -/
theorem spelled_one : item (c.sentence number).fields 1 = .ok (decimal (number + 1)) := rfl

/-- No other number is spelled 1. -/
theorem decimal_eq_one_iff : decimal (number + 1) = ascii "1" ↔ number = 0 := by
  constructor
  · intro h
    have hvalue := intOfDecimal_decimal (number + 1)
    have hone := intOfDecimal_decimal 1
    rw [decimal_of_lt (by decide)] at hone
    rw [h] at hvalue
    have heq : some ((number + 1 : Nat) : Int) = some 1 := hvalue.symm.trans hone
    have := Option.some.inj heq
    omega
  · rintro rfl
    exact decimal_of_lt (by decide)

omit [Field K] in
/-- A sentence of a well formed cycle: four satellites at most, whose numbers are read. -/
theorem part_wellFormed (h : c.WellFormed float) (hnumber : number < c.parts.length) :
    (c.part number).length ≤ 4 ∧ ∀ sat ∈ c.part number, (intOfDecimal sat.prn).isSome ∧
      Readable float sat.elevation ∧ Readable float sat.azimuth ∧ Readable float sat.snr := by
  constructor
  · have hpart : c.part number = c.parts[number] := by simp [part, hnumber]
    rw [hpart]
    exact h.short _ (List.getElem_mem hnumber)
  · intro sat hsat
    have hmem := (part_sublist hnumber).subset hsat
    exact ⟨h.prn sat hmem, h.numbers sat hmem⟩

end GsvCycle

namespace Constellation

/-- The satellites of a sentence are stored, and the signal stands behind them. -/
theorem readSatellites_fields {sats : List GsvSat}
    (h : ∀ sat ∈ sats, (intOfDecimal sat.prn).isSome ∧ Readable float sat.elevation ∧
      Readable float sat.azimuth ∧ Readable float sat.snr)
    (signal : Bytes) {count : Nat} (hcount : sats.length ≤ count) (front : List Bytes)
    (const : Constellation K) :
    readSatellites float pi (front ++ (sats.flatMap GsvSat.fields ++ [signal])) count front.length const
      = (.ok (front ++ sats.flatMap GsvSat.fields).length,
          { const with
            satellites := storeAll const.satellites (sats.map (GsvSat.value float pi)) }) := by
  induction sats generalizing front const count with
  | nil =>
    cases count with
    | zero => simp [readSatellites, storeAll]
    | succ count => simp [readSatellites, storeAll]
  | cons sat sats ih =>
    obtain ⟨count, rfl⟩ : ∃ n, count = n + 1 :=
      ⟨count - 1, by rw [List.length_cons] at hcount; omega⟩
    rw [List.length_cons] at hcount
    have hfields : front ++ ((sat :: sats).flatMap GsvSat.fields ++ [signal])
        = front ++ (sat.fields ++ (sats.flatMap GsvSat.fields ++ [signal])) := by
      rw [List.flatMap_cons, List.append_assoc]
    have hsat := h sat List.mem_cons_self
    have hlength : (front ++ sat.fields).length = front.length + 4 := by
      rw [List.length_append]
      rfl
    rw [hfields, readSatellites, if_neg (by simp [GsvSat.fields]),
      readSatellite_fields float pi hsat.1 hsat.2]
    have hrest := ih (fun s hs => h s (List.mem_cons_of_mem sat hs)) (Nat.le_of_succ_le_succ hcount)
      (front ++ sat.fields)
      { const with satellites := storeSatellite const.satellites (sat.value float pi) }
    rw [hlength, List.append_assoc, List.append_assoc] at hrest
    simp only [hrest]
    rw [List.flatMap_cons]
    rfl

/-- A collection begins. -/
def started (const : Constellation K) (c : GsvCycle) (count : Int) : Constellation K :=
  { const with
    nbSatellites := count
    gsvNbSeq := c.parts.length
    gsvInProgress := true
    gsvSeqRecv := List.replicate c.parts.length false }

/-- A collection behind one of its sentences. -/
def behind (float : Bytes → Option K) (pi : K) (const : Constellation K) (c : GsvCycle) (number : Nat) :
    Constellation K :=
  { const with
    gsvSeqRecv := const.gsvSeqRecv.set number true
    satellites := storeAll const.satellites ((c.part number).map (GsvSat.value float pi))
    signalId := c.signal }

variable {c : GsvCycle} {number : Nat} {const : Constellation K}

/-- **What a sentence does to an open collection**: its flag is set, its satellites are
stored, and the collection is over where no flag is missing. -/
theorem readGSV_sentence (h : c.WellFormed float) (hnumber : number < c.parts.length)
    (hflags : const.gsvSeqRecv.length = c.parts.length) :
    const.readGSV float pi (c.sentence number).fields
      = if false ∈ const.gsvSeqRecv.set number true then
          (.ok false, const.behind float pi c number)
        else (.ok true, { const.behind float pi c number with gsvInProgress := false }) := by
  obtain ⟨hshort, hreadable⟩ := GsvCycle.part_wellFormed h hnumber
  have hset : setItem const.gsvSeqRecv ((number : Int) + 1 - 1) true
      = some (const.gsvSeqRecv.set number true) := by
    rw [Int.add_sub_cancel]
    exact setItem_natCast _ (by omega) true
  have hsats : readSatellites float pi _ _ _ _ = _ := readSatellites_fields hreadable c.signal hshort
    [decimal c.parts.length, decimal (number + 1), c.count]
    { const with gsvSeqRecv := const.gsvSeqRecv.set number true }
  have hsignal : item (c.sentence number).fields
      ([decimal c.parts.length, decimal (number + 1), c.count]
        ++ (c.part number).flatMap GsvSat.fields).length = .ok c.signal := by
    rw [GsvCycle.fields_sentence, ← List.append_assoc]
    exact item_append _ _ _
  unfold readGSV
  rw [GsvCycle.number_sentence]
  simp only [hset]
  rw [GsvCycle.fields_sentence] at hsignal ⊢
  simp only [List.length_cons, List.length_nil] at hsats
  rw [hsats]
  simp only [hsignal]
  rfl

/-- Where no collection is open the first sentence opens one. -/
theorem processGSV_first (hidle : const.gsvInProgress = false) {count : Int}
    (hcount : intOfDecimal c.count = some count) :
    const.processGSV float pi (c.sentence 0).fields
      = (const.started c count).readGSV float pi (c.sentence 0).fields := by
  have hone : decimal (0 + 1) = ascii "1" := GsvCycle.decimal_eq_one_iff.mpr rfl
  have hstart : const.startGSV (c.sentence 0).fields = (.ok true, const.started c count) := by
    unfold startGSV
    rw [hidle, GsvCycle.spelled_one, hone, GsvCycle.total_sentence, GsvCycle.count_sentence hcount]
    simp [started]
  unfold processGSV
  rw [hstart]

/-- Another sentence is passed over there. -/
theorem processGSV_misaligned (hidle : const.gsvInProgress = false) (hnumber : number ≠ 0) :
    const.processGSV float pi (c.sentence number).fields = (.ok false, const) := by
  have hne : decimal (number + 1) ≠ ascii "1" := fun h =>
    hnumber (GsvCycle.decimal_eq_one_iff.mp h)
  have hstart : const.startGSV (c.sentence number).fields = (.ok false, const) := by
    unfold startGSV
    rw [hidle, GsvCycle.spelled_one]
    simp [hne]
  unfold processGSV
  rw [hstart]

/-- In an open collection it is read. -/
theorem processGSV_next (hopen : const.gsvInProgress = true) :
    const.processGSV float pi (c.sentence number).fields
      = const.readGSV float pi (c.sentence number).fields := by
  have hstart : const.startGSV (c.sentence number).fields = (.ok true, const) := by
    unfold startGSV
    rw [if_pos hopen]
  unfold processGSV
  rw [hstart]

end Constellation

/-! ## 4. What a step does to the collections -/

/-- What of a constellation a GSV sentence reads. -/
structure Collection (K : Type*) where
  inProgress : Bool
  seqRecv : List Bool
  nbSatellites : Int
  satellites : List (SatellitesInView K)

/-- What of it a sentence reads. -/
def Constellation.collection (const : Constellation K) : Collection K where
  inProgress := const.gsvInProgress
  seqRecv := const.gsvSeqRecv
  nbSatellites := const.nbSatellites
  satellites := const.satellites.map SatellitesInView.bare

namespace GNSSDataManager

/-- The collection of a system, which is empty where it is not known yet. -/
def collectionOf (m : GNSSDataManager K) (systemId : Nat) : Collection K :=
  ((m.constellations systemId).map Constellation.collection).getD ⟨false, [], 0, []⟩

/-- A constellation is found under its own system. -/
def Keyed (m : GNSSDataManager K) : Prop :=
  ∀ systemId const, m.constellations systemId = some const → const.gnss.systemId = systemId

omit [Field K] in
/-- A constellation that is not known yet is made with an empty collection. -/
theorem collection_constellationOf (m : GNSSDataManager K) (gnss : GNSSSystem) :
    (m.constellationOf gnss).collection = m.collectionOf gnss.systemId := by
  unfold constellationOf collectionOf
  cases m.constellations gnss.systemId <;> rfl

omit [Field K] in
/-- The constellation of a system has its number. -/
theorem Keyed.constellationOf {m : GNSSDataManager K} (h : m.Keyed) (gnss : GNSSSystem) :
    (m.constellationOf gnss).gnss.systemId = gnss.systemId := by
  unfold GNSSDataManager.constellationOf
  cases hconst : m.constellations gnss.systemId with
  | none => rfl
  | some const => exact h _ _ hconst

omit [Field K] in
/-- A constellation is put under its own number. -/
theorem Keyed.setConstellation {m : GNSSDataManager K} (h : m.Keyed) (const : Constellation K) :
    (m.setConstellation const).Keyed := by
  intro systemId other hother
  unfold GNSSDataManager.setConstellation at hother
  dsimp only at hother
  rcases eq_or_ne systemId const.gnss.systemId with rfl | hne
  · rw [Function.update_self] at hother
    rw [← Option.some.inj hother]
  · rw [Function.update_of_ne hne] at hother
    exact h _ _ hother

omit [Field K] in
/-- One collection changes. -/
theorem collectionOf_setConstellation (m : GNSSDataManager K) (const : Constellation K) :
    (m.setConstellation const).collectionOf
      = Function.update m.collectionOf const.gnss.systemId const.collection := by
  funext systemId
  unfold collectionOf setConstellation
  dsimp only
  rcases eq_or_ne systemId const.gnss.systemId with rfl | hne
  · rw [Function.update_self, Function.update_self]
    rfl
  · rw [Function.update_of_ne hne, Function.update_of_ne hne]

/-- A step that is not about the satellites in view. -/
structure Same (m m' : GNSSDataManager K) : Prop where
  keyed : m.Keyed → m'.Keyed
  collectionOf : m.Keyed → m'.collectionOf = m.collectionOf

omit [Field K] in
/-- A step that leaves the constellations. -/
theorem Same.of_constellations {m m' : GNSSDataManager K} (h : m'.constellations = m.constellations) :
    Same m m' where
  keyed := by
    intro hkeyed
    unfold Keyed
    rw [h]
    exact hkeyed
  collectionOf := by
    intro _
    unfold GNSSDataManager.collectionOf
    rw [h]

omit [Field K] in
/-- One step behind another. -/
theorem Same.trans {m₁ m₂ m₃ : GNSSDataManager K} (h : Same m₁ m₂) (h' : Same m₂ m₃) : Same m₁ m₃ where
  keyed := fun hkeyed => h'.keyed (h.keyed hkeyed)
  collectionOf := fun hkeyed => (h'.collectionOf (h.keyed hkeyed)).trans (h.collectionOf hkeyed)

omit [Field K] in
/-- A constellation that keeps its collection. -/
theorem same_setConstellation {m : GNSSDataManager K} (gnss : GNSSSystem) {const : Constellation K}
    (hgnss : const.gnss = (m.constellationOf gnss).gnss)
    (hcollection : const.collection = (m.constellationOf gnss).collection) :
    Same m (m.setConstellation const) where
  keyed := fun hkeyed => hkeyed.setConstellation const
  collectionOf := by
    intro hkeyed
    have hsystem : const.gnss.systemId = gnss.systemId := by rw [hgnss, hkeyed.constellationOf]
    rw [collectionOf_setConstellation, hsystem, hcollection, collection_constellationOf,
      Function.update_eq_self]

omit [Field K] in
/-- Which satellites are in use is not part of the collection. -/
theorem collection_updateStatus (const : Constellation K) (satsInUse : List Int) :
    (const.updateStatus satsInUse).collection = const.collection := by
  unfold Constellation.updateStatus Constellation.collection
  dsimp only
  rw [List.map_map]
  rfl

omit [Field K] in
/-- The satellites of a fix, and the dilutions. -/
theorem same_activeSatellites (float : Bytes → Option K) (m : GNSSDataManager K) (fields : List Bytes) :
    Same m (m.activeSatellites float fields).2 := by
  have hrefl : Same m m := .of_constellations rfl
  unfold activeSatellites
  split
  · exact hrefl
  · split
    · exact hrefl
    · split
      · exact hrefl
      · rename_i gnss _
        split
        · exact hrefl
        · rename_i sats _
          split
          · exact hrefl
          · have hstore : Same m (m.storeFix gnss sats) := by
              refine Same.trans (.of_constellations ?_) (same_setConstellation gnss ?_ ?_) <;> rfl
            refine hstore.trans ?_
            unfold readDops
            dsimp only
            split
            · exact .of_constellations rfl
            · refine same_setConstellation gnss ?_ (collection_updateStatus _ _)
              rfl

omit [Field K] in
/-- The fix is lost, the satellites stay. -/
theorem constellations_lostFix (m : GNSSDataManager K) : m.lostFix.constellations = m.constellations := by
  unfold lostFix
  split <;> rfl

omit [Field K] in
/-- The fix comes, the satellites stay. -/
theorem constellations_setFix (m : GNSSDataManager K) (now : Time) :
    (m.setFix now).constellations = m.constellations := by
  unfold setFix
  split <;> rfl

variable [DecidableEq K]

variable (float pi) in
/-- A sentence of another kind leaves the collections alone. -/
theorem same_processNmea0183 (forwarder : N2KForwarder) (m : GNSSDataManager K) (now : Time)
    {s : Sentence} (h : s.formatter ≠ "GSV") :
    Same m (m.processNmea0183 float pi forwarder now s).2 := by
  unfold processNmea0183
  split
  · contradiction
  · unfold processGSA
    split
    · exact .of_constellations rfl
    · split
      · exact .of_constellations rfl
      · dsimp only
        split
        · refine Same.trans (.of_constellations ?_) (same_activeSatellites float _ _)
          exact constellations_setFix _ _
        · exact .of_constellations (constellations_lostFix _)
  · unfold processGGA
    split
    · exact .of_constellations rfl
    · split
      · exact .of_constellations rfl
      · split
        · exact .of_constellations (constellations_lostFix _)
        · dsimp only
          split
          · exact .of_constellations (constellations_setFix _ _)
          · rename_i currentTime _
            obtain ⟨sequence, hseq⟩ := (m.setFix now).adjustSequence_eq currentTime
            rw [hseq]
            split <;> exact .of_constellations (constellations_setFix _ _)
  · unfold processRMC
    split
    · exact .of_constellations rfl
    · split
      · exact .of_constellations (constellations_lostFix _)
      · split
        · exact .of_constellations rfl
        · rename_i currentTime _
          obtain ⟨sequence, hseq⟩ := m.adjustSequence_eq currentTime
          rw [hseq]
          exact .of_constellations rfl
  · exact .of_constellations rfl

variable (float pi) in
/-- Nothing comes out of it. -/
theorem processNmea0183_other (forwarder : N2KForwarder) (m : GNSSDataManager K) (now : Time)
    {s : Sentence} (h : s.formatter ≠ "GSV") :
    (m.processNmea0183 float pi forwarder now s).1 = none := by
  unfold processNmea0183
  split
  · contradiction
  all_goals rfl

variable (float pi) in
/-- What comes out of a GSV sentence: nothing where it raises. -/
theorem processNmea0183_gsv (forwarder : N2KForwarder) (m : GNSSDataManager K) (now : Time)
    {s : Sentence} (h : s.formatter = "GSV") :
    m.processNmea0183 float pi forwarder now s
      = ((m.processGSV float pi forwarder s.talker s.fields).1.toOption.join,
          (m.processGSV float pi forwarder s.talker s.fields).2) := by
  unfold processNmea0183
  split
  · cases m.processGSV float pi forwarder s.talker s.fields with
    | mk result m' => cases result <;> rfl
  all_goals simp_all

end GNSSDataManager

/-! ## 5. A collection of one cycle -/

variable (float pi) in
/-- A collection that is open, and the cycle whose sentences come in. -/
structure Collecting (c : GsvCycle) (collection : Collection K) : Prop where
  wellFormed : c.WellFormed float
  plain : c.Plain float
  distinct : c.Distinct
  inProgress : collection.inProgress = true
  count : collection.nbSatellites = c.satellites.length
  gathered : Gathered float pi c collection.seqRecv collection.satellites

/-- A sentence of the cycle comes into the collection. -/
theorem Collecting.behind {c : GsvCycle} {const : Constellation K}
    (h : Collecting float pi c const.collection) {number : Nat} (hnumber : number < c.parts.length) :
    Collecting float pi c (const.behind float pi c number).collection where
  wellFormed := h.wellFormed
  plain := h.plain
  distinct := h.distinct
  inProgress := h.inProgress
  count := h.count
  gathered := h.gathered.store h.distinct hnumber

/-- A collection begins: what is left in the dictionary are satellites of the cycle. -/
theorem Collecting.started {c : GsvCycle} {const : Constellation K} (hwf : c.WellFormed float)
    (hplain : c.Plain float) (hdistinct : c.Distinct)
    (hnodup : (const.collection.satellites.map SatellitesInView.svn).Nodup)
    (hknown : ∀ x ∈ const.collection.satellites, x.svn ∈ c.satellites.map GsvSat.svn) :
    Collecting float pi c (const.started c c.satellites.length).collection where
  wellFormed := hwf
  plain := hplain
  distinct := hdistinct
  inProgress := rfl
  count := rfl
  gathered := .start hnodup hknown

/-- An angle of zero, or none. -/
theorem GsvSat.number_of_level {field : Bytes} (h : field.isEmpty ∨ float field = some 0) :
    (GsvSat.number float field = none) ∨ (GsvSat.number float field = some 0) := by
  unfold GsvSat.number
  rcases h with h | h
  · exact .inl (if_pos h)
  · split
    · exact .inl rfl
    · exact .inr h

/-- Converting a satellite once more changes nothing where its angles are level. -/
theorem GsvSat.value_of_level {sat : GsvSat} (h : sat.Level float) :
    (sat.value float pi).elevation.map (· * degToRadian pi) = (sat.value float pi).elevation ∧
      (sat.value float pi).azimuth.map (· * degToRadian pi) = (sat.value float pi).azimuth := by
  unfold GsvSat.value
  dsimp only
  constructor
  · rcases number_of_level h.1 with hnumber | hnumber <;> simp [hnumber]
  · rcases number_of_level h.2 with hnumber | hnumber <;> simp [hnumber]

/-- What the angles of a list of satellites become in a message. -/
theorem map_bare_of_level {c : GsvCycle} (hplain : c.Plain float) {satellites : List (SatellitesInView K)}
    (h : ∀ x ∈ satellites.map SatellitesInView.bare, x ∈ c.satellites.map (GsvSat.value float pi)) :
    (satellites.map (fun sat =>
        { sat with
          elevation := sat.elevation.map (· * degToRadian pi)
          azimuth := sat.azimuth.map (· * degToRadian pi) })).map SatellitesInView.bare
      = satellites.map SatellitesInView.bare := by
  rw [List.map_map]
  apply List.map_congr_left
  intro x hx
  obtain ⟨sat, hsat, hvalue⟩ := List.mem_map.mp (h x.bare (List.mem_map_of_mem hx))
  have hlevel : (sat.value float pi).elevation.map (· * degToRadian pi)
        = (sat.value float pi).elevation ∧
      (sat.value float pi).azimuth.map (· * degToRadian pi) = (sat.value float pi).azimuth :=
    GsvSat.value_of_level (hplain.level sat hsat)
  obtain ⟨helevation, hazimuth⟩ := hlevel
  rw [hvalue] at helevation hazimuth
  unfold SatellitesInView.bare at helevation hazimuth ⊢
  dsimp only at helevation hazimuth
  rw [Function.comp_apply]
  dsimp only
  rw [helevation, hazimuth]

/-- **A collection that is over gives the list of its cycle.** -/
theorem Collecting.reflected {c : GsvCycle} {const : Constellation K}
    (h : Collecting float pi c const.collection) (hover : false ∉ const.gsvSeqRecv) (sequence : Nat) :
    c.Reflected float pi (const.satsInView pi sequence) := by
  have hperm : (const.satellites.map SatellitesInView.bare).Perm
      (c.satellites.map (GsvSat.value float pi)) := h.gathered.perm h.distinct hover
  have hcount : const.nbSatellites = c.satellites.length := h.count
  unfold GsvCycle.Reflected Constellation.satsInView
  dsimp only
  rw [map_bare_of_level h.plain (fun x hx => hperm.subset hx)]
  refine ⟨?_, hperm⟩
  have hlength := hperm.length_eq
  rw [List.length_map, List.length_map] at hlength
  rw [hcount, List.length_map, hlength]

/-- A sentence of the cycle goes into a collection: it stays open, or it is over
with the list of the cycle. -/
theorem Collecting.readGSV {c : GsvCycle} {const : Constellation K}
    (h : Collecting float pi c const.collection) {number : Nat} (hnumber : number < c.parts.length) :
    ∃ ended const', const.readGSV float pi (c.sentence number).fields = (.ok ended, const') ∧
      const'.gnss = const.gnss ∧
      const'.gsvSeqRecv = const.gsvSeqRecv.set number true ∧
      (const'.collection.satellites.map SatellitesInView.svn).Nodup ∧
      (const'.gsvInProgress = true → Collecting float pi c const'.collection) ∧
      (ended = true → false ∉ const'.gsvSeqRecv ∧
        ∀ sequence, c.Reflected float pi (const'.satsInView pi sequence)) := by
  have hbehind := h.behind hnumber
  rw [Constellation.readGSV_sentence h.wellFormed hnumber h.gathered.length]
  split
  · refine ⟨_, _, rfl, rfl, rfl, hbehind.gathered.nodup, fun _ => hbehind, ?_⟩
    intro hover
    cases hover
  · rename_i hover
    refine ⟨_, _, rfl, rfl, rfl, hbehind.gathered.nodup, ?_, ?_⟩
    · intro hopen
      cases hopen
    · intro _
      exact ⟨hover, fun sequence => hbehind.reflected hover sequence⟩

/-! ## 6. Runs -/

namespace GNSSDataManager

variable (cycles : Nat → GsvCycle)

/-- The cycle that a collection was opened with, for each system. -/
def noteOpener (m : GNSSDataManager K) (opener : Nat → Nat) (i : Time × Heard) : Nat → Nat :=
  match i.2 with
  | .other _ => opener
  | .gsv k _ =>
      match gnssSysDict (cycles k).talker with
      | .error _ => opener
      | .ok gnss =>
          if (m.collectionOf gnss.systemId).inProgress then opener
          else Function.update opener gnss.systemId k

variable (float) in
/-- In an open collection a sentence is one of the cycle that opened it. A cycle
that opens one lists no satellite twice, has each satellite that was left in the
dictionary, and is plain. -/
def Orderly (s : GNSSDataManager K × (Nat → Nat)) (i : Time × Heard) : Prop :=
  match i.2 with
  | .other _ => True
  | .gsv k number =>
      match gnssSysDict (cycles k).talker with
      | .error _ => True
      | .ok gnss =>
          if (s.1.collectionOf gnss.systemId).inProgress then s.2 gnss.systemId = k
          else number = 0 → (cycles k).Plain float ∧ (cycles k).Distinct ∧
            ∀ sat ∈ (s.1.collectionOf gnss.systemId).satellites,
              sat.svn ∈ (cycles k).satellites.map GsvSat.svn

variable (float pi) in
/-- Each open collection has sentences of its cycle only. -/
structure Watched (heard : List Heard) (m : GNSSDataManager K) (opener : Nat → Nat) : Prop where
  keyed : m.Keyed
  nodup : ∀ systemId, ((m.collectionOf systemId).satellites.map SatellitesInView.svn).Nodup
  collecting : ∀ systemId, (m.collectionOf systemId).inProgress = true →
    Collecting float pi (cycles (opener systemId)) (m.collectionOf systemId)
  heard : ∀ systemId, (m.collectionOf systemId).inProgress = true → ∀ number,
    (m.collectionOf systemId).seqRecv[number]? = some true →
      Heard.gsv (opener systemId) number ∈ heard

/-- No constellation is known. -/
theorem watched_new : Watched float pi cycles [] (new : GNSSDataManager K) (fun _ => 0) where
  keyed := by
    intro _ _ h
    cases h
  nodup := fun _ => List.nodup_nil
  collecting := by
    intro _ h
    cases h
  heard := by
    intro _ h
    cases h

variable {cycles}

/-- More was heard. -/
theorem Watched.mono {heard heard' : List Heard} {m : GNSSDataManager K} {opener : Nat → Nat}
    (h : Watched float pi cycles heard m opener) (hsub : heard ⊆ heard') :
    Watched float pi cycles heard' m opener where
  keyed := h.keyed
  nodup := h.nodup
  collecting := h.collecting
  heard := fun systemId hopen number hnumber => hsub (h.heard systemId hopen number hnumber)

/-- A step that is not about the satellites in view. -/
theorem Watched.same {heard : List Heard} {m m' : GNSSDataManager K} {opener : Nat → Nat}
    (h : Watched float pi cycles heard m opener) (hsame : Same m m') :
    Watched float pi cycles heard m' opener := by
  have hcollections := hsame.collectionOf h.keyed
  refine ⟨hsame.keyed h.keyed, ?_, ?_, ?_⟩ <;> rw [hcollections]
  · exact h.nodup
  · exact h.collecting
  · exact h.heard

/-- One constellation changes. -/
theorem Watched.setConstellation {heard : List Heard} {m : GNSSDataManager K} {opener : Nat → Nat}
    (h : Watched float pi cycles heard m opener) {const : Constellation K} {k : Nat}
    (hnodup : (const.collection.satellites.map SatellitesInView.svn).Nodup)
    (hcollecting : const.gsvInProgress = true →
      Collecting float pi (cycles k) const.collection)
    (hheard : const.gsvInProgress = true → ∀ number, const.gsvSeqRecv[number]? = some true →
      Heard.gsv k number ∈ heard) :
    Watched float pi cycles heard (m.setConstellation const)
      (Function.update opener const.gnss.systemId k) := by
  refine ⟨h.keyed.setConstellation const, ?_, ?_, ?_⟩ <;> intro systemId <;>
    rw [collectionOf_setConstellation] <;>
    rcases eq_or_ne systemId const.gnss.systemId with rfl | hne
  · rw [Function.update_self]
    exact hnodup
  · rw [Function.update_of_ne hne]
    exact h.nodup systemId
  · rw [Function.update_self, Function.update_self]
    exact hcollecting
  · rw [Function.update_of_ne hne, Function.update_of_ne hne]
    exact h.collecting systemId
  · rw [Function.update_self, Function.update_self]
    exact hheard
  · rw [Function.update_of_ne hne, Function.update_of_ne hne]
    exact h.heard systemId

section Step

variable {heard : List Heard} {m : GNSSDataManager K} {opener : Nat → Nat} {k number : Nat}
  {gnss : GNSSSystem} (forwarder : N2KForwarder)

/-- A sentence goes into an open collection of its cycle. -/
theorem Watched.read (h : Watched float pi cycles heard m opener)
    (hgnss : gnssSysDict (cycles k).talker = .ok gnss) (hnumber : number < (cycles k).parts.length)
    {const : Constellation K} (hsystem : const.gnss.systemId = gnss.systemId)
    (hcollecting : Collecting float pi (cycles k) const.collection)
    (hheard : ∀ j, const.gsvSeqRecv[j]? = some true → Heard.gsv k j ∈ heard)
    (hprocess : (m.constellationOf gnss).processGSV float pi ((cycles k).sentence number).fields
      = const.readGSV float pi ((cycles k).sentence number).fields) :
    ∃ result m', m.processGSV float pi forwarder (cycles k).talker ((cycles k).sentence number).fields
        = (.ok result, m') ∧
      Watched float pi cycles (heard ++ [.gsv k number]) m' (Function.update opener gnss.systemId k) ∧
      ∀ message, result = some message →
        Complete cycles k (heard ++ [.gsv k number]) ∧ (cycles k).Reflected float pi message := by
  obtain ⟨ended, const', hread, hgnss', hflags, hnodup, hopen, hended⟩ := hcollecting.readGSV hnumber
  have hheard' : ∀ j, const'.gsvSeqRecv[j]? = some true →
      Heard.gsv k j ∈ heard ++ [Heard.gsv k number] := by
    intro j hj
    rw [hflags] at hj
    rcases eq_or_ne number j with rfl | hne
    · exact List.mem_append_right _ (List.mem_singleton_self _)
    · rw [List.getElem?_set_ne hne] at hj
      exact List.mem_append_left _ (hheard j hj)
  have hwatched := (h.mono (List.subset_append_left heard [Heard.gsv k number])).setConstellation
    (k := k) hnodup hopen (fun _ => hheard')
  rw [hgnss', hsystem] at hwatched
  unfold GNSSDataManager.processGSV
  rw [hgnss]
  dsimp only
  rw [hprocess, hread]
  cases ended with
  | false =>
    refine ⟨none, _, rfl, hwatched, ?_⟩
    intro message hmessage
    cases hmessage
  | true =>
    obtain ⟨hall, hreflected⟩ := hended rfl
    refine ⟨_, _, rfl, hwatched, ?_⟩
    intro message hmessage
    split at hmessage
    · cases hmessage
      refine ⟨?_, hreflected _⟩
      intro j hj
      refine hheard' j ?_
      have hlt : j < const'.gsvSeqRecv.length := by
        have hlength : const.gsvSeqRecv.length = (cycles k).parts.length :=
          hcollecting.gathered.length
        rw [hflags, List.length_set, hlength]
        exact hj
      rw [List.getElem?_eq_getElem hlt]
      cases hflag : const'.gsvSeqRecv[j] with
      | true => rfl
      | false => exact absurd (hflag ▸ List.getElem_mem hlt) hall
    · cases hmessage

/-- **A sentence of a cycle keeps the collections in order**, and what it
completes is the list of its cycle. -/
theorem Watched.gsv (h : Watched float pi cycles heard m opener) (now : Time)
    (hwf : (cycles k).WellFormed float) (hnumber : number < (cycles k).parts.length)
    (horderly : Orderly float cycles (m, opener) (now, .gsv k number)) :
    ∃ result m', m.processGSV float pi forwarder (cycles k).talker ((cycles k).sentence number).fields
        = (result, m') ∧
      Watched float pi cycles (heard ++ [.gsv k number]) m'
        (noteOpener cycles m opener (now, .gsv k number)) ∧
      ∀ message, result = .ok (some message) →
        Complete cycles k (heard ++ [.gsv k number]) ∧ (cycles k).Reflected float pi message := by
  unfold Orderly noteOpener at *
  dsimp only at horderly ⊢
  cases hgnss : gnssSysDict (cycles k).talker with
  | error e =>
    refine ⟨.error e, m, ?_, h.mono (List.subset_append_left _ _), ?_⟩
    · unfold processGSV
      rw [hgnss]
    · intro message hmessage
      cases hmessage
  | ok gnss =>
    have hcollection := collection_constellationOf m gnss
    have hsystem := h.keyed.constellationOf gnss
    have horder := horderly
    rw [hgnss] at horder
    dsimp only at horder ⊢
    -- the three ways a sentence is taken
    have hread : ∀ const : Constellation K, const.gnss.systemId = gnss.systemId →
        Collecting float pi (cycles k) const.collection →
        (∀ j, const.gsvSeqRecv[j]? = some true → Heard.gsv k j ∈ heard) →
        (m.constellationOf gnss).processGSV float pi ((cycles k).sentence number).fields
          = const.readGSV float pi ((cycles k).sentence number).fields →
        ∃ result m', m.processGSV float pi forwarder (cycles k).talker
            ((cycles k).sentence number).fields = (result, m') ∧
          Watched float pi cycles (heard ++ [.gsv k number]) m'
            (Function.update opener gnss.systemId k) ∧
          ∀ message, result = .ok (some message) →
            Complete cycles k (heard ++ [.gsv k number]) ∧ (cycles k).Reflected float pi message := by
      intro const hsys hcollecting hheard hprocess
      obtain ⟨result, m', hresult, hwatched, hmessage⟩ :=
        h.read forwarder hgnss hnumber hsys hcollecting hheard hprocess
      exact ⟨.ok result, m', hresult, hwatched, fun message hok => hmessage message (Except.ok.inj hok)⟩
    cases hopen : (m.collectionOf gnss.systemId).inProgress with
    -- by the condition the sentence is one of the cycle that opened the collection
    | true =>
      rw [hopen, if_pos rfl] at horder
      rw [if_pos rfl]
      have hcollecting := h.collecting _ hopen
      have hheard := h.heard _ hopen
      rw [horder, ← hcollection] at hcollecting hheard
      have hupdate : Function.update opener gnss.systemId k = opener := by
        rw [← horder, Function.update_eq_self]
      have hresult := hread _ hsystem hcollecting hheard
        (Constellation.processGSV_next hcollecting.inProgress)
      rw [hupdate] at hresult
      exact hresult
    | false =>
      rw [hopen, if_neg (by decide)] at horder
      rw [if_neg (by decide)]
      have hidle : (m.constellationOf gnss).gsvInProgress = false := by
        rw [← hcollection] at hopen
        exact hopen
      have hnodup := h.nodup gnss.systemId
      rw [← hcollection] at hnodup
      rcases eq_or_ne number 0 with rfl | hne
      · obtain ⟨hplain, hdistinct, hknown⟩ := horder rfl
        rw [← hcollection] at hknown
        refine hread ((m.constellationOf gnss).started (cycles k) (cycles k).satellites.length)
          hsystem (.started hwf hplain hdistinct hnodup hknown) ?_
          (Constellation.processGSV_first hidle hplain.count)
        intro j hj
        have hmem := List.mem_of_getElem? hj
        exact absurd (List.eq_of_mem_replicate hmem) (by decide)
      · have hwatched := (h.mono (List.subset_append_left heard [Heard.gsv k number])).setConstellation
          (k := k) hnodup (fun hcontra => absurd (hidle.symm.trans hcontra) (by decide))
          (fun hcontra => absurd (hidle.symm.trans hcontra) (by decide))
        rw [hsystem] at hwatched
        refine ⟨.ok none, m.setConstellation (m.constellationOf gnss), ?_, hwatched, ?_⟩
        · unfold processGSV
          rw [hgnss]
          dsimp only
          rw [Constellation.processGSV_misaligned hidle hne]
        · intro message hmessage
          cases hmessage

end Step

variable [DecidableEq K] (cycles) (forwarder : N2KForwarder)

variable (float pi) in
/-- The manager, fed with what is heard. -/
def hearing : Machine (GNSSDataManager K) (Time × Heard) (Option (Pgn129540 K)) :=
  (manager float pi forwarder).comap (fun i => (i.1, i.2.sentence cycles))

variable (float pi) in
/-- Each sentence of a run comes in order. -/
def InOrder (inputs : List (Time × Heard)) : Prop :=
  ∀ mv ∈ ((hearing float pi cycles forwarder).withHistory (noteOpener cycles)).trace
      (new, fun _ => 0) inputs,
    Orderly float cycles mv.pre mv.input

variable {cycles}

theorem Watched.step {heard : List Heard} {m : GNSSDataManager K} {opener : Nat → Nat}
    (h : Watched float pi cycles heard m opener) {i : Time × Heard} (hwf : i.2.WellFormed float cycles)
    (horderly : Orderly float cycles (m, opener) i) :
    Watched float pi cycles (heard ++ [i.2]) ((hearing float pi cycles forwarder).step m i).2
        (noteOpener cycles m opener i) ∧
      ∀ message, ((hearing float pi cycles forwarder).step m i).1 = some message →
        ∃ k, Complete cycles k (heard ++ [i.2]) ∧ (cycles k).talker = (i.2.sentence cycles).talker ∧
          (cycles k).Reflected float pi message := by
  obtain ⟨now, sentence⟩ := i
  cases sentence with
  | gsv k number =>
    obtain ⟨result, m', hprocess, hwatched, hmessage⟩ :=
      h.gsv forwarder now hwf.1 hwf.2 horderly
    have hstep : (hearing float pi cycles forwarder).step m (now, .gsv k number)
        = (result.toOption.join, m') := by
      have hgsv := processNmea0183_gsv float pi forwarder m now
        (show ((cycles k).sentence number).formatter = "GSV" from rfl)
      have htalker : ((cycles k).sentence number).talker = (cycles k).talker := rfl
      rw [htalker, hprocess] at hgsv
      exact hgsv
    rw [hstep]
    refine ⟨hwatched, ?_⟩
    intro message hout
    have hok : result = .ok (some message) := by
      cases result with
      | error e => cases hout
      | ok message' => rw [← show message' = some message from hout]
    obtain ⟨hcomplete, hreflected⟩ := hmessage message hok
    exact ⟨k, hcomplete, rfl, hreflected⟩
  | other s =>
    have hsame := same_processNmea0183 float pi forwarder m now hwf
    refine ⟨(h.mono (List.subset_append_left _ _)).same hsame, ?_⟩
    intro message hout
    have hnone := processNmea0183_other float pi forwarder m now hwf
    exact absurd (hnone.symm.trans hout) (by simp)

/-- **In a run where each sentence comes in order, each message has the
satellites of a complete cycle.** -/
theorem reflectsCycles_of_inOrder (int : K → Int) {inputs : List (Time × Heard)}
    (hwf : ∀ i ∈ inputs, i.2.WellFormed float cycles) (h : InOrder float pi cycles forwarder inputs) :
    ReflectsCycles float pi (hearing float pi cycles forwarder) new int cycles Prod.snd inputs := by
  intro sofar i rest message hsplit hout
  refine ⟨?_, fun payload hpayload => (length_encodePayload int hpayload).2⟩
  subst hsplit
  obtain ⟨hwatched, horderly, hi⟩ := Machine.split_inputs_invariant
    ((hearing float pi cycles forwarder).withHistory (noteOpener cycles))
    (fun inputs s => Watched float pi cycles (inputs.map Prod.snd) s.1 s.2)
    (fun s i => Orderly float cycles s i) (fun i => i.2.WellFormed float cycles) (watched_new cycles)
    (by
      intro inputs i ih horderly hi
      rw [List.map_append]
      exact (ih.step forwarder hi horderly).1)
    hwf h
  have hfinal := Machine.fst_final_withHistory (hearing float pi cycles forwarder)
    (noteOpener cycles) (new, fun _ => 0) sofar
  have hstep := (hwatched.step forwarder hi horderly).2
  rw [hfinal] at hstep
  rw [List.map_append]
  exact hstep message hout

instance (s : GNSSDataManager K × (Nat → Nat)) (i : Time × Heard) :
    Decidable (Orderly float cycles s i) := by
  unfold Orderly
  split
  · infer_instance
  · split <;> infer_instance

instance (inputs : List (Time × Heard)) : Decidable (InOrder float pi cycles forwarder inputs) :=
  inferInstanceAs (Decidable (∀ mv ∈ _, _))

end GNSSDataManager

end NavigationServer.Gnss
