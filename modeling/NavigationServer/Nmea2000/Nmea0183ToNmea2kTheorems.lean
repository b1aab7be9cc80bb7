/-
NavigationServer.Nmea2000.Nmea0183ToNmea2kTheorems — the satellites of the
converter against the cycles of GSV sentences.

The converter has one collection for all talkers, and appends what each sentence
brings, so a sentence that is repeated brings its satellites twice. `Collected`
is what holds while the sentences of one cycle come in, each once. A sentence
with fewer than four satellites ends in an exception where it is not the last one
to come, but its satellites are kept; so the last one ends the cycle whatever the
order (`Collected.convertGSV`). With the service of the receiver this makes the
two runs of `satsInView_reflects`.

The invariant of a run is `Watched`: while a cycle is open, what has been heard of it is
`Collected`. Other sentences do not touch the satellites. What the converter makes of
them is left out, as is the PGN that it builds of the satellites.
-/
import Mathlib.Data.List.Flatten
import Mathlib.Data.List.Perm.Subperm
import NavigationServer.Gnss.GsvTheorems
import NavigationServer.Nmea2000.Nmea0183ToNmea2k

namespace NavigationServer.Nmea2000

open NavigationServer.Lib NavigationServer.Gnss

namespace NMEA0183ToNMEA2000Converter

variable {K : Type}

/-! ## 1. Satellites are appended -/

/-- The collection with what a sentence brings. -/
def appendAll (c : NMEA0183ToNMEA2000Converter K) (sats : List (SatellitesInView K)) :
    NMEA0183ToNMEA2000Converter K :=
  sats.foldl appendSat c

/-- What is collected grows, and the rest stays. -/
structure Appended (sats : List (SatellitesInView K)) (c c' : NMEA0183ToNMEA2000Converter K) : Prop where
  data : ∀ l, c.currentSatGsvData = some l → ∃ l', c'.currentSatGsvData = some l' ∧
    l'.map SatellitesInView.bare = l.map SatellitesInView.bare ++ sats.map SatellitesInView.bare
  count : c'.currentGsvSatCount = c.currentGsvSatCount + sats.length
  nbSat : c'.currentGsvNbSat = c.currentGsvNbSat
  seq : c'.currentGsvSeq = c.currentGsvSeq

/-- Nothing of the converter but its collection changes. -/
theorem appended_appendAll (c : NMEA0183ToNMEA2000Converter K) (sats : List (SatellitesInView K)) :
    Appended sats c (c.appendAll sats) := by
  induction sats generalizing c with
  | nil =>
    refine ⟨?_, rfl, rfl, rfl⟩
    intro l hl
    exact ⟨l, hl, by simp⟩
  | cons sat sats ih =>
    obtain ⟨hdata, hcount, hnbSat, hseq⟩ := ih (c.appendSat sat)
    refine ⟨?_, ?_, hnbSat, hseq⟩
    · intro l hl
      have hfirst : (c.appendSat sat).currentSatGsvData
          = some (l ++ [{ sat with status := c.satStatus sat }]) := by
        simp [appendSat, hl]
      obtain ⟨l', hl', hmap⟩ := hdata _ hfirst
      refine ⟨l', hl', ?_⟩
      rw [hmap, List.map_append, List.append_assoc]
      rfl
    · have hone : (c.appendSat sat).currentGsvSatCount = c.currentGsvSatCount + 1 := rfl
      have hstep : c.appendAll (sat :: sats) = (c.appendSat sat).appendAll sats := rfl
      rw [hstep, hcount, hone, List.length_cons]
      omega

variable [Field K] {float : Bytes → Option K} {pi : K}

/-- The satellites of a sentence are appended, whether its reading ends in an
exception or not. -/
theorem readSats_fields {sats : List GsvSat}
    (h : ∀ sat ∈ sats, (intOfDecimal sat.prn).isSome ∧ Readable float sat.elevation ∧
      Readable float sat.azimuth ∧ Readable float sat.snr)
    (signal : Bytes) {count : Nat} (hcount : sats.length ≤ count) (front : List Bytes)
    {c : NMEA0183ToNMEA2000Converter K}
    (hroom : (c.currentGsvSatCount : Int) + sats.length ≤ c.currentGsvNbSat) :
    (readSats float pi (front ++ (sats.flatMap GsvSat.fields ++ [signal])) count front.length c).2
      = c.appendAll (sats.map (GsvSat.value float pi)) := by
  induction sats generalizing front c count with
  | nil =>
    cases count with
    | zero => rfl
    | succ count =>
      obtain ⟨e, he⟩ := readSatellite_last float pi front signal
      unfold readSats
      rw [List.flatMap_nil, List.nil_append, he]
      rfl
  | cons sat sats ih =>
    obtain ⟨count, rfl⟩ : ∃ n, count = n + 1 :=
      ⟨count - 1, by rw [List.length_cons] at hcount; omega⟩
    rw [List.length_cons] at hcount hroom
    have hfields : front ++ ((sat :: sats).flatMap GsvSat.fields ++ [signal])
        = front ++ (sat.fields ++ (sats.flatMap GsvSat.fields ++ [signal])) := by
      rw [List.flatMap_cons, List.append_assoc]
    have hsat := h sat List.mem_cons_self
    rw [hfields, readSats, readSatellite_fields float pi hsat.1 hsat.2]
    dsimp only
    have hone : (c.appendSat (sat.value float pi)).currentGsvSatCount = c.currentGsvSatCount + 1 := rfl
    have hnb : (c.appendSat (sat.value float pi)).currentGsvNbSat = c.currentGsvNbSat := rfl
    split
    · -- the number of satellites is reached, so this is the last one
      rename_i hreached
      have hnil : sats = [] := by
        rw [hone, hnb] at hreached
        apply List.eq_nil_of_length_eq_zero
        omega
      rw [hnil]
      rfl
    · have hlength : (front ++ sat.fields).length = front.length + 4 := by
        rw [List.length_append]
        rfl
      have hrest := ih (fun s hs => h s (List.mem_cons_of_mem sat hs)) (Nat.le_of_succ_le_succ hcount)
        (front ++ sat.fields) (c := c.appendSat (sat.value float pi)) (by rw [hone, hnb]; omega)
      rw [hlength, List.append_assoc] at hrest
      exact hrest

/-! ## 2. The satellites of a cycle come in -/

variable (float pi) in
/-- The sentences `got` of a cycle were collected. -/
structure Collected (c : GsvCycle) (got : List Nat) (conv : NMEA0183ToNMEA2000Converter K) : Prop where
  wellFormed : c.WellFormed float
  plain : c.Plain float
  nodup : got.Nodup
  lt : ∀ j ∈ got, j < c.parts.length
  data : ∃ l, conv.currentSatGsvData = some l ∧
    l.map SatellitesInView.bare = (got.flatMap c.part).map (GsvSat.value float pi)
  seq : ∃ flags, conv.currentGsvSeq = some flags ∧ flags.length = c.parts.length ∧
    ∀ j, flags[j]? = some true ↔ j ∈ got
  nbSat : conv.currentGsvNbSat = c.satellites.length
  count : conv.currentGsvSatCount = (got.flatMap c.part).length

/-- The parts of a cycle are all of its satellites. -/
theorem flatMap_part_range (c : GsvCycle) :
    (List.range c.parts.length).flatMap c.part = c.satellites := by
  have hmap : (List.range c.parts.length).map c.part = c.parts := by
    apply List.ext_getElem
    · rw [List.length_map, List.length_range]
    · intro j hj hj'
      rw [List.getElem_map, List.getElem_range]
      simp [GsvCycle.part, hj']
  unfold GsvCycle.satellites
  rw [List.flatMap_def, hmap]

/-- Sentences that are collected once each do not bring more satellites than
the cycle has. -/
theorem length_flatMap_part_le {c : GsvCycle} {got : List Nat} (hnodup : got.Nodup)
    (hlt : ∀ j ∈ got, j < c.parts.length) :
    (got.flatMap c.part).length ≤ c.satellites.length := by
  have hsub : got.Subperm (List.range c.parts.length) :=
    hnodup.subperm (fun j hj => List.mem_range.mpr (hlt j hj))
  obtain ⟨l, hperm, hsublist⟩ := hsub
  rw [← flatMap_part_range, ← (hperm.flatMap_right c.part).length_eq]
  exact (hsublist.flatMap c.part).length_le

/-- A sentence of the cycle that was not collected yet. -/
theorem Collected.readGSV {c : GsvCycle} {got : List Nat} {conv : NMEA0183ToNMEA2000Converter K}
    (h : Collected float pi c got conv) {number : Nat} (hnumber : number < c.parts.length)
    (hnew : number ∉ got) :
    Collected float pi c (got ++ [number]) (conv.readGSV float pi (c.sentence number).fields).2 := by
  obtain ⟨l, hl, hdata⟩ := h.data
  obtain ⟨flags, hseq, hlength, hflags⟩ := h.seq
  have hnodup : (got ++ [number]).Nodup := by
    rw [List.nodup_append_comm, List.singleton_append]
    exact List.nodup_cons.mpr ⟨hnew, h.nodup⟩
  have hlt : ∀ j ∈ got ++ [number], j < c.parts.length := by
    intro j hj
    rcases List.mem_append.mp hj with hj | hj
    · exact h.lt j hj
    · rw [List.mem_singleton.mp hj]
      exact hnumber
  have hgrown : (got ++ [number]).flatMap c.part = got.flatMap c.part ++ c.part number := by
    rw [List.flatMap_append, List.flatMap_singleton]
  have hset : setItem flags ((number : Int) + 1 - 1) true = some (flags.set number true) := by
    rw [Int.add_sub_cancel]
    exact setItem_natCast _ (by omega) true
  obtain ⟨hshort, hreadable⟩ := GsvCycle.part_wellFormed h.wellFormed hnumber
  have hroom : (conv.currentGsvSatCount : Int) + (c.part number).length ≤ conv.currentGsvNbSat := by
    have hle := length_flatMap_part_le hnodup hlt
    rw [hgrown, List.length_append] at hle
    rw [h.count, h.nbSat]
    exact_mod_cast hle
  have hread : (conv.readGSV float pi (c.sentence number).fields).2
      = { conv with currentGsvSeq := some (flags.set number true) }.appendAll
          ((c.part number).map (GsvSat.value float pi)) := by
    unfold NMEA0183ToNMEA2000Converter.readGSV
    rw [GsvCycle.number_sentence, hseq]
    dsimp only
    rw [hset, GsvCycle.fields_sentence]
    exact readSats_fields hreadable c.signal hshort
      [decimal c.parts.length, decimal (number + 1), c.count]
      (c := { conv with currentGsvSeq := some (flags.set number true) }) hroom
  obtain ⟨hdata', hcount', hnbSat', hseq'⟩ := appended_appendAll
    { conv with currentGsvSeq := some (flags.set number true) }
    ((c.part number).map (GsvSat.value float pi))
  rw [hread]
  refine ⟨h.wellFormed, h.plain, hnodup, hlt, ?_, ?_, ?_, ?_⟩
  · obtain ⟨l', hl', hmap⟩ := hdata' l hl
    refine ⟨l', hl', ?_⟩
    rw [hmap, hdata, map_bare_value, hgrown, List.map_append]
  · refine ⟨flags.set number true, hseq', by rw [List.length_set, hlength], ?_⟩
    intro j
    rcases eq_or_ne number j with rfl | hne
    · simp [hlength, hnumber]
    · rw [List.getElem?_set_ne hne, hflags, List.mem_append, List.mem_singleton]
      constructor
      · exact fun hj => .inl hj
      · exact fun hj => hj.resolve_right (Ne.symm hne)
  · rw [hnbSat', ← h.nbSat]
  · rw [hcount', List.length_map, hgrown, List.length_append, ← h.count]

/-- Where every sentence was collected, the message has the list of the cycle. -/
theorem Collected.reflected {c : GsvCycle} {got : List Nat} {conv : NMEA0183ToNMEA2000Converter K}
    (h : Collected float pi c got conv) (hall : ∀ j < c.parts.length, j ∈ got) :
    c.Reflected float pi (conv.satsInView pi) := by
  obtain ⟨l, hl, hdata⟩ := h.data
  have hgot : got.Perm (List.range c.parts.length) := by
    rw [List.perm_ext_iff_of_nodup h.nodup List.nodup_range]
    intro j
    rw [List.mem_range]
    exact ⟨h.lt j, hall j⟩
  have hperm : (l.map SatellitesInView.bare).Perm (c.satellites.map (GsvSat.value float pi)) := by
    rw [hdata, ← flatMap_part_range]
    exact (hgot.flatMap_right c.part).map _
  unfold GsvCycle.Reflected satsInView
  rw [hl]
  simp only [Option.getD_some]
  rw [map_bare_of_level h.plain (fun x hx => hperm.subset hx)]
  refine ⟨?_, hperm⟩
  have hlength := hperm.length_eq
  rw [List.length_map, List.length_map] at hlength
  rw [h.nbSat, List.length_map, hlength]

/-- **A sentence of the cycle is collected or ends it.** -/
theorem Collected.convertGSV {c : GsvCycle} {got : List Nat} {conv : NMEA0183ToNMEA2000Converter K}
    (h : Collected float pi c got conv) {number : Nat} (hnumber : number < c.parts.length)
    (hnew : number ∉ got) :
    (∃ e conv', conv.convertGSV float pi (c.sentence number).fields = (.error e, conv') ∧
      Collected float pi c (got ++ [number]) conv') ∨
    ∃ message conv', conv.convertGSV float pi (c.sentence number).fields = (.ok message, conv') ∧
      conv'.currentSatGsvData = none ∧ (∀ j < c.parts.length, j ∈ got ++ [number]) ∧
      c.Reflected float pi message := by
  have hread := h.readGSV hnumber hnew
  obtain ⟨l, hl, -⟩ := h.data
  have hstart : conv.startGSV (c.sentence number).fields = (.ok (), conv) := by
    unfold startGSV
    rw [hl]
  unfold NMEA0183ToNMEA2000Converter.convertGSV
  rw [hstart]
  dsimp only
  generalize conv.readGSV float pi (c.sentence number).fields = read at hread
  obtain ⟨result, conv'⟩ := read
  cases result with
  | error e => exact .inl ⟨e, conv', rfl, hread⟩
  | ok _ =>
    dsimp only
    split
    · exact .inl ⟨_, conv', rfl, hread⟩
    · rename_i hover
      obtain ⟨flags, hseq, hlength, hflags⟩ := hread.seq
      have hall : ∀ j < c.parts.length, j ∈ got ++ [number] := by
        intro j hj
        rw [← hlength] at hj
        rw [← hflags, List.getElem?_eq_getElem hj]
        cases hflag : flags[j] with
        | true => rfl
        | false =>
          rw [hseq, Option.getD_some] at hover
          exact absurd (hflag ▸ List.getElem_mem hj) hover
      refine .inr ⟨_, _, rfl, rfl, hall, ?_⟩
      exact hread.reflected hall

/-- The first sentence of a cycle starts a collection. -/
theorem collected_start {c : GsvCycle} {conv : NMEA0183ToNMEA2000Converter K}
    (hwf : c.WellFormed float) (hplain : c.Plain float) (hnone : conv.currentSatGsvData = none) :
    ∃ conv', conv.startGSV (c.sentence 0).fields = (.ok (), conv') ∧
      Collected float pi c [] conv' := by
  have hone : decimal (0 + 1) = ascii "1" := GsvCycle.decimal_eq_one_iff.mpr rfl
  have hflags : ∀ j, (List.replicate c.parts.length false)[j]? = some true ↔ j ∈ ([] : List Nat) := by
    intro j
    constructor
    · intro hj
      exact absurd (List.eq_of_mem_replicate (List.mem_of_getElem? hj)) (by decide)
    · intro hj
      exact absurd hj List.not_mem_nil
  unfold startGSV
  rw [hnone, GsvCycle.spelled_one, hone, GsvCycle.total_sentence,
    GsvCycle.count_sentence hplain.count]
  simp only [ne_eq, not_true_eq_false, if_false]
  refine ⟨_, rfl, hwf, hplain, List.nodup_nil, ?_, ⟨[], rfl, rfl⟩,
    ⟨_, rfl, List.length_replicate, hflags⟩, rfl, rfl⟩
  intro j hj
  exact absurd hj List.not_mem_nil

/-! ## 3. Runs -/

variable (cycles : Nat → GsvCycle)

/-- The cycle that the collection was opened with. -/
def noteOpener (conv : NMEA0183ToNMEA2000Converter K) (opener : Nat) (h : Heard) : Nat :=
  match h with
  | .other _ => opener
  | .gsv k _ => if conv.currentSatGsvData.isSome then opener else k

variable (float) in
/-- While a collection is open a sentence, of whichever talker, is one of the
cycle that opened it and comes for the first time. A cycle that opens one is
plain. -/
def Orderly (s : NMEA0183ToNMEA2000Converter K × Nat) (h : Heard) : Prop :=
  match h with
  | .other _ => True
  | .gsv k number =>
      if s.1.currentSatGsvData.isSome then
        s.2 = k ∧ (s.1.currentGsvSeq.getD [])[number]? = some false
      else number = 0 → (cycles k).Plain float

variable (float pi) in
/-- An open collection has sentences of its cycle only. -/
def Watched (heard : List Heard) (conv : NMEA0183ToNMEA2000Converter K) (opener : Nat) : Prop :=
  conv.currentSatGsvData.isSome →
    ∃ got, Collected float pi (cycles opener) got conv ∧ ∀ j ∈ got, Heard.gsv opener j ∈ heard

variable (float pi) in
/-- The converter, fed with what is heard. -/
def hearing : Machine (NMEA0183ToNMEA2000Converter K) Heard (Option (Pgn129540 K)) :=
  (converter float pi).comap (Heard.sentence cycles)

variable (float pi) in
/-- Each sentence of a run comes in order. -/
def InOrder (inputs : List Heard) : Prop :=
  ∀ mv ∈ ((hearing float pi cycles).withHistory noteOpener).trace (new, 0) inputs,
    Orderly float cycles mv.pre mv.input

variable (float pi) in
/-- A sentence of a cycle goes through `convertGSV`. -/
theorem step_gsv (conv : NMEA0183ToNMEA2000Converter K) (k number : Nat) :
    (hearing float pi cycles).step conv (.gsv k number)
      = ((conv.convertGSV float pi ((cycles k).sentence number).fields).1.toOption,
          (conv.convertGSV float pi ((cycles k).sentence number).fields).2) := by
  have hformatter : ((cycles k).sentence number).formatter = "GSV" := rfl
  unfold hearing Machine.comap converter convert Heard.sentence
  dsimp only
  split
  · cases conv.convertGSV float pi ((cycles k).sentence number).fields with
    | mk result conv' => cases result <;> rfl
  all_goals simp_all

variable (float pi) in
/-- A sentence of another kind tells at most which satellites are used. -/
theorem step_other (conv : NMEA0183ToNMEA2000Converter K) {s : Sentence} (h : s.formatter ≠ "GSV") :
    ∃ gsa, (hearing float pi cycles).step conv (.other s)
      = (none, { conv with currentSatGsaData := gsa }) := by
  unfold hearing Machine.comap converter convert Heard.sentence
  dsimp only
  split
  · contradiction
  · unfold convertGSA
    dsimp only
    split
    · exact ⟨conv.currentSatGsaData, rfl⟩
    · exact ⟨_, rfl⟩
  · exact ⟨conv.currentSatGsaData, rfl⟩

variable {cycles}

/-- A sentence goes into an open collection of its cycle. -/
theorem Collected.step {heard : List Heard} {got : List Nat} {conv : NMEA0183ToNMEA2000Converter K}
    {k number : Nat} (h : Collected float pi (cycles k) got conv)
    (hheard : ∀ j ∈ got, Heard.gsv k j ∈ heard) (hnumber : number < (cycles k).parts.length)
    (hnew : number ∉ got) :
    Watched float pi cycles (heard ++ [.gsv k number])
        (conv.convertGSV float pi ((cycles k).sentence number).fields).2 k ∧
      ∀ message, (conv.convertGSV float pi ((cycles k).sentence number).fields).1 = .ok message →
        Complete cycles k (heard ++ [.gsv k number]) ∧ (cycles k).Reflected float pi message := by
  have hheard' : ∀ j ∈ got ++ [number], Heard.gsv k j ∈ heard ++ [Heard.gsv k number] := by
    intro j hj
    rcases List.mem_append.mp hj with hj | hj
    · exact List.mem_append_left _ (hheard j hj)
    · rw [List.mem_singleton.mp hj]
      exact List.mem_append_right _ (List.mem_singleton_self _)
  rcases h.convertGSV hnumber hnew with ⟨e, conv', hconvert, hcollected⟩ |
    ⟨message, conv', hconvert, hnone, hall, hreflected⟩ <;> rw [hconvert]
  · refine ⟨fun _ => ⟨_, hcollected, hheard'⟩, ?_⟩
    intro message hmessage
    cases hmessage
  · refine ⟨fun hsome => absurd hsome (by rw [hnone]; exact Bool.false_ne_true), ?_⟩
    intro message' hmessage
    cases hmessage
    exact ⟨fun j hj => hheard' j (hall j hj), hreflected⟩

/-- **One sentence**, whichever cycle it belongs to. -/
theorem Watched.step {heard : List Heard} {conv : NMEA0183ToNMEA2000Converter K} {opener : Nat}
    (h : Watched float pi cycles heard conv opener) {i : Heard} (hwf : i.WellFormed float cycles)
    (horderly : Orderly float cycles (conv, opener) i) :
    Watched float pi cycles (heard ++ [i]) ((hearing float pi cycles).step conv i).2
        (noteOpener conv opener i) ∧
      ∀ message, ((hearing float pi cycles).step conv i).1 = some message →
        ∃ k, Complete cycles k (heard ++ [i]) ∧ (cycles k).talker = (i.sentence cycles).talker ∧
          (cycles k).Reflected float pi message := by
  cases i with
  | other s =>
    obtain ⟨gsa, hstep⟩ := step_other float pi cycles conv hwf
    rw [hstep]
    refine ⟨?_, ?_⟩
    · intro hsome
      obtain ⟨got, hcollected, hheard⟩ := h hsome
      refine ⟨got, ⟨hcollected.wellFormed, hcollected.plain, hcollected.nodup, hcollected.lt,
        hcollected.data, hcollected.seq, hcollected.nbSat, hcollected.count⟩, ?_⟩
      intro j hj
      exact List.mem_append_left _ (hheard j hj)
    · intro message hmessage
      cases hmessage
  | gsv k number =>
    rw [step_gsv]
    unfold Orderly at horderly
    unfold noteOpener
    dsimp only at horderly ⊢
    -- what the two ways to be collected have in common
    suffices hcollect : Watched float pi cycles (heard ++ [.gsv k number])
          (conv.convertGSV float pi ((cycles k).sentence number).fields).2
          (if conv.currentSatGsvData.isSome then opener else k) ∧
        ∀ message, (conv.convertGSV float pi ((cycles k).sentence number).fields).1 = .ok message →
          Complete cycles k (heard ++ [.gsv k number]) ∧ (cycles k).Reflected float pi message by
      refine ⟨hcollect.1, ?_⟩
      intro message hmessage
      cases hresult : (conv.convertGSV float pi ((cycles k).sentence number).fields).1 with
      | error e =>
        rw [hresult] at hmessage
        cases hmessage
      | ok message' =>
        rw [hresult] at hmessage
        obtain ⟨hcomplete, hreflected⟩ := hcollect.2 message' hresult
        rw [← Option.some.inj hmessage]
        exact ⟨k, hcomplete, rfl, hreflected⟩
    cases hdata : conv.currentSatGsvData with
    | some l =>
      rw [hdata] at horderly
      obtain ⟨rfl, hfalse⟩ := horderly
      obtain ⟨got, hcollected, hheard⟩ := h (by rw [hdata]; rfl)
      refine hcollected.step hheard hwf.2 ?_
      intro hmem
      obtain ⟨flags, hseq, -, hflags⟩ := hcollected.seq
      have htrue := (hflags number).mpr hmem
      rw [hseq, Option.getD_some, htrue] at hfalse
      exact absurd (Option.some.inj hfalse) (by decide)
    | none =>
      rw [hdata] at horderly
      rcases eq_or_ne number 0 with rfl | hne
      · obtain ⟨conv', hstart, hcollected⟩ := collected_start hwf.1 (horderly rfl) hdata
        obtain ⟨l, hl, -⟩ := hcollected.data
        have hconvert : conv.convertGSV float pi ((cycles k).sentence 0).fields
            = conv'.convertGSV float pi ((cycles k).sentence 0).fields := by
          unfold NMEA0183ToNMEA2000Converter.convertGSV
          rw [hstart]
          unfold startGSV
          rw [hl]
        rw [hconvert]
        refine hcollected.step ?_ hwf.2 List.not_mem_nil
        intro j hj
        exact absurd hj List.not_mem_nil
      · have hnumber : decimal (number + 1) ≠ ascii "1" := fun heq =>
          hne (GsvCycle.decimal_eq_one_iff.mp heq)
        have hconvert : conv.convertGSV float pi ((cycles k).sentence number).fields
            = (.error .incompleteMessage, conv) := by
          unfold NMEA0183ToNMEA2000Converter.convertGSV startGSV
          rw [hdata, GsvCycle.spelled_one]
          simp [hnumber]
        rw [hconvert]
        refine ⟨fun hsome => absurd hsome (by rw [hdata]; exact Bool.false_ne_true), ?_⟩
        intro message hmessage
        cases hmessage

/-- **In a run where each sentence comes in order, each message has the
satellites of a complete cycle.** -/
theorem reflectsCycles_of_inOrder (int : K → Int) {inputs : List Heard}
    (hwf : ∀ i ∈ inputs, i.WellFormed float cycles) (h : InOrder float pi cycles inputs) :
    ReflectsCycles float pi (hearing float pi cycles) new int cycles id inputs := by
  intro sofar i rest message hsplit hout
  refine ⟨?_, fun payload hpayload => (length_encodePayload int hpayload).2⟩
  subst hsplit
  obtain ⟨hwatched, horderly, hi⟩ := Machine.split_inputs_invariant
    ((hearing float pi cycles).withHistory noteOpener)
    (fun inputs s => Watched float pi cycles inputs s.1 s.2) (fun s i => Orderly float cycles s i)
    (fun i => i.WellFormed float cycles)
    (by
      intro hsome
      cases hsome)
    (fun inputs i ih horderly hi => (ih.step hi horderly).1) hwf h
  have hfinal := Machine.fst_final_withHistory (hearing float pi cycles) noteOpener (new, 0) sofar
  have hstep := (hwatched.step hi horderly).2
  rw [hfinal] at hstep
  rw [List.map_id]
  exact hstep message hout

instance [DecidableEq K] (s : NMEA0183ToNMEA2000Converter K × Nat) (h : Heard) :
    Decidable (Orderly float cycles s h) := by
  unfold Orderly
  split <;> infer_instance

instance [DecidableEq K] (inputs : List Heard) : Decidable (InOrder float pi cycles inputs) :=
  inferInstanceAs (Decidable (∀ mv ∈ _, _))

end NMEA0183ToNMEA2000Converter

/-! ## 4. The service and the converter -/

/-- **Each message of the service and of the converter has the satellites of one
complete cycle**, in runs where each sentence comes in order. -/
theorem satsInView_reflects {K : Type} [Field K] [DecidableEq K] (float : Bytes → Option K) (pi : K)
    (int : K → Int) (cycles : Nat → GsvCycle) (forwarder : N2KForwarder)
    {inputs : List (Time × Heard)} (hwf : ∀ i ∈ inputs, i.2.WellFormed float cycles)
    (horder : GNSSDataManager.InOrder float pi cycles forwarder inputs)
    {sentences : List Heard} (hwf' : ∀ h ∈ sentences, h.WellFormed float cycles)
    (horder' : NMEA0183ToNMEA2000Converter.InOrder float pi cycles sentences) :
    ReflectsCycles float pi (GNSSDataManager.hearing float pi cycles forwarder) .new int cycles
        Prod.snd inputs ∧
      ReflectsCycles float pi (NMEA0183ToNMEA2000Converter.hearing float pi cycles) .new int cycles
        id sentences :=
  ⟨GNSSDataManager.reflectsCycles_of_inOrder forwarder int hwf horder,
    NMEA0183ToNMEA2000Converter.reflectsCycles_of_inOrder int hwf' horder'⟩

/-- `int`, on fractions. -/
def truncate (q : ℚ) : Int := q.num.tdiv q.den

/-- A satellite of which the direction is not known. -/
def untracked (prn : String) : GsvSat := ⟨ascii prn, [], [], []⟩

/-- Five satellites of the GPS, in two sentences. -/
def fiveSatellites : GsvCycle where
  talker := "GP"
  count := ascii "05"
  parts := [[untracked "05", untracked "12", untracked "14", untracked "20"], [untracked "29"]]
  signal := ascii "1"

/-- The second sentence of the cycle is lost once, and comes again. -/
theorem satsInView_reflects_fiveSatellites :
    ReflectsCycles GNSSDataManager.wholeFloat 3
        (GNSSDataManager.hearing GNSSDataManager.wholeFloat 3 (fun _ => fiveSatellites) ⟨[129540], none⟩)
        .new truncate (fun _ => fiveSatellites) Prod.snd
        [(0, .gsv 0 1), (1, .gsv 1 0), (2, .gsv 1 0), (3, .gsv 1 1)] ∧
      ReflectsCycles GNSSDataManager.wholeFloat 3
        (NMEA0183ToNMEA2000Converter.hearing GNSSDataManager.wholeFloat 3 (fun _ => fiveSatellites))
        .new truncate (fun _ => fiveSatellites) id [.gsv 0 1, .gsv 1 0, .gsv 1 1] := by
  have hwf : fiveSatellites.WellFormed GNSSDataManager.wholeFloat :=
    ⟨by decide, by decide, by decide, by unfold Readable; decide⟩
  refine satsInView_reflects GNSSDataManager.wholeFloat 3 truncate (fun _ => fiveSatellites)
    ⟨[129540], none⟩ ?_ (by decide +kernel) ?_ (by decide +kernel)
  · simp only [List.forall_mem_cons, Heard.WellFormed]
    refine ⟨⟨hwf, by decide⟩, ⟨hwf, by decide⟩, ⟨hwf, by decide⟩, ⟨hwf, by decide⟩, ?_⟩
    intro i hi
    exact absurd hi List.not_mem_nil
  · simp only [List.forall_mem_cons, Heard.WellFormed]
    refine ⟨⟨hwf, by decide⟩, ⟨hwf, by decide⟩, ⟨hwf, by decide⟩, ?_⟩
    intro i hi
    exact absurd hi List.not_mem_nil

example : (NMEA0183ToNMEA2000Converter.hearing GNSSDataManager.wholeFloat 3 (fun _ => fiveSatellites)).outs
    .new [.gsv 0 1, .gsv 1 0, .gsv 1 1]
      = [none, none, some ⟨1, 0, 5, [⟨5, none, none, none, 0⟩, ⟨12, none, none, none, 0⟩,
          ⟨14, none, none, none, 0⟩, ⟨20, none, none, none, 0⟩, ⟨29, none, none, none, 0⟩]⟩] := by
  decide +kernel

/-- One satellite, seen in some direction. -/
def oneSatellite (prn elevation : String) : GsvCycle where
  talker := "GP"
  count := ascii "1"
  parts := [[⟨ascii prn, ascii elevation, [], []⟩]]
  signal := ascii "1"

/-- An angle is converted twice, and the service keeps the satellite of the cycle
before. -/
theorem not_reflects_oneSatellite :
    ¬ ReflectsCycles GNSSDataManager.wholeFloat 3
        (NMEA0183ToNMEA2000Converter.hearing GNSSDataManager.wholeFloat 3
          (fun _ => oneSatellite "5" "40"))
        .new truncate (fun _ => oneSatellite "5" "40") id [.gsv 0 0] ∧
      ¬ ReflectsCycles GNSSDataManager.wholeFloat 3
        (GNSSDataManager.hearing GNSSDataManager.wholeFloat 3
          (fun k => if k = 0 then oneSatellite "5" "" else oneSatellite "12" "") ⟨[129540], none⟩)
        .new truncate (fun k => if k = 0 then oneSatellite "5" "" else oneSatellite "12" "") Prod.snd
        [(0, .gsv 0 0), (1, .gsv 1 0)] := by
  constructor
  · intro h
    obtain ⟨⟨k, -, -, -, hperm⟩, -⟩ := h [] (.gsv 0 0) []
      ⟨1, 0, 1, [⟨5, some (1 / 90), none, none, 1⟩]⟩ rfl (by decide +kernel)
    dsimp only at hperm
    revert hperm
    decide +kernel
  · intro h
    obtain ⟨⟨k, -, -, -, hperm⟩, -⟩ := h [(0, .gsv 0 0)] (1, .gsv 1 0) []
      ⟨0, 0, 1, [⟨5, none, none, none, 0⟩, ⟨12, none, none, none, 0⟩]⟩ rfl (by decide +kernel)
    have hlength := hperm.length_eq
    dsimp only at hlength
    split at hlength <;> exact absurd hlength (by decide)

end NavigationServer.Nmea2000
