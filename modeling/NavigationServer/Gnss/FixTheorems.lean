/-
NavigationServer.Gnss.FixTheorems — the fix state against what the receiver
reports.

`report` is what a sentence of the receiver says about the fix. `setFix` sets
the flag and `lostFix` never clears it, so the flag tells whether some sentence
so far reported a fix (`reported_final`), and what is counted stays empty before the
first one (`Clear`). That is what the last report says exactly in the runs where
no loss follows a fix (`followsReceiver_iff_steady`).
-/
import NavigationServer.Gnss.GnssData

namespace NavigationServer.Gnss

open NavigationServer.Lib

variable {K : Type}

/-! ## 1. Reports -/

/-- A GGA sentence reports a fix unless its quality is 0, a GSA sentence from
mode 2 on, and a RMC sentence that is not valid reports a loss. -/
def report (s : Sentence) : Option Bool :=
  match s.formatter with
  | "GGA" => s.fields[5]?.map (fun quality => decide (quality ≠ ascii "0"))
  | "GSA" => (s.fields[1]?.bind intOfDecimal).map (fun mode => decide (2 ≤ mode))
  | "RMC" => s.fields[1]?.bind (fun status => if status ≠ ascii "A" then some false else none)
  | _ => none

def reports (inputs : List (Time × Sentence)) : List Bool := inputs.filterMap (fun i => report i.2)

/-- The flag says what the last report says, and without a fix nothing is counted. -/
def Follows (inputs : List (Time × Sentence)) (m : GNSSDataManager K) : Prop :=
  (m.fix = true ↔ (reports inputs).getLast? = some true) ∧
    (m.fix = false → m.constInFix = [] ∧ m.nbSatsInFix = 0)

/-- After each sentence of a run. -/
def FollowsReceiver [Field K] [DecidableEq K] (float : Bytes → Option K) (pi : K) (forwarder : N2KForwarder)
    (inputs : List (Time × Sentence)) : Prop :=
  ∀ sofar, sofar <+: inputs →
    Follows sofar ((GNSSDataManager.manager float pi forwarder).final .new sofar)

/-- No loss is reported behind a fix. -/
def Steady (inputs : List (Time × Sentence)) : Prop := ¬ [true, false].Sublist (reports inputs)

/-! ## 2. One sentence -/

namespace GNSSDataManager

/-- Without a fix nothing is counted. -/
def Clear (m : GNSSDataManager K) : Prop :=
  m.fix = false → m.constInFix = [] ∧ m.nbSatsInFix = 0

/-- What a sentence with a report does to the fix. -/
structure Reported (r : Option Bool) (m m' : GNSSDataManager K) : Prop where
  fix : m'.fix = true ↔ m.fix = true ∨ r = some true
  clear : m.Clear → m'.Clear

theorem Reported.of_same {m m' : GNSSDataManager K} (hfix : m'.fix = m.fix)
    (hconst : m'.constInFix = m.constInFix) (hnb : m'.nbSatsInFix = m.nbSatsInFix) :
    Reported none m m' where
  fix := by simp [hfix]
  clear := by
    intro h hno
    rw [hconst, hnb]
    exact h (hfix ▸ hno)

theorem Reported.of_fix {m m' : GNSSDataManager K} (hfix : m'.fix = true) :
    Reported (some true) m m' where
  fix := by simp [hfix]
  clear := by
    intro _ hno
    rw [hfix] at hno
    exact absurd hno (by decide)

/-- The guard of `lostFix` lets the flag as it is. -/
theorem reported_lostFix (m : GNSSDataManager K) : Reported (some false) m m.lostFix where
  fix := by
    unfold lostFix
    cases h : m.fix <;> simp [h]
  clear := by
    intro h
    unfold lostFix
    split
    · exact fun _ => ⟨rfl, rfl⟩
    · exact h

theorem fix_setFix (m : GNSSDataManager K) (now : Time) : (m.setFix now).fix = true := by
  unfold setFix
  cases h : m.fix <;> simp [h]

/-- Nothing behind `setFix` touches the flag. -/
theorem fix_activeSatellites (float : Bytes → Option K) (m : GNSSDataManager K) (fields : List Bytes) :
    (m.activeSatellites float fields).2.fix = m.fix := by
  unfold activeSatellites
  split
  · rfl
  · split
    · rfl
    · split
      · rfl
      · split
        · rfl
        · split
          · rfl
          · unfold readDops
            dsimp only
            split <;> rfl

theorem adjustSequence_eq [DecidableEq K] (m : GNSSDataManager K) (currentTime : K) :
    ∃ sequence, m.adjustSequence currentTime = { m with sequence, utcTime := currentTime } := by
  unfold adjustSequence
  split
  · exact ⟨_, rfl⟩
  · rename_i h
    rw [not_not] at h
    exact ⟨m.sequence, by rw [h]⟩

theorem item_of_some {fields : List Bytes} {i : Nat} {field : Bytes} (h : fields[i]? = some field) :
    item fields i = .ok field := by
  simp [item, h]

theorem item_of_none {fields : List Bytes} {i : Nat} (h : fields[i]? = none) :
    item fields i = .error .indexError := by
  simp [item, h]

theorem reported_processGSA (float : Bytes → Option K) (m : GNSSDataManager K) (now : Time) (s : Sentence)
    (hformatter : s.formatter = "GSA") (hgn : s.talker = "GN") :
    Reported (report s) m (m.processGSA float now s.talker s.fields).2 := by
  unfold processGSA report
  rw [hgn, hformatter]
  simp only [ne_eq, not_true_eq_false, if_false]
  cases hfield : s.fields[1]? with
  | none =>
    rw [item_of_none hfield]
    exact .of_same rfl rfl rfl
  | some field =>
    rw [item_of_some hfield]
    cases hmode : intOfDecimal field with
    | none =>
      simp only [bind, Except.bind, int10, hmode, Option.bind]
      exact .of_same rfl rfl rfl
    | some mode =>
      simp only [bind, Except.bind, int10, hmode, Option.bind, Option.map_some]
      by_cases h2 : 2 ≤ mode
      · simp only [h2, decide_true, if_true]
        refine .of_fix ?_
        rw [fix_activeSatellites, fix_setFix]
      · simp only [h2, decide_false, if_false]
        have hlost := reported_lostFix { m with mode }
        exact ⟨hlost.fix, hlost.clear⟩

section Arithmetic

variable [Field K] (float : Bytes → Option K) (pi : K) (forwarder : N2KForwarder)

theorem reported_processGSV (m : GNSSDataManager K) (s : Sentence) :
    Reported none m (m.processGSV float pi forwarder s.talker s.fields).2 := by
  unfold processGSV
  split
  · exact .of_same rfl rfl rfl
  · split <;> exact .of_same rfl rfl rfl

variable [DecidableEq K]

theorem reported_processGGA (m : GNSSDataManager K) (now : Time) (s : Sentence)
    (hformatter : s.formatter = "GGA") (hgn : s.talker = "GN") :
    Reported (report s) m (m.processGGA float now s.talker s.fields).2 := by
  unfold processGGA report
  rw [hgn, hformatter]
  simp only [ne_eq, not_true_eq_false, if_false]
  cases hfield : s.fields[5]? with
  | none =>
    rw [item_of_none hfield]
    exact .of_same rfl rfl rfl
  | some quality =>
    rw [item_of_some hfield]
    simp only [Option.map_some]
    by_cases h0 : quality = ascii "0"
    · simp only [h0, if_true, decide_false, not_true_eq_false]
      exact reported_lostFix m
    · simp only [h0, if_false, not_false_eq_true, decide_true]
      refine .of_fix ?_
      split
      · exact fix_setFix m now
      · rename_i currentTime _
        obtain ⟨sequence, hseq⟩ := (m.setFix now).adjustSequence_eq currentTime
        rw [hseq]
        split <;> exact fix_setFix m now

theorem reported_processRMC (m : GNSSDataManager K) (s : Sentence) (hformatter : s.formatter = "RMC") :
    Reported (report s) m (m.processRMC s.fields).2 := by
  unfold processRMC report
  rw [hformatter]
  cases hfield : s.fields[1]? with
  | none =>
    rw [item_of_none hfield]
    exact .of_same rfl rfl rfl
  | some status =>
    rw [item_of_some hfield]
    simp only [Option.bind_some]
    split
    · exact reported_lostFix m
    · split
      · exact .of_same rfl rfl rfl
      · rename_i currentTime _
        obtain ⟨sequence, hseq⟩ := m.adjustSequence_eq currentTime
        rw [hseq]
        exact .of_same rfl rfl rfl

/-- **A sentence sets the flag if it reports a fix, and never clears it.** -/
theorem reported_processNmea0183 (m : GNSSDataManager K) (now : Time) (s : Sentence)
    (hgn : s.talker = "GN") :
    Reported (report s) m (m.processNmea0183 float pi forwarder now s).2 := by
  unfold processNmea0183
  split
  · rename_i hformatter
    have hreport : report s = none := by simp [report, hformatter]
    have hgsv := reported_processGSV float pi forwarder m s
    rw [hreport]
    split
    · rename_i hresult
      rw [hresult] at hgsv
      exact hgsv
    · rename_i hresult
      rw [hresult] at hgsv
      exact hgsv
  · rename_i hformatter
    exact reported_processGSA float m now s hformatter hgn
  · rename_i hformatter
    exact reported_processGGA float m now s hformatter hgn
  · rename_i hformatter
    exact reported_processRMC m s hformatter
  · have hreport : report s = none := by
      unfold report
      split <;> first | contradiction | rfl
    rw [hreport]
    exact .of_same rfl rfl rfl

/-! ## 3. Runs -/

/-- **The flag tells whether a fix was ever reported.** -/
theorem reported_final (m : GNSSDataManager K) {inputs : List (Time × Sentence)}
    (hgn : ∀ i ∈ inputs, i.2.talker = "GN") :
    (((manager float pi forwarder).final m inputs).fix = true ↔
        m.fix = true ∨ true ∈ reports inputs) ∧
      (m.Clear → ((manager float pi forwarder).final m inputs).Clear) := by
  induction inputs generalizing m with
  | nil => simp [reports]
  | cons i inputs ih =>
    have hstep := reported_processNmea0183 float pi forwarder m i.1 i.2 (hgn i (by simp))
    obtain ⟨hfix, hclear⟩ := ih (m.processNmea0183 float pi forwarder i.1 i.2).2
      (fun j hj => hgn j (List.mem_cons_of_mem i hj))
    have hreports : true ∈ reports (i :: inputs) ↔
        report i.2 = some true ∨ true ∈ reports inputs := by
      unfold reports
      rw [List.filterMap_cons]
      cases report i.2 with
      | none => simp
      | some b => simp [eq_comm]
    rw [hreports, ← or_assoc, ← hstep.fix]
    exact ⟨hfix, fun h => hclear (hstep.clear h)⟩

/-- Where the last report stands behind a fix, it is a fix in a steady run. -/
theorem getLast?_of_steady {l : List Bool} (hsteady : ¬ [true, false].Sublist l) (h : true ∈ l) :
    l.getLast? = some true := by
  rcases List.eq_nil_or_concat l with rfl | ⟨front, last, rfl⟩
  · exact absurd h List.not_mem_nil
  · rw [List.concat_eq_append] at h hsteady ⊢
    rw [List.getLast?_append, List.getLast?_singleton, Option.some_or]
    cases last with
    | true => rfl
    | false =>
      have hfront : true ∈ front := by simpa using h
      have hsub := (List.singleton_sublist.mpr hfront).append (List.Sublist.refl [false])
      exact absurd hsub hsteady

/-- A list with a loss behind a fix has a prefix that ends with that loss. -/
theorem exists_prefix_of_not_steady {l : List Bool} (h : [true, false].Sublist l) :
    ∃ front back, l = (front ++ [false]) ++ back ∧ true ∈ front := by
  obtain ⟨l1, l2, rfl, h1, h2⟩ := List.append_sublist_iff.mp
    (show ([true] ++ [false]).Sublist l from h)
  obtain ⟨a, b, rfl⟩ := List.append_of_mem (List.singleton_sublist.mp h2)
  exact ⟨l1 ++ a, b, by simp, List.mem_append_left a (List.singleton_sublist.mp h1)⟩

/-- **The fix follows the receiver in a run exactly when no loss is reported
behind a fix.** -/
theorem followsReceiver_iff_steady {inputs : List (Time × Sentence)}
    (hgn : ∀ i ∈ inputs, i.2.talker = "GN") :
    FollowsReceiver float pi forwarder inputs ↔ Steady inputs := by
  constructor
  · intro hfollows hloss
    obtain ⟨front, back, hsplit, hmem⟩ := exists_prefix_of_not_steady hloss
    unfold reports at hsplit
    obtain ⟨sofar, rest, rfl, hsofar, -⟩ := List.filterMap_eq_append_iff.mp hsplit
    have hreports : reports sofar = front ++ [false] := hsofar
    have hfinal := (reported_final float pi forwarder (new : GNSSDataManager K)
      (fun i hi => hgn i (List.mem_append_left rest hi))).1
    have hlast := (hfollows sofar (List.prefix_append sofar rest)).1
    rw [hfinal, hreports] at hlast
    have hcontra := hlast.mp (.inr (List.mem_append_left [false] hmem))
    exact absurd hcontra (by simp)
  · intro hsteady sofar hfront
    have hgn' : ∀ i ∈ sofar, i.2.talker = "GN" := fun i hi => hgn i (hfront.subset hi)
    obtain ⟨hfinal, hclear⟩ := reported_final float pi forwarder (new : GNSSDataManager K) hgn'
    refine ⟨?_, hclear (fun _ => ⟨rfl, rfl⟩)⟩
    rw [hfinal]
    have hsofar : ¬ [true, false].Sublist (reports sofar) := by
      intro hsub
      exact hsteady (hsub.trans (hfront.sublist.filterMap _))
    constructor
    · rintro (hnew | hmem)
      · exact absurd hnew (by simp [new])
      · exact getLast?_of_steady hsofar hmem
    · intro hlast
      exact .inr (List.mem_of_getLast? hlast)

end Arithmetic

/-- A GSA sentence of the satellites 5 and 12, or without one, and its mode. -/
def gsa (mode : String) (sats : List String) : Time × Sentence :=
  (0, { talker := "GN", formatter := "GSA",
        fields := ([["A", mode], sats, List.replicate (12 - sats.length) "",
          ["2", "1", "1", "1"]].flatten).map ascii })

/-- Whole numbers as numbers with a fraction. -/
def wholeFloat (field : Bytes) : Option ℚ := (intOfDecimal field).map (fun n => (n : ℚ))

/-- A first fix behind a sentence without one. -/
theorem followsReceiver_gsa :
    FollowsReceiver wholeFloat 3 ⟨[], none⟩ [gsa "1" [], gsa "3" ["5", "12"]] :=
  (followsReceiver_iff_steady wholeFloat 3 ⟨[], none⟩ (by decide)).mpr (by unfold Steady; decide)

/-- A loss behind a fix leaves the flag and the satellites as they were. -/
theorem not_followsReceiver_gsa :
    ¬ FollowsReceiver wholeFloat 3 ⟨[], none⟩ [gsa "3" ["5", "12"], gsa "1" []] := by
  intro h
  have hfix : ((manager wholeFloat 3 ⟨[], none⟩).final .new
      [gsa "3" ["5", "12"], gsa "1" []]).fix = true := by decide
  have hlast := (h _ (List.prefix_refl _)).1.mp hfix
  exact absurd hlast (by decide)

end GNSSDataManager

end NavigationServer.Gnss
