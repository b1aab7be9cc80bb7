/-
NavigationServer.LogReplay.TickIndexTheorems — where a move lands, and when the
lock is given back.

The entry of a boundary is the first record that reaches it, or the record behind
the entry before (`getElem?_tickTable`). A move to a date takes the entry of the
boundary one interval behind the nearest one, so the record that it finds is later
than the target, and near it only when the records behind the target are few or
far. The lock is kept by every call of `move_forward`, by a move to something that
is no date, and by reading before the references are set.

The entries are found by induction on the times, for every number of records and boundaries
that the loop has behind it: a time before the next boundary counts a record, another one
makes an entry. The calls are then looked at one by one, each with a free lock: what it
leaves of the loaded log, and whether it gives the lock back (`Releases`).
-/
import NavigationServer.Lib.Lists
import NavigationServer.LogReplay.ReplayTheorems
import NavigationServer.LogReplay.TickIndex

namespace NavigationServer.LogReplay

open NavigationServer.Lib

namespace LoadedLog

/-! ## 1. The tick table -/

section Table

variable {t0 tick : Int}

/-- The times before the boundary of a number. -/
def before (t0 tick : Int) (times : List Int) (boundary : Nat) : Nat :=
  times.countP (· < t0 + tick * boundary)

/-- The times up to one. -/
def upTo (times : List Int) (time : Int) : Nat := times.countP (· ≤ time)

/-- No time stands before a boundary that the first one has reached. -/
theorem before_eq_zero {times : List Int} {ts : Int}
    (hts : ∀ a ∈ times, ts ≤ a) {boundary : Nat} (h : t0 + tick * boundary ≤ ts) :
    before t0 tick (ts :: times) boundary = 0 ∧ before t0 tick times boundary = 0 := by
  have hnone : before t0 tick times boundary = 0 := by
    refine List.countP_eq_zero.mpr ?_
    intro a ha
    have := hts a ha
    simp only [decide_eq_true_eq]
    omega
  refine ⟨?_, hnone⟩
  rw [before, List.countP_cons, if_neg (by simp only [decide_eq_true_eq]; omega)]
  exact hnone

/-- A record before the boundary is counted. -/
theorem before_cons_of_lt {times : List Int} {ts : Int} {boundary : Nat}
    (h : ts < t0 + tick * boundary) :
    before t0 tick (ts :: times) boundary = before t0 tick times boundary + 1 := by
  rw [before, List.countP_cons, if_pos (decide_eq_true h)]
  rfl

/-- **The entries of the table.** An entry stands before `bound` when every
boundary up to its own leaves a record for each boundary between. -/
theorem getElem?_tickTable (htick : 0 ≤ tick) {times : List Int} (hsorted : times.Pairwise (· ≤ ·))
    {nbRecord nbTick m p : Nat} (h : (tickTable t0 tick times nbRecord nbTick)[m]? = some p) (bound : Nat) :
    p < bound ↔ ∀ j ≤ m, nbRecord + before t0 tick times (nbTick + j + 1) + (m - j) < bound := by
  induction times generalizing nbRecord nbTick m with
  | nil => cases h
  | cons ts times ih =>
    obtain ⟨hts, htimes⟩ := List.pairwise_cons.mp hsorted
    rw [tickTable] at h
    split at h
    · rename_i hreach
      have hreach : t0 + tick * ((nbTick + 1 : Nat) : Int) ≤ ts := by
        push_cast
        exact hreach
      have hfirst := (before_eq_zero hts hreach).1
      cases m with
      | zero =>
        obtain rfl : nbRecord = p := Option.some.inj h
        constructor
        · intro hlt j hj
          obtain rfl : j = 0 := Nat.le_zero.mp hj
          rw [Nat.add_zero nbTick, hfirst]
          exact hlt
        · intro hall
          have := hall 0 (Nat.le_refl 0)
          omega
      | succ m =>
        rw [List.getElem?_cons_succ] at h
        rw [ih htimes h]
        constructor
        · intro hall j hj
          cases j with
          | zero =>
            have := hall 0 (Nat.zero_le m)
            rw [Nat.add_zero nbTick, hfirst]
            omega
          | succ j =>
            have hprev := hall j (by omega)
            rw [show nbTick + 1 + j + 1 = nbTick + (j + 1) + 1 by omega] at hprev
            rcases lt_or_ge ts (t0 + tick * ((nbTick + (j + 1) + 1 : Nat) : Int)) with hlt | hge
            · rw [before_cons_of_lt hlt]
              omega
            · obtain ⟨hcons, htail⟩ := before_eq_zero hts hge
              rw [hcons]
              omega
        · intro hall j hj
          have hzero := hall 0 (Nat.zero_le _)
          have hnext := hall (j + 1) (by omega)
          rw [show nbTick + 1 + j + 1 = nbTick + (j + 1) + 1 by omega]
          rcases lt_or_ge ts (t0 + tick * ((nbTick + (j + 1) + 1 : Nat) : Int)) with hlt | hge
          · rw [before_cons_of_lt hlt] at hnext
            omega
          · obtain ⟨hcons, htail⟩ := before_eq_zero hts hge
            rw [htail]
            omega
    · rename_i hreach
      rw [ih htimes h]
      have hlt : ∀ j, ts < t0 + tick * ((nbTick + j + 1 : Nat) : Int) := by
        intro j
        have hmono : tick * (nbTick + 1) ≤ tick * ((nbTick + j + 1 : Nat) : Int) :=
          mul_le_mul_of_nonneg_left (by push_cast; omega) htick
        omega
      refine forall_congr' fun j => imp_congr_right fun hj => ?_
      rw [before_cons_of_lt (hlt j)]
      omega

/-- An entry is the number of a record. -/
theorem mem_tickTable_lt {times : List Int} {nbRecord nbTick p : Nat}
    (h : p ∈ tickTable t0 tick times nbRecord nbTick) : p < nbRecord + times.length := by
  induction times generalizing nbRecord nbTick with
  | nil => exact absurd h List.not_mem_nil
  | cons ts times ih =>
    rw [tickTable] at h
    rw [List.length_cons]
    split at h
    · rcases List.mem_cons.mp h with rfl | h
      · omega
      · have := ih h
        omega
    · have := ih h
      omega

/-- The record of an entry is near the target, or the first one behind a gap. -/
def NearTime (times : List Int) (tick target : Int) (p : Nat) : Prop :=
  ∃ t, times[p]? = some t ∧ (|t - target| ≤ tick ∨
    ∃ prev, 0 < p ∧ times[p - 1]? = some prev ∧ prev ≤ target ∧ target ≤ t)

/-- Each boundary up to number `k`, from any one on, leaves a record for each
boundary between, and the last of these is one of the first `bound` records. -/
def EntersBefore (times : List Int) (t0 tick : Int) (k bound : Nat) : Prop :=
  ∀ j ≤ k, before t0 tick times (j + 1) + (k - j) < bound

/-- **Where an entry is near a target** that lies before its boundary. -/
theorem nearTime_iff {rest : List Int} (htick : 0 < tick) (hsorted : (t0 :: rest).Pairwise (· ≤ ·))
    {target : Int} {k p : Nat} (htarget : target < t0 + tick * (k + 1 : Nat))
    (h : (tickTable t0 tick rest 1 0)[k]? = some p) :
    NearTime (t0 :: rest) tick target p ↔
      EntersBefore (t0 :: rest) t0 tick k (upTo (t0 :: rest) (target + tick)) ∨
      EntersBefore (t0 :: rest) t0 tick k (upTo (t0 :: rest) target + 1) := by
  obtain ⟨hfirst, hrest⟩ := List.pairwise_cons.mp hsorted
  have hbefore : ∀ j : Nat, before t0 tick (t0 :: rest) (j + 1) = before t0 tick rest (j + 1) + 1 := by
    intro j
    have hpos : 0 < tick * ((j + 1 : Nat) : Int) := mul_pos htick (by push_cast; omega)
    exact before_cons_of_lt (by omega)
  have hbound : ∀ bound, p < bound ↔ EntersBefore (t0 :: rest) t0 tick k bound := by
    intro bound
    rw [getElem?_tickTable (le_of_lt htick) hrest h bound, EntersBefore]
    refine forall_congr' fun j => imp_congr_right fun hj => ?_
    rw [hbefore, Nat.zero_add]
    omega
  have hlength : p < (t0 :: rest).length := by
    have := mem_tickTable_lt (List.mem_of_getElem? h)
    rw [List.length_cons]
    omega
  obtain ⟨t, ht⟩ : ∃ t, (t0 :: rest)[p]? = some t := ⟨_, List.getElem?_eq_getElem hlength⟩
  have hlt : ∀ time : Int, t < time ↔ p < (t0 :: rest).countP (· < time) := by
    intro time
    rw [← iff_lt_countP (hsorted.imp fun hab hb => ?_) ht, decide_eq_true_eq]
    rw [decide_eq_true_eq] at hb ⊢
    omega
  have hle : ∀ {q : Nat} {x : Int}, (t0 :: rest)[q]? = some x → ∀ time : Int,
      x ≤ time ↔ q < upTo (t0 :: rest) time := by
    intro q x hx time
    rw [upTo, ← iff_lt_countP (hsorted.imp fun hab hb => ?_) hx, decide_eq_true_eq]
    rw [decide_eq_true_eq] at hb ⊢
    omega
  -- the record of the entry has reached the boundary, so it is behind the target
  have hreach : target < t := by
    have hnot : ¬ t < t0 + tick * ((k + 1 : Nat) : Int) := by
      rw [hlt]
      intro hcount
      have := (hbound _).mp hcount k (Nat.le_refl k)
      change before t0 tick (t0 :: rest) (k + 1) + (k - k) < before t0 tick (t0 :: rest) (k + 1) at this
      omega
    omega
  have hpos : 0 < p := by
    by_contra hzero
    have hone := (hbound 1).mp (by omega) 0 (Nat.zero_le k)
    rw [hbefore] at hone
    omega
  have hprev : p - 1 < (t0 :: rest).length := by omega
  have hgap : (∃ prev, 0 < p ∧ (t0 :: rest)[p - 1]? = some prev ∧ prev ≤ target ∧ target ≤ t)
      ↔ p < upTo (t0 :: rest) target + 1 := by
    constructor
    · rintro ⟨prev, -, hget, hlow, -⟩
      have := (hle hget target).mp hlow
      omega
    · intro hcount
      have hget := List.getElem?_eq_getElem hprev
      exact ⟨_, hpos, hget, (hle hget target).mpr (by omega), le_of_lt hreach⟩
  have hnear : |t - target| ≤ tick ↔ p < upTo (t0 :: rest) (target + tick) := by
    rw [← hle ht, abs_of_pos (by omega)]
    omega
  rw [← hbound, ← hbound, ← hnear, ← hgap]
  unfold NearTime
  rw [ht]
  constructor
  · rintro ⟨_, heq, hcases⟩
    cases heq
    exact hcases
  · intro hcases
    exact ⟨t, rfl, hcases⟩

end Table

/-! ## 2. What the calls keep -/

/-- What `load_file` has found, and no call changes. -/
def loaded (log : LoadedLog) : List RawLogRecord × Nat × List Nat × Nat × DateTime :=
  (log.file.records, log.tickInterval, log.tickIndex, log.nbTick, log.startDate)

/-- The table is that of the records. -/
structure Loaded (log : LoadedLog) : Prop where
  first : ∃ first rest, log.file.records = first :: rest ∧ log.startDate = first.timestamp
  table : log.tickIndex = tickTable (microseconds log.startDate) log.tick (times log.file).tail 1 0
  nbTick : log.nbTick = log.tickIndex.length

/-- The invariant is about what a load has set. -/
theorem Loaded.congr {log log' : LoadedLog} (h : log.Loaded) (hsame : log'.loaded = log.loaded) :
    log'.Loaded := by
  simp only [loaded, Prod.mk.injEq] at hsame
  obtain ⟨hrecords, hinterval, hindex, hnb, hstart⟩ := hsame
  refine ⟨?_, ?_, ?_⟩
  · rw [hrecords, hstart]
    exact h.first
  · rw [hindex, hstart, tick, hinterval, times, hrecords]
    exact h.table
  · rw [hnb, hindex]
    exact h.nbTick

/-- A load sets the records and the table, and leaves the lock free. -/
theorem loaded_loadFile {text : Bytes} {tickInterval : Nat} {log : LoadedLog}
    (h : loadFile text tickInterval = .ok log) :
    log.Loaded ∧ log.locked = false ∧ log.tickInterval = tickInterval := by
  unfold loadFile at h
  obtain ⟨file, hfile, h⟩ := bind_eq_ok.mp h
  obtain ⟨first, hfirst, h⟩ := bind_eq_ok.mp h
  cases h
  refine ⟨⟨?_, rfl, rfl⟩, rfl, rfl⟩
  unfold item at hfirst
  cases hrecords : file.records with
  | nil => rw [hrecords] at hfirst; cases hfirst
  | cons r rest =>
    rw [hrecords] at hfirst
    cases hfirst
    exact ⟨first, rest, rfl, rfl⟩

/-- Setting the references at a record. -/
theorem setReferences_eq (log : LoadedLog) {r : RawLogRecord}
    (h : log.file.records[log.file.index]? = some r) :
    log.setReferences = .ok { log with
      file := { log.file with previousRecord := some r, firstRecord := true },
      t0 := some r.timestamp } := by
  have hitem : item log.file.records log.file.index = .ok r := by rw [item, h]
  unfold setReferences RawLogFile.setReferences
  rw [hitem]
  rfl

/-- Behind the last record there is no reference to set. -/
theorem setReferences_error (log : LoadedLog) (h : log.file.records[log.file.index]? = none) :
    log.setReferences = .error .indexError := by
  have hitem : item log.file.records log.file.index = .error .indexError := by rw [item, h]
  unfold setReferences
  rw [hitem]
  rfl

/-- A log whose references are set at a record. -/
def atRecord (log : LoadedLog) (p : Nat) (r : RawLogRecord) : LoadedLog :=
  { log with
    file := { log.file with index := p, previousRecord := some r, firstRecord := true },
    t0 := some r.timestamp }

/-- A move to a position gives the lock back, or it raises and leaves it as it is. -/
theorem moveTo_eq (log : LoadedLog) (p : Nat) :
    (∃ r, log.file.records[p]? = some r ∧
      log.moveTo p = (.returned none, { log.atRecord p r with locked := false })) ∨
    (log.file.records[p]? = none ∧
      log.moveTo p = (.raised .indexError, { log with file := { log.file with index := p } })) := by
  unfold moveTo
  cases hr : log.file.records[p]? with
  | none =>
    right
    have herror := setReferences_error { log with file := { log.file with index := p } } hr
    dsimp only
    rw [herror]
    exact ⟨rfl, rfl⟩
  | some r =>
    left
    have hset := setReferences_eq { log with file := { log.file with index := p } } hr
    dsimp only
    rw [hset]
    exact ⟨r, rfl, rfl⟩

/-- The number of an entry is that of a record. -/
theorem Loaded.record {log : LoadedLog} (h : log.Loaded) {k p : Nat} (hp : log.tickIndex[k]? = some p) :
    ∃ r, log.file.records[p]? = some r := by
  obtain ⟨first, rest, hrecords, -⟩ := h.first
  rw [h.table] at hp
  have hlt := mem_tickTable_lt (List.mem_of_getElem? hp)
  rw [times, hrecords, List.map_cons, List.tail_cons, List.length_map] at hlt
  refine ⟨_, List.getElem?_eq_getElem ?_⟩
  rw [hrecords, List.length_cons]
  omega

/-- **What a move to a date does**: it takes the entry of the nearest boundary, or
raises when there is none. -/
theorem Loaded.moveToDate {log : LoadedLog} (h : log.Loaded) (hlocked : log.locked = false)
    (hinterval : log.tickInterval ≠ 0) (d : DateTime) :
    (∃ (k p : Nat) (r : RawLogRecord),
      roundHalfEven ((microseconds d - microseconds log.startDate : Int) / log.tick) = k ∧
      log.tickIndex[k]? = some p ∧ log.file.records[p]? = some r ∧
      log.moveToDate (.date d) = (.returned none, { log.atRecord p r with locked := false })) ∨
    log.moveToDate (.date d) = (.raised .valueError, { log with locked := false }) := by
  unfold LoadedLog.moveToDate
  simp only [hlocked, Bool.false_eq_true, if_false, if_neg hinterval]
  split
  · exact Or.inr rfl
  · rename_i hrange
    left
    obtain ⟨k, hk⟩ := Int.eq_ofNat_of_zero_le (Int.not_lt.mp fun hneg => hrange (Or.inl hneg))
    rw [hk] at hrange
    change _ = (k : Int) at hk
    have hlt : k < log.tickIndex.length := by
      rw [← h.nbTick]
      have := Int.not_lt.mp fun hgt => hrange (Or.inr hgt)
      change (k : Int) ≤ (log.nbTick : Int) - 1 at this
      omega
    have hp := List.getElem?_eq_getElem hlt
    obtain ⟨r, hr⟩ := h.record hp
    refine ⟨k, _, r, hk, hp, hr, ?_⟩
    simp only [hk, Int.toNat_natCast, hp]
    rcases moveTo_eq { log with locked := true } log.tickIndex[k] with ⟨r', hr', heq⟩ | ⟨hnone, -⟩
    · obtain rfl : r = r' := Option.some.inj (hr.symm.trans hr')
      exact heq
    · rw [hr] at hnone
      cases hnone

/-- Reading leaves the records. -/
theorem records_readMessage (file : RawLogFile) : file.readMessage.2.records = file.records := by
  unfold RawLogFile.readMessage
  split
  · rfl
  · dsimp only
    split <;> rfl

/-- Nor does any call change what was loaded: a move to a position, -/
theorem loaded_moveTo (log : LoadedLog) (p : Nat) : (log.moveTo p).2.loaded = log.loaded := by
  rcases moveTo_eq log p with ⟨r, -, heq⟩ | ⟨-, heq⟩
  · rw [heq]
    rfl
  · rw [heq]
    rfl

/-- setting the references, -/
theorem loaded_prepareRead (log : LoadedLog) (first : Nat) :
    (log.prepareRead first).2.loaded = log.loaded := by
  unfold LoadedLog.prepareRead
  dsimp only
  cases hr : log.file.records[first]? with
  | none =>
    rw [setReferences_error { log with file := { log.file with index := first } } hr]
    rfl
  | some r =>
    rw [setReferences_eq { log with file := { log.file with index := first } } hr]
    rfl

/-- reading, -/
theorem loaded_readMessage (log : LoadedLog) : log.readMessage.2.loaded = log.loaded := by
  have hrecords := records_readMessage log.file
  unfold LoadedLog.readMessage
  split
  · rfl
  · split
    · rename_i e file hread
      rw [hread] at hrecords
      simp only [loaded]
      rw [← hrecords]
    · rename_i record file hread
      rw [hread] at hrecords
      split
      · simp only [loaded]
        rw [← hrecords]
      · simp only [loaded]
        rw [← hrecords]

/-- a move forward, -/
theorem loaded_moveForward (log : LoadedLog) : log.moveForward.2.loaded = log.loaded := by
  unfold LoadedLog.moveForward
  split
  · rfl
  · dsimp only
    split <;> rfl

/-- a move to a date, -/
theorem loaded_moveToDate (log : LoadedLog) (target : TargetDate) :
    (log.moveToDate target).2.loaded = log.loaded := by
  unfold LoadedLog.moveToDate
  split
  · rfl
  · dsimp only
    split
    · rfl
    · split
      · rfl
      · split
        · rfl
        · split
          · exact loaded_moveTo _ _
          · rfl

/-- or a restart. -/
theorem loaded_restart (log : LoadedLog) : log.restart.2.loaded = log.loaded := by
  unfold LoadedLog.restart
  split
  · rfl
  · exact loaded_moveTo _ _

/-- No call changes what is loaded. -/
theorem loaded_call (log : LoadedLog) (c : LogCall) : (log.call c).2.loaded = log.loaded := by
  cases c with
  | prepareRead first => exact loaded_prepareRead log first
  | readMessage => exact loaded_readMessage log
  | moveForward seconds => exact loaded_moveForward log
  | moveToDate target => exact loaded_moveToDate log target
  | restart => exact loaded_restart log

/-! ## 3. The lock -/

/-- A call gives the lock back: a move has a date for its target, and a record is
read when the references are set, or at the end. -/
def Releases (log : LoadedLog) : LogCall → Prop
  | .prepareRead _ => True
  | .readMessage => log.file.firstRecord ∨ log.t0.isSome ∨ log.file.records.length ≤ log.file.index + 1
  | .moveForward _ => False
  | .moveToDate (.date _) => log.tickInterval ≠ 0
  | .moveToDate .other => False
  | .restart => True

/-- A move to a record gives the lock back. -/
theorem locked_moveTo (log : LoadedLog) {p : Nat} {r : RawLogRecord}
    (hr : log.file.records[p]? = some r) : (log.moveTo p).2.locked = false := by
  rcases moveTo_eq log p with ⟨r', -, heq⟩ | ⟨hnone, -⟩
  · rw [heq]
  · rw [hr] at hnone
    cases hnone

/-- Setting the references does not take it. -/
theorem locked_prepareRead (log : LoadedLog) (first : Nat) :
    (log.prepareRead first).2.locked = log.locked := by
  unfold LoadedLog.prepareRead
  dsimp only
  cases hr : log.file.records[first]? with
  | none => rw [setReferences_error { log with file := { log.file with index := first } } hr]
  | some r => rw [setReferences_eq { log with file := { log.file with index := first } } hr]

/-- Reading gives it back behind the references only. -/
theorem locked_readMessage_iff {log : LoadedLog} (h : log.locked = false) :
    log.readMessage.2.locked = false ↔ log.Releases .readMessage := by
  unfold LoadedLog.readMessage Releases RawLogFile.readMessage
  simp only [h, Bool.false_eq_true, if_false]
  cases hfirst : log.file.firstRecord with
  | true => simp
  | false =>
    cases hr : log.file.records[log.file.index + 1]? with
    | none =>
      have hlength := List.getElem?_eq_none_iff.mp hr
      simp [hlength]
    | some r =>
      have hlength := (List.getElem?_eq_some_iff.mp hr).1
      cases log.t0 <;> simp [hlength]

/-- A move forward takes it and keeps it. -/
theorem locked_moveForward {log : LoadedLog} (h : log.locked = false) :
    log.moveForward.2.locked = true := by
  unfold LoadedLog.moveForward
  simp only [h, Bool.false_eq_true, if_false]
  split <;> rfl

/-- A move to a date gives it back when its target is a date and there is an interval. -/
theorem locked_moveToDate_iff {log : LoadedLog} (hloaded : log.Loaded) (h : log.locked = false)
    (target : TargetDate) :
    (log.moveToDate target).2.locked = false ↔ log.Releases (.moveToDate target) := by
  cases target with
  | other =>
    refine iff_of_false ?_ id
    unfold LoadedLog.moveToDate
    simp [h]
  | date d =>
    by_cases hinterval : log.tickInterval = 0
    · refine iff_of_false ?_ (fun hne => hne hinterval)
      unfold LoadedLog.moveToDate
      simp [h, hinterval]
    · refine iff_of_true ?_ hinterval
      rcases hloaded.moveToDate h hinterval d with ⟨k, p, r, -, -, -, heq⟩ | heq
      · rw [heq]
      · rw [heq]

/-- **Which calls give the lock back.** -/
theorem locked_call_iff {log : LoadedLog} (hloaded : log.Loaded) (h : log.locked = false) (c : LogCall) :
    (log.call c).2.locked = false ↔ log.Releases c := by
  cases c with
  | prepareRead first =>
    refine iff_of_true ?_ trivial
    exact (locked_prepareRead log first).trans h
  | readMessage => exact locked_readMessage_iff h
  | moveForward seconds =>
    refine iff_of_false ?_ id
    change ¬ log.moveForward.2.locked = false
    rw [locked_moveForward h]
    exact fun hfalse => Bool.noConfusion hfalse
  | moveToDate target => exact locked_moveToDate_iff hloaded h target
  | restart =>
    refine iff_of_true ?_ trivial
    obtain ⟨first, rest, hrecords, -⟩ := hloaded.first
    change log.restart.2.locked = false
    unfold LoadedLog.restart
    rw [if_neg (by rw [h]; exact Bool.false_ne_true)]
    have hr : log.file.records[0]? = some first := by rw [hrecords]; rfl
    exact locked_moveTo { log with locked := true } hr

/-! ## 4. Reading from a position -/

/-- With a free lock and its references the log reads as its file does. -/
theorem readMessage_of_ok {log : LoadedLog} (hlocked : log.locked = false) (ht0 : log.t0.isSome)
    {file : RawLogFile} {record : Option RawLogRecord} (h : log.file.readMessage = (.ok record, file)) :
    log.readMessage = (.returned record, { log with file }) := by
  unfold LoadedLog.readMessage
  simp only [hlocked, Bool.false_eq_true, if_false, h]
  rw [if_pos (Or.inr ht0)]

/-- What the file reads is read from the log. -/
theorem readsToEof_of_file {log : LoadedLog} (hlocked : log.locked = false) (ht0 : log.t0.isSome)
    {rs : List RawLogRecord} (h : log.file.ReadsToEof rs) : log.ReadsToEof rs := by
  generalize hfile : log.file = file at h
  induction h generalizing log with
  | @eof _ after h =>
    refine .eof (?_ : _ = (_, { log with file := after }))
    unfold LoadedLog.readMessage
    simp only [hlocked, Bool.false_eq_true, if_false, hfile, h]
  | next h hrest ih =>
    rw [← hfile] at h
    exact .next (readMessage_of_ok hlocked ht0 h) (ih hlocked ht0 rfl)

/-- **From a position the records are read in their order.** -/
theorem readsToEof_atRecord (log : LoadedLog) {p : Nat} {r : RawLogRecord}
    (hr : log.file.records[p]? = some r) :
    { log.atRecord p r with locked := false }.ReadsToEof (log.file.records.drop p) := by
  refine readsToEof_of_file rfl rfl ?_
  have hdrop : log.file.records.drop p = r :: log.file.records.drop (p + 1) := by
    obtain ⟨hlt, hget⟩ := List.getElem?_eq_some_iff.mp hr
    rw [List.drop_eq_getElem_cons hlt, hget]
  rw [hdrop]
  exact .next rfl (RawLogFile.readsToEof_rest rfl _ rfl)

/-! ## 5. All moves and all calls -/

/-- The record at the new position is near the target or the first one behind a
gap, and it and all later ones are read once, in their order. -/
def LandsNear (log log' : LoadedLog) (target : DateTime) : Prop :=
  log'.ReadsToEof (log.file.records.drop log'.file.index) ∧
    NearTime (times log.file) log.tick (microseconds target) log'.file.index

/-- The boundary that is nearest to the target. -/
def nearest (log : LoadedLog) (target : DateTime) : Nat :=
  (roundHalfEven ((microseconds target - microseconds log.startDate : Int) / log.tick)).toNat

/-- With a record for each boundary, the boundary behind the nearest one is entered
for a record up to an interval behind the target, or the first one behind it. -/
def InTime (log : LoadedLog) (target : DateTime) : Prop :=
  EntersBefore (times log.file) (microseconds log.startDate) log.tick (log.nearest target)
      (upTo (times log.file) (microseconds target + log.tick)) ∨
    EntersBefore (times log.file) (microseconds log.startDate) log.tick (log.nearest target)
      (upTo (times log.file) (microseconds target) + 1)

/-- The boundary behind the nearest one is later than the target. -/
theorem lt_of_roundHalfEven {target start tick : Int} (htick : 0 < tick) {k : Nat}
    (h : roundHalfEven ((target - start : Int) / tick) = k) : target < start + tick * (k + 1 : Nat) := by
  have hle := (abs_le.mp (abs_sub_roundHalfEven_le (((target - start : Int) : ℚ) / tick))).2
  have hpos : (0 : ℚ) < tick := by exact_mod_cast htick
  rw [h] at hle
  have hdiv : ((target - start : Int) : ℚ) / tick < (k : ℚ) + 1 := by
    push_cast at hle ⊢
    linarith
  rw [div_lt_iff₀ hpos] at hdiv
  have hint : target - start < ((k : Int) + 1) * tick := by exact_mod_cast hdiv
  rw [mul_comm] at hint
  push_cast
  omega

/-- **Where a move lands near its target.** -/
theorem landsNear_iff {log log' : LoadedLog} (hloaded : log.Loaded)
    (hsorted : (times log.file).Pairwise (· ≤ ·)) {target : DateTime}
    (hmove : log.moveToDate (.date target) = (.returned none, log')) :
    LandsNear log log' target ↔ log.InTime target := by
  have hlocked : log.locked = false := by
    by_contra h
    unfold LoadedLog.moveToDate at hmove
    rw [if_pos (by simpa using h)] at hmove
    cases hmove
  have hinterval : log.tickInterval ≠ 0 := by
    intro h
    unfold LoadedLog.moveToDate at hmove
    simp [hlocked, h] at hmove
  have htick : 0 < log.tick := by
    unfold tick
    omega
  rcases hloaded.moveToDate hlocked hinterval target with ⟨k, p, r, hk, hp, hr, heq⟩ | heq
  · rw [heq] at hmove
    cases hmove
    obtain ⟨first, rest, hrecords, hstart⟩ := hloaded.first
    have htimes : times log.file = microseconds log.startDate :: (times log.file).tail := by
      rw [times, hrecords, List.map_cons, List.tail_cons, hstart]
    have hnearest : log.nearest target = k := by rw [nearest, hk, Int.toNat_natCast]
    rw [hloaded.table] at hp
    rw [htimes] at hsorted
    have hiff := nearTime_iff htick hsorted (lt_of_roundHalfEven htick hk) hp
    rw [← htimes] at hiff
    unfold LandsNear InTime
    rw [hnearest, ← hiff]
    exact and_iff_right (readsToEof_atRecord log hr)
  · rw [heq] at hmove
    cases hmove

/-- **Where moves land near their targets and the lock is given back**, in every
run of a loaded log: the lock is free behind every call exactly when each call
gives it back, and a move that returns lands near its target exactly when the
boundary behind the nearest one is entered in time. -/
theorem moves_iff {text : Bytes} {tickInterval : Nat} {log : LoadedLog}
    (h : loadFile text tickInterval = .ok log) (calls : List LogCall) :
    ((∀ mv ∈ machine.trace log calls, mv.post.locked = false) ↔
      ∀ mv ∈ machine.trace log calls, mv.pre.Releases mv.input) ∧
    ((times log.file).Pairwise (· ≤ ·) → ∀ mv ∈ machine.trace log calls, ∀ target,
      mv.input = .moveToDate (.date target) → mv.output = .returned none →
      (LandsNear mv.pre mv.post target ↔ mv.pre.InTime target)) := by
  obtain ⟨hloaded, hlocked, -⟩ := loaded_loadFile h
  refine ⟨?_, ?_⟩
  · refine machine.trace_forall_iff_of_invariant (fun s => s.Loaded ∧ s.locked = false)
      (fun mv => mv.post.locked = false) Releases ?_ ?_ ⟨hloaded, hlocked⟩ calls
    · rintro s c ⟨hs, hfree⟩
      exact locked_call_iff hs hfree c
    · rintro s c ⟨hs, hfree⟩ hreleases
      exact ⟨hs.congr (loaded_call s c), (locked_call_iff hs hfree c).mpr hreleases⟩
  · intro hsorted mv hmv target hinput houtput
    have hkept := (machine.trace_invariant (fun s => s.loaded = log.loaded) (fun _ _ => True)
      (fun s c hs _ => (loaded_call s c).trans hs) rfl calls (fun _ _ => trivial) mv hmv).1
    have hrecords : mv.pre.file.records = log.file.records := congrArg Prod.fst hkept
    have hstep := Machine.step_of_mem_trace machine hmv
    have hmove : mv.pre.moveToDate (.date target) = (.returned none, mv.post) := by
      rw [hinput, houtput] at hstep
      exact hstep
    refine landsNear_iff (hloaded.congr hkept) ?_ hmove
    rw [times, hrecords]
    exact hsorted

/-- Four records: two of them stand around the first boundary, five minutes from
the start, and one behind the second. -/
def sampleText : Bytes :=
  ascii "H|SocketCANInterface|\nR1#2025-06-01 12:00:00.000000>a\nR2#2025-06-01 12:04:50.000000>b\n" ++
    ascii "R3#2025-06-01 12:05:10.000000>c\nR4#2025-06-01 12:10:10.000000>d\n"

/-- The text of the example is loaded. -/
theorem loadFile_sampleText : ∃ log, loadFile sampleText 300 = .ok log := by
  have hok : (loadFile sampleText 300).toOption.isSome = true := by decide +kernel
  cases h : loadFile sampleText 300 with
  | error e => rw [h] at hok; cases hok
  | ok log => exact ⟨log, rfl⟩

instance (times : List Int) (t0 tick : Int) (k bound : Nat) :
    Decidable (EntersBefore times t0 tick k bound) := by
  unfold EntersBefore
  infer_instance

instance (log : LoadedLog) (target : DateTime) : Decidable (log.InTime target) := by
  unfold InTime
  infer_instance

instance (log : LoadedLog) : ∀ call, Decidable (log.Releases call)
  | .prepareRead _ => inferInstanceAs (Decidable True)
  | .readMessage => inferInstanceAs (Decidable (_ ∨ _))
  | .moveForward _ => inferInstanceAs (Decidable False)
  | .moveToDate (.date _) => inferInstanceAs (Decidable (_ ≠ _))
  | .moveToDate .other => inferInstanceAs (Decidable False)
  | .restart => inferInstanceAs (Decidable True)

/-- Ten seconds behind the start. -/
def startTarget : DateTime := ⟨2025, 6, 1, 12, 0, 10, 0, by decide⟩

/-- The log is started, read once and moved near its start. -/
theorem moves_sampleText : ∃ log, loadFile sampleText 300 = .ok log ∧
    (∀ mv ∈ machine.trace log [.restart, .readMessage, .moveToDate (.date startTarget)],
      mv.post.locked = false) ∧
    ∃ mv ∈ machine.trace log [.restart, .readMessage, .moveToDate (.date startTarget)],
      mv.output = .returned none ∧ LandsNear mv.pre mv.post startTarget := by
  have hcheck : (loadFile sampleText 300).toOption.map (fun log =>
      let read := machine.final log [.restart, .readMessage]
      (decide ((times log.file).Pairwise (· ≤ ·)),
        decide (∀ mv ∈ machine.trace log [.restart, .readMessage, .moveToDate (.date startTarget)],
          mv.pre.Releases mv.input),
        (read.moveToDate (.date startTarget)).1, decide (read.InTime startTarget)))
      = some (true, true, .returned none, true) := by decide +kernel
  obtain ⟨log, h⟩ := loadFile_sampleText
  rw [h] at hcheck
  simp only [Except.toOption, Option.map_some, Option.some.injEq, Prod.mk.injEq, decide_eq_true_eq]
    at hcheck
  obtain ⟨hsorted, hreleases, hmove, hintime⟩ := hcheck
  have hmoves := moves_iff h [.restart, .readMessage, .moveToDate (.date startTarget)]
  refine ⟨log, h, hmoves.1.mpr hreleases, _, List.mem_cons_of_mem _ (List.mem_cons_of_mem _
    (List.mem_singleton_self _)), hmove, ?_⟩
  exact (hmoves.2 hsorted _ (List.mem_cons_of_mem _ (List.mem_cons_of_mem _ (List.mem_singleton_self _)))
    startTarget rfl hmove).mpr hintime

/-- One second before the first boundary. -/
def sampleTarget : DateTime := ⟨2025, 6, 1, 12, 4, 59, 0, by decide⟩

/-- A move to 12:04:59 lands on the record of 12:10:10; and `move_forward`, or
reading at once, keeps the lock. -/
theorem not_moves : ∃ log, loadFile sampleText 300 = .ok log ∧ (times log.file).Pairwise (· ≤ ·) ∧
    (∃ log', log.moveToDate (.date sampleTarget) = (.returned none, log') ∧
      ¬ LandsNear log log' sampleTarget) ∧
    log.moveForward.2.locked = true ∧ log.readMessage.2.locked = true := by
  have hcheck : (loadFile sampleText 300).toOption.map (fun log =>
      (decide ((times log.file).Pairwise (· ≤ ·)), (log.moveToDate (.date sampleTarget)).1,
        decide (log.InTime sampleTarget), log.moveForward.2.locked, log.readMessage.2.locked))
      = some (true, .returned none, false, true, true) := by decide +kernel
  obtain ⟨log, h⟩ := loadFile_sampleText
  rw [h] at hcheck
  simp only [Except.toOption, Option.map_some, Option.some.injEq, Prod.mk.injEq, decide_eq_true_eq,
    decide_eq_false_iff_not] at hcheck
  obtain ⟨hsorted, hmove, hlate, hforward, hread⟩ := hcheck
  refine ⟨log, h, hsorted, ⟨_, Prod.ext hmove rfl, ?_⟩, hforward, hread⟩
  rw [landsNear_iff (loaded_loadFile h).1 hsorted (Prod.ext hmove rfl)]
  exact hlate

end LoadedLog

end NavigationServer.LogReplay
