/-
NavigationServer.CanInterface.Clock — the timers of the applications.

A `Clock` is what the timers see of a node: the state of each application and
the two timers it remembers, the timers that were ever started, and whether the
node is stopped. What a call does to the clock is a sequence of few operations:
an application claims (`claim`), forgets its claim timer (`forget`), a timer
expires, the node stops.

Two invariants stand over it. `Armed`: an application that claims has a claim
timer pending. `Chained`: a pending heartbeat timer is the one its application
remembers, and that application is not stopping. For each operation there is a lemma
for each of them. Three are not without a condition: an application that forgets its
claim timer needs another one, a claim that comes through needs an application that is
not stopping, and that has no heartbeat timer yet.
-/
import NavigationServer.CanInterface.ActiveController
import NavigationServer.Lib.Lists

namespace NavigationServer.CanInterface

open NavigationServer.Lib

/-! ## 1. The clock -/

/-- An application, as its timers see it. -/
structure AppClock where
  state : AppState
  claimTimer : Option Nat
  heartbeatTimer : Option Nat

/-- A node, as the timers see it. -/
structure Clock where
  apps : List AppClock
  timers : List Timer
  stopFlag : Bool

/-- The timer that is remembered. -/
def AppClock.timer (a : AppClock) : TimerKind → Option Nat
  | .claim => a.claimTimer
  | .heartbeat => a.heartbeatTimer

namespace Clock

def modifyApp (c : Clock) (k : Nat) (f : AppClock → AppClock) : Clock :=
  { c with apps := c.apps.modify k f }

/-- A timer is started behind those that were ever started. -/
def start (c : Clock) (k : Nat) (kind : TimerKind) : Clock :=
  { c with timers := c.timers ++ [⟨k, kind, .pending⟩] }

/-- A timer that is remembered is cancelled. One that has fired stays as it is. -/
def cancel (c : Clock) : Option Nat → Clock
  | none => c
  | some i => { c with timers := c.timers.modify i Timer.cancel }

/-- A timer has fired. -/
def fire (c : Clock) (i : Nat) : Clock :=
  { c with timers := c.timers.modify i (fun t => { t with status := .fired }) }

/-- A new application waits for the bus. -/
def add (c : Clock) : Clock :=
  { c with apps := c.apps ++ [⟨.waitForBus, none, none⟩] }

/-- An application claims, unless it is stopping. -/
def claim (c : Clock) (k : Nat) : Clock :=
  match c.apps[k]? with
  | none => c
  | some a =>
      if a.state = .stopInProgress then c
      else
        (c.modifyApp k (fun a =>
          { a with state := .addressClaim, claimTimer := some c.timers.length })).start k .claim

/-- A heartbeat is sent, and the next one is armed. -/
def beat (c : Clock) (k : Nat) : Clock :=
  match c.apps[k]? with
  | none => c
  | some a =>
      if a.state = .stopInProgress then c
      else
        (c.modifyApp k (fun a => { a with heartbeatTimer := some c.timers.length })).start k
          .heartbeat

/-- A claim has come through. -/
def claimed (c : Clock) (k : Nat) : Clock :=
  ((c.modifyApp k (fun a => { a with state := .active })).beat k).modifyApp k
    (fun a => { a with claimTimer := none })

/-- A claim timer is cancelled. -/
def forget (c : Clock) (k : Nat) : Clock :=
  match c.apps[k]? with
  | none => c
  | some a => c.cancel a.claimTimer

/-- An application is told to stop: only its heartbeat timer is cancelled. -/
def stopRequest (c : Clock) (k : Nat) : Clock :=
  match c.apps[k]? with
  | none => c
  | some a => (c.modifyApp k (fun a => { a with state := .stopInProgress })).cancel a.heartbeatTimer

/-- All applications, and then the node. -/
def stop (c : Clock) : Clock :=
  { (List.range c.apps.length).foldl stopRequest c with stopFlag := true }

/-- The callback of a timer that is still pending. -/
def expire (c : Clock) (i : Nat) : Clock :=
  match c.timers[i]? with
  | none => c
  | some timer =>
      if timer.status = .pending then
        match timer.kind with
        | .claim => (c.fire i).claimed timer.app
        | .heartbeat => (c.fire i).beat timer.app
      else c

/-! ## 2. Pending timers -/

/-- The timer of number `i` is pending. -/
def Pending (c : Clock) (k : Nat) (kind : TimerKind) (i : Nat) : Prop :=
  c.timers[i]? = some ⟨k, kind, .pending⟩

section Pending

variable {c : Clock} {k : Nat} {kind : TimerKind} {i : Nat}

/-- A timer that is pending after a start was so before or is the new one. -/
theorem pending_start {k' : Nat} {kind' : TimerKind} :
    (c.start k' kind').Pending k kind i ↔
      c.Pending k kind i ∨ (i = c.timers.length ∧ k = k' ∧ kind = kind') := by
  constructor
  · intro h
    rcases getElem?_concat_some h with h | ⟨hi, heq⟩
    · exact Or.inl h
    · cases heq
      exact Or.inr ⟨hi, rfl, rfl⟩
  · rintro (h | ⟨rfl, rfl, rfl⟩)
    · exact getElem?_concat_of_some _ h
    · exact List.getElem?_concat_length

/-- A cancelled timer is not pending, the others are as they were. -/
theorem pending_cancel {timer : Option Nat} :
    (c.cancel timer).Pending k kind i ↔ c.Pending k kind i ∧ timer ≠ some i := by
  cases timer with
  | none =>
    constructor
    · exact fun h => ⟨h, fun h' => nomatch h'⟩
    · exact fun h => h.1
  | some j =>
    change (c.timers.modify j Timer.cancel)[i]? = _ ↔ c.timers[i]? = _ ∧ _
    rw [List.getElem?_modify]
    rcases eq_or_ne j i with rfl | hji
    · constructor
      · intro h
        obtain ⟨t, ht, heq⟩ := Option.map_eq_some_iff.mp h
        rw [if_pos rfl] at heq
        unfold Timer.cancel at heq
        split at heq
        · cases heq
        · rename_i hstatus
          subst heq
          exact absurd rfl hstatus
      · intro h
        exact absurd rfl h.2
    · constructor
      · intro h
        obtain ⟨t, ht, heq⟩ := Option.map_eq_some_iff.mp h
        rw [if_neg hji] at heq
        subst heq
        exact ⟨ht, fun h' => hji (Option.some.inj h')⟩
      · intro h
        rw [h.1]
        exact congrArg some (if_neg hji)

/-- Neither is one that has fired. -/
theorem pending_fire {j : Nat} :
    (c.fire j).Pending k kind i ↔ c.Pending k kind i ∧ j ≠ i := by
  change (c.timers.modify j _)[i]? = _ ↔ c.timers[i]? = _ ∧ _
  rw [List.getElem?_modify]
  rcases eq_or_ne j i with rfl | hji
  · constructor
    · intro h
      obtain ⟨t, ht, heq⟩ := Option.map_eq_some_iff.mp h
      rw [if_pos rfl] at heq
      cases heq
    · intro h
      exact absurd rfl h.2
  · constructor
    · intro h
      obtain ⟨t, ht, heq⟩ := Option.map_eq_some_iff.mp h
      rw [if_neg hji] at heq
      subst heq
      exact ⟨ht, hji⟩
    · intro h
      rw [h.1]
      exact congrArg some (if_neg hji)

end Pending

/-! ## 3. The operations, field by field -/

section Operations

variable (c : Clock) (k : Nat)

/-- A claim, and a heartbeat, of an application that does not stop. -/
theorem claim_cases :
    (c.claim k = c ∧ ∀ a, c.apps[k]? = some a → a.state = .stopInProgress) ∨
      c.claim k = (c.modifyApp k (fun a =>
        { a with state := .addressClaim, claimTimer := some c.timers.length })).start k .claim := by
  unfold claim
  split
  · rename_i hk
    exact Or.inl ⟨rfl, fun a ha => by rw [hk] at ha; cases ha⟩
  · rename_i a hk
    split
    · rename_i hstop
      refine Or.inl ⟨rfl, ?_⟩
      intro a' ha'
      rw [hk] at ha'
      cases ha'
      exact hstop
    · exact Or.inr rfl

/-- And a heartbeat, which only an application that is there and does not stop sends. -/
theorem beat_cases :
    (c.beat k = c ∧ ∀ a, c.apps[k]? = some a → a.state = .stopInProgress) ∨
      (c.beat k = (c.modifyApp k (fun a =>
        { a with heartbeatTimer := some c.timers.length })).start k .heartbeat ∧
        ∃ a, c.apps[k]? = some a ∧ a.state ≠ .stopInProgress) := by
  unfold beat
  split
  · rename_i hk
    exact Or.inl ⟨rfl, fun a ha => by rw [hk] at ha; cases ha⟩
  · rename_i a hk
    split
    · rename_i hstop
      refine Or.inl ⟨rfl, ?_⟩
      intro a' ha'
      rw [hk] at ha'
      cases ha'
      exact hstop
    · rename_i hstop
      exact Or.inr ⟨rfl, a, hk, hstop⟩

/-- What is at a place when one place is changed. -/
theorem modifyApp_some {f : AppClock → AppClock} {j : Nat} {a : AppClock}
    (h : (c.modifyApp k f).apps[j]? = some a) :
    ∃ a', c.apps[j]? = some a' ∧ a = if k = j then f a' else a' := by
  change (c.apps.modify k f)[j]? = some a at h
  rw [List.getElem?_modify] at h
  obtain ⟨x, hx, heq⟩ := Option.map_eq_some_iff.mp h
  exact ⟨x, hx, heq.symm⟩

/-- A timer that expires. -/
theorem expire_cases (i : Nat) :
    c.expire i = c ∨
      ∃ k, (c.Pending k .claim i ∧ c.expire i = (c.fire i).claimed k) ∨
        (c.Pending k .heartbeat i ∧ c.expire i = (c.fire i).beat k) := by
  unfold expire
  split
  · exact Or.inl rfl
  · rename_i timer htimer
    obtain ⟨k, kind, status⟩ := timer
    split
    · rename_i hstatus
      have hstatus : status = .pending := hstatus
      subst hstatus
      cases kind with
      | claim => exact Or.inr ⟨k, Or.inl ⟨htimer, rfl⟩⟩
      | heartbeat => exact Or.inr ⟨k, Or.inr ⟨htimer, rfl⟩⟩
    · exact Or.inl rfl

end Operations

/-! ## 4. The timers that are remembered -/

/-- The application and the kind of each timer. -/
def owners (c : Clock) : List (Nat × TimerKind) := c.timers.map (fun t => (t.app, t.kind))

/-- A timer that an application remembers is its own. -/
def Owned (c : Clock) : Prop :=
  ∀ (k : Nat) (a : AppClock) (kind : TimerKind) (i : Nat), c.apps[k]? = some a →
    a.timer kind = some i → c.owners[i]? = some (k, kind)

namespace Owned

variable {c : Clock}

/-- An application may come to remember a timer of its own. -/
theorem modifyApp (h : c.Owned) (k : Nat) {f : AppClock → AppClock}
    (hf : ∀ (a : AppClock) (kind : TimerKind) (i : Nat), (f a).timer kind = some i →
      a.timer kind = some i ∨ c.owners[i]? = some (k, kind)) : (c.modifyApp k f).Owned := by
  intro j a kind i hj htimer
  obtain ⟨a', ha', rfl⟩ := c.modifyApp_some k hj
  split at htimer
  · rename_i hkj
    subst hkj
    rcases hf a' kind i htimer with hold | hnew
    · exact h k a' kind i ha' hold
    · exact hnew
  · exact h j a' kind i ha' htimer

/-- The timers keep their numbers. -/
theorem start (h : c.Owned) (k : Nat) (kind : TimerKind) : (c.start k kind).Owned := by
  intro j a kind' i hj htimer
  have howner := h j a kind' i hj htimer
  unfold owners Clock.start
  rw [List.map_append]
  exact getElem?_concat_of_some _ howner

/-- A cancelled timer keeps its owner. -/
theorem owners_cancel (c : Clock) (timer : Option Nat) : (c.cancel timer).owners = c.owners := by
  cases timer with
  | none => rfl
  | some i =>
    refine map_modify _ _ _ _ ?_
    intro t
    unfold Timer.cancel
    split <;> rfl

/-- So does one that has fired. -/
theorem owners_fire (c : Clock) (i : Nat) : (c.fire i).owners = c.owners :=
  map_modify _ _ _ _ (fun _ => rfl)

theorem cancel (h : c.Owned) (timer : Option Nat) : (c.cancel timer).Owned := by
  intro j a kind i hj htimer
  rw [owners_cancel]
  have hj' : c.apps[j]? = some a := by
    cases timer <;> exact hj
  exact h j a kind i hj' htimer

theorem fire (h : c.Owned) (i : Nat) : (c.fire i).Owned := by
  intro j a kind i' hj htimer
  rw [owners_fire]
  exact h j a kind i' hj htimer

/-- The timer that is started last. -/
theorem owners_start_last (c : Clock) (k : Nat) (kind : TimerKind) :
    (c.start k kind).owners[c.timers.length]? = some (k, kind) := by
  unfold owners Clock.start
  rw [List.getElem?_map, List.getElem?_concat_length]
  rfl

/-- A new application remembers no timer. -/
theorem add (h : c.Owned) : c.add.Owned := by
  intro j a kind i hj htimer
  rcases getElem?_concat_some hj with hj | ⟨-, rfl⟩
  · exact h j a kind i hj htimer
  · cases kind <;> cases htimer

/-- The timer that a claim starts is remembered as the claim timer. -/
theorem claim (h : c.Owned) (k : Nat) : (c.claim k).Owned := by
  rcases c.claim_cases k with ⟨hsame, -⟩ | hclaim
  · rw [hsame]
    exact h
  · rw [hclaim]
    refine (h.start k .claim).modifyApp k ?_
    intro a kind i htimer
    cases kind with
    | claim =>
      cases htimer
      exact Or.inr (owners_start_last c k .claim)
    | heartbeat => exact Or.inl htimer

/-- The timer that a heartbeat starts is remembered as the heartbeat timer. -/
theorem beat (h : c.Owned) (k : Nat) : (c.beat k).Owned := by
  rcases c.beat_cases k with ⟨hsame, -⟩ | ⟨hbeat, -⟩
  · rw [hsame]
    exact h
  · rw [hbeat]
    refine (h.start k .heartbeat).modifyApp k ?_
    intro a kind i htimer
    cases kind with
    | claim => exact Or.inl htimer
    | heartbeat =>
      cases htimer
      exact Or.inr (owners_start_last c k .heartbeat)

/-- A claim that has come through is forgotten, behind the first heartbeat. -/
theorem claimed (h : c.Owned) (k : Nat) : (c.claimed k).Owned := by
  refine Owned.modifyApp (Owned.beat (h.modifyApp k ?_) k) k ?_
  · intro a kind i htimer
    cases kind <;> exact Or.inl htimer
  · intro a kind i htimer
    cases kind with
    | claim => cases htimer
    | heartbeat => exact Or.inl htimer

theorem forget (h : c.Owned) (k : Nat) : (c.forget k).Owned := by
  unfold Clock.forget
  split
  · exact h
  · exact h.cancel _

theorem stopRequest (h : c.Owned) (k : Nat) : (c.stopRequest k).Owned := by
  unfold Clock.stopRequest
  split
  · exact h
  · refine (h.modifyApp k ?_).cancel _
    intro a kind i htimer
    cases kind <;> exact Or.inl htimer

/-- One application after the other. -/
theorem stop (h : c.Owned) : c.stop.Owned := by
  have hfold : ∀ (ks : List Nat) (c : Clock), c.Owned → (ks.foldl Clock.stopRequest c).Owned := by
    intro ks
    induction ks with
    | nil => exact fun _ h => h
    | cons k ks ih => exact fun c h => ih _ (h.stopRequest k)
  exact hfold _ c h

/-- Whatever the timer calls. -/
theorem expire (h : c.Owned) (i : Nat) : (c.expire i).Owned := by
  rcases c.expire_cases i with hsame | ⟨k, ⟨-, hclaimed⟩ | ⟨-, hbeat⟩⟩
  · rw [hsame]
    exact h
  · rw [hclaimed]
    exact (h.fire i).claimed k
  · rw [hbeat]
    exact (h.fire i).beat k

end Owned

/-! ## 5. A claim timer is armed -/

/-- Application `k` has a claim timer pending when it claims. -/
def ArmedAt (c : Clock) (k : Nat) : Prop :=
  ∀ a, c.apps[k]? = some a → a.state = .addressClaim → ∃ i, c.Pending k .claim i

/-- No application is stuck, unless the node is stopped. -/
def Armed (c : Clock) : Prop := c.stopFlag = false → ∀ k, c.ArmedAt k

section Armed

variable {c : Clock} {k : Nat}

/-- Only `stop` sets the flag of the node. -/
theorem claim_stopFlag (c : Clock) (k : Nat) : (c.claim k).stopFlag = c.stopFlag := by
  rcases c.claim_cases k with ⟨hsame, -⟩ | hclaim
  · rw [hsame]
  · rw [hclaim]
    rfl

theorem beat_stopFlag (c : Clock) (k : Nat) : (c.beat k).stopFlag = c.stopFlag := by
  rcases c.beat_cases k with ⟨hsame, -⟩ | ⟨hbeat, -⟩
  · rw [hsame]
  · rw [hbeat]
    rfl

theorem forget_stopFlag (c : Clock) (k : Nat) : (c.forget k).stopFlag = c.stopFlag := by
  unfold forget
  split
  · rfl
  · rename_i a _
    cases a.claimTimer <;> rfl

theorem expire_stopFlag (c : Clock) (i : Nat) : (c.expire i).stopFlag = c.stopFlag := by
  rcases c.expire_cases i with hsame | ⟨k, ⟨-, hclaimed⟩ | ⟨-, hbeat⟩⟩
  · rw [hsame]
  · rw [hclaimed]
    exact beat_stopFlag _ k
  · rw [hbeat]
    exact beat_stopFlag _ k

/-- A claim arms its own timer, and disturbs no other application. -/
theorem ArmedAt.claim (k' : Nat) (h : k ≠ k' → c.ArmedAt k) : (c.claim k').ArmedAt k := by
  intro a ha hstate
  rcases c.claim_cases k' with ⟨hsame, hstop⟩ | hclaim
  · rw [hsame] at ha ⊢
    rcases eq_or_ne k k' with rfl | hne
    · rw [hstop a ha] at hstate
      cases hstate
    · exact h hne a ha hstate
  · rw [hclaim] at ha ⊢
    rcases eq_or_ne k k' with rfl | hne
    · exact ⟨c.timers.length, pending_start.mpr (Or.inr ⟨rfl, rfl, rfl⟩)⟩
    · obtain ⟨a', ha', heq⟩ := c.modifyApp_some k' ha
      rw [if_neg (Ne.symm hne)] at heq
      subst heq
      obtain ⟨i, hi⟩ := h hne a ha' hstate
      exact ⟨i, pending_start.mpr (Or.inl hi)⟩

/-- A heartbeat disturbs no claim. -/
theorem ArmedAt.beat (h : c.ArmedAt k) (k' : Nat) : (c.beat k').ArmedAt k := by
  intro a ha hstate
  rcases c.beat_cases k' with ⟨hsame, -⟩ | ⟨hbeat, -⟩
  · rw [hsame] at ha ⊢
    exact h a ha hstate
  · rw [hbeat] at ha ⊢
    obtain ⟨a', ha', heq⟩ := c.modifyApp_some k' ha
    have hstate' : a'.state = .addressClaim := by
      rw [heq] at hstate
      split at hstate <;> exact hstate
    obtain ⟨i, hi⟩ := h a' ha' hstate'
    exact ⟨i, pending_start.mpr (Or.inl hi)⟩

/-- A change that makes no application claim. -/
theorem ArmedAt.modifyApp (h : c.ArmedAt k) (k' : Nat) {f : AppClock → AppClock}
    (hf : ∀ a, (f a).state = .addressClaim → a.state = .addressClaim) :
    (c.modifyApp k' f).ArmedAt k := by
  intro a ha hstate
  obtain ⟨a', ha', heq⟩ := c.modifyApp_some k' ha
  have hstate' : a'.state = .addressClaim := by
    rw [heq] at hstate
    split at hstate
    · exact hf a' hstate
    · exact hstate
  exact h a' ha' hstate'

/-- The timer of another application, or of another kind, fires. -/
theorem ArmedAt.fire (h : c.ArmedAt k) {i : Nat} (hi : ¬ c.Pending k .claim i) :
    (c.fire i).ArmedAt k := by
  intro a ha hstate
  obtain ⟨j, hj⟩ := h a ha hstate
  refine ⟨j, pending_fire.mpr ⟨hj, ?_⟩⟩
  rintro rfl
  exact hi hj

/-- **An application whose claim timer fires is active.** -/
theorem expire_claim {i : Nat} (hi : c.Pending k .claim i) {a : AppClock}
    (ha : (c.expire i).apps[k]? = some a) : a.state = .active := by
  have heq : c.expire i = (c.fire i).claimed k := by
    unfold expire
    rw [hi]
    rfl
  rw [heq] at ha
  obtain ⟨a', ha', rfl⟩ := modifyApp_some _ k ha
  rw [if_pos rfl]
  change a'.state = .active
  rcases beat_cases ((c.fire i).modifyApp k (fun a => { a with state := .active })) k with
    ⟨hsame, -⟩ | ⟨hbeat, -⟩
  · rw [hsame] at ha'
    obtain ⟨a'', -, rfl⟩ := modifyApp_some _ k ha'
    rw [if_pos rfl]
  · rw [hbeat] at ha'
    obtain ⟨a'', ha'', rfl⟩ := modifyApp_some _ k ha'
    obtain ⟨b, -, rfl⟩ := modifyApp_some _ k ha''
    rw [if_pos rfl, if_pos rfl]

/-- Whatever timer expires: with its claim timer the application stops to claim. -/
theorem ArmedAt.expire (h : c.ArmedAt k) (i : Nat) : (c.expire i).ArmedAt k := by
  by_cases hi : c.Pending k .claim i
  · intro a ha hstate
    rw [expire_claim hi ha] at hstate
    cases hstate
  · have hfire := h.fire hi
    rcases c.expire_cases i with hsame | ⟨k', ⟨-, hclaimed⟩ | ⟨-, hbeat⟩⟩
    · rw [hsame]
      exact h
    · rw [hclaimed]
      refine ((hfire.modifyApp k' ?_).beat k').modifyApp k' ?_
      · intro a ha
        cases ha
      · exact fun _ ha => ha
    · rw [hbeat]
      exact hfire.beat k'

/-- A claim timer that is cancelled is that of its application, or there is
another one. -/
theorem ArmedAt.forget (howned : c.Owned) (h : c.ArmedAt k) (k' : Nat)
    (hother : k = k' → ∀ a, c.apps[k]? = some a → a.state = .addressClaim →
      ∃ i, a.claimTimer ≠ some i ∧ c.Pending k .claim i) : (c.forget k').ArmedAt k := by
  unfold Clock.forget
  split
  · exact h
  · rename_i a' ha'
    intro a ha hstate
    have ha : c.apps[k]? = some a := by
      cases hclaim : a'.claimTimer with
      | none =>
        rw [hclaim] at ha
        exact ha
      | some i =>
        rw [hclaim] at ha
        exact ha
    rcases eq_or_ne k k' with rfl | hne
    · rw [ha] at ha'
      cases ha'
      obtain ⟨i, hne, hi⟩ := hother rfl _ ha hstate
      exact ⟨i, pending_cancel.mpr ⟨hi, hne⟩⟩
    · obtain ⟨i, hi⟩ := h a ha hstate
      refine ⟨i, pending_cancel.mpr ⟨hi, ?_⟩⟩
      intro hclaim
      -- the timer that was cancelled is not that of `k`
      have howner := howned k' a' .claim i ha' hclaim
      unfold owners at howner
      rw [List.getElem?_map, hi] at howner
      cases howner
      exact hne rfl

/-- A new application does not claim. -/
theorem Armed.add (h : c.Armed) : c.add.Armed := by
  intro hrun k a ha hstate
  rcases getElem?_concat_some ha with ha | ⟨-, rfl⟩
  · exact h hrun k a ha hstate
  · cases hstate

/-- A claim comes with its timer. -/
theorem Armed.claim (h : c.Armed) (k' : Nat) : (c.claim k').Armed := by
  intro hrun k
  rw [claim_stopFlag] at hrun
  exact ArmedAt.claim k' (fun _ => h hrun k)

/-- A timer expires. -/
theorem Armed.expire (h : c.Armed) (i : Nat) : (c.expire i).Armed := by
  intro hrun k
  rw [expire_stopFlag] at hrun
  exact (h hrun k).expire i

/-- Nothing is asked for a node that is stopped. -/
theorem Armed.stop (c : Clock) : c.stop.Armed := by
  intro hrun
  cases hrun

/-- A timer is cancelled, and the application claims anew. -/
theorem Armed.forget_claim (howned : c.Owned) (h : c.Armed) (k : Nat) :
    ((c.forget k).claim k).Armed := by
  intro hrun j
  rw [claim_stopFlag, forget_stopFlag] at hrun
  refine ArmedAt.claim k ?_
  intro hne
  exact (h hrun j).forget howned k (fun heq => absurd heq hne)

end Armed

/-! ## 6. One chain of heartbeats -/

/-- A heartbeat timer that is pending is the one its application remembers, and
the application is not stopping. -/
def Chained (c : Clock) : Prop :=
  ∀ k i : Nat, c.Pending k .heartbeat i →
    ∃ a, c.apps[k]? = some a ∧ a.heartbeatTimer = some i ∧ a.state ≠ .stopInProgress

/-- Application `k` is stopping. -/
def Stopping (c : Clock) (k : Nat) : Prop :=
  ∃ a, c.apps[k]? = some a ∧ a.state = .stopInProgress

/-- A claim timer expires for an application that is not stopping and has no
heartbeat timer. -/
def StartsChain (c : Clock) (i : Nat) : Prop :=
  ∀ k, c.Pending k .claim i → ¬ c.Stopping k ∧ ∀ j, ¬ c.Pending k .heartbeat j

section Chained

variable {c : Clock} {k : Nat}

/-- An application after the change of one. -/
theorem modifyApp_get {f : AppClock → AppClock} {j : Nat} {a : AppClock}
    (h : c.apps[j]? = some a) :
    (c.modifyApp k f).apps[j]? = some (if k = j then f a else a) := by
  change (c.apps.modify k f)[j]? = _
  rw [List.getElem?_modify, h]
  rfl

/-- A new application has no timer. -/
theorem Chained.add (h : c.Chained) : c.add.Chained := by
  intro k i hi
  obtain ⟨a, ha, htimer, hstate⟩ := h k i hi
  exact ⟨a, getElem?_concat_of_some _ ha, htimer, hstate⟩

/-- With a cancelled timer there is less to say. -/
theorem Chained.cancel (h : c.Chained) (timer : Option Nat) : (c.cancel timer).Chained := by
  intro k i hi
  obtain ⟨a, ha, htimer, hstate⟩ := h k i (pending_cancel.mp hi).1
  refine ⟨a, ?_, htimer, hstate⟩
  cases timer <;> exact ha

/-- With one that fires as well. -/
theorem Chained.fire (h : c.Chained) (i : Nat) : (c.fire i).Chained := by
  intro k j hj
  exact h k j (pending_fire.mp hj).1

/-- A change of an application that has no heartbeat timer pending, or of
another field. -/
theorem Chained.modifyApp (h : c.Chained) (k : Nat) {f : AppClock → AppClock}
    (hf : ∀ a, c.apps[k]? = some a → (∃ i, c.Pending k .heartbeat i) →
      (f a).heartbeatTimer = a.heartbeatTimer ∧
        (a.state ≠ .stopInProgress → (f a).state ≠ .stopInProgress)) :
    (c.modifyApp k f).Chained := by
  intro j i hi
  obtain ⟨a, ha, htimer, hstate⟩ := h j i hi
  refine ⟨_, modifyApp_get ha, ?_⟩
  split
  · rename_i hkj
    subst hkj
    obtain ⟨hsame, hkeeps⟩ := hf a ha ⟨i, hi⟩
    exact ⟨hsame.trans htimer, hkeeps hstate⟩
  · exact ⟨htimer, hstate⟩

/-- A claim starts a timer of the other kind. An application that is stopping does not
claim, so none leaves that state. -/
theorem Chained.claim (h : c.Chained) (k : Nat) : (c.claim k).Chained := by
  rcases c.claim_cases k with ⟨hsame, -⟩ | hclaim
  · rw [hsame]
    exact h
  · rw [hclaim]
    intro j i hi
    rcases pending_start.mp hi with hi | ⟨-, -, hkind⟩
    · refine h.modifyApp k ?_ j i hi
      intro a _ _
      exact ⟨rfl, fun _ hstate => nomatch hstate⟩
    · cases hkind

/-- A heartbeat, when the application has no other timer pending. -/
theorem Chained.beat (h : c.Chained) (k : Nat) (hnone : ∀ i, ¬ c.Pending k .heartbeat i) :
    (c.beat k).Chained := by
  rcases c.beat_cases k with ⟨hsame, -⟩ | ⟨hbeat, a, ha, hstate⟩
  · rw [hsame]
    exact h
  · rw [hbeat]
    intro j i hi
    rcases pending_start.mp hi with hi | ⟨rfl, rfl, -⟩
    · refine h.modifyApp k ?_ j i hi
      rintro a' - ⟨i', hi'⟩
      exact absurd hi' (hnone i')
    · refine ⟨_, modifyApp_get ha, ?_⟩
      rw [if_pos rfl]
      exact ⟨rfl, hstate⟩

/-- The heartbeat timer that an application remembers is cancelled as it is told to stop,
and by the invariant there is no other. -/
theorem Chained.stopRequest (h : c.Chained) (k : Nat) : (c.stopRequest k).Chained := by
  unfold Clock.stopRequest
  split
  · exact h
  · rename_i a ha
    intro j i hi
    obtain ⟨hi, hne⟩ := pending_cancel.mp hi
    obtain ⟨a', ha', htimer, hstate⟩ := h j i hi
    -- a heartbeat timer of `k` would be the one that was cancelled
    have hkj : k ≠ j := by
      rintro rfl
      rw [ha] at ha'
      cases ha'
      exact hne htimer
    refine ⟨a', ?_, htimer, hstate⟩
    have hget := modifyApp_get (k := k) (f := fun a => { a with state := .stopInProgress }) ha'
    rw [if_neg hkj] at hget
    cases a.heartbeatTimer <;> exact hget

/-- All applications are told to stop. -/
theorem Chained.stop (h : c.Chained) : c.stop.Chained := by
  have hfold : ∀ (ks : List Nat) (c : Clock), c.Chained → (ks.foldl Clock.stopRequest c).Chained := by
    intro ks
    induction ks with
    | nil => exact fun _ h => h
    | cons k ks ih => exact fun c h => ih _ (h.stopRequest k)
  exact hfold _ c h

/-- **A timer expires, and the chain goes on or begins.** -/
theorem Chained.expire (h : c.Chained) {i : Nat} (hi : c.StartsChain i) : (c.expire i).Chained := by
  rcases c.expire_cases i with hsame | ⟨k, ⟨hpending, hclaimed⟩ | ⟨hpending, hbeat⟩⟩
  · rw [hsame]
    exact h
  · rw [hclaimed]
    obtain ⟨-, hnone⟩ := hi k hpending
    have hnone' : ∀ j, ¬ (c.fire i).Pending k .heartbeat j :=
      fun j hj => hnone j (pending_fire.mp hj).1
    have hactive : ((c.fire i).modifyApp k (fun a => { a with state := .active })).Chained := by
      refine (h.fire i).modifyApp k ?_
      intro a _ _
      exact ⟨rfl, fun _ hstate => nomatch hstate⟩
    refine (hactive.beat k hnone').modifyApp k ?_
    intro a _ _
    exact ⟨rfl, fun hstate => hstate⟩
  · rw [hbeat]
    refine (h.fire i).beat k ?_
    intro j hj
    obtain ⟨hj, hne⟩ := pending_fire.mp hj
    -- the timer that fires is the only one
    obtain ⟨a, ha, htimer, -⟩ := h k i hpending
    obtain ⟨a', ha', htimer', -⟩ := h k j hj
    rw [ha] at ha'
    cases ha'
    rw [htimer] at htimer'
    exact hne (Option.some.inj htimer')

/-- No two heartbeat timers of an application are pending. -/
theorem Chained.unique (h : c.Chained) {i j : Nat} (hi : c.Pending k .heartbeat i)
    (hj : c.Pending k .heartbeat j) : i = j := by
  obtain ⟨a, ha, htimer, -⟩ := h k i hi
  obtain ⟨a', ha', htimer', -⟩ := h k j hj
  rw [ha] at ha'
  cases ha'
  rw [htimer] at htimer'
  exact Option.some.inj htimer'

/-- An application that is stopping has no heartbeat timer. -/
theorem Chained.stopping (h : c.Chained) (hstop : c.Stopping k) (i : Nat) :
    ¬ c.Pending k .heartbeat i := by
  intro hi
  obtain ⟨a, ha, -, hstate⟩ := h k i hi
  obtain ⟨a', ha', hstate'⟩ := hstop
  rw [ha] at ha'
  cases ha'
  exact hstate hstate'

end Chained

/-! ## 7. Who is stopping stays so -/

section Stopping

variable {c : Clock} {k : Nat}

/-- A change that does not take the application out of that state. -/
theorem Stopping.modifyApp (h : c.Stopping k) (k' : Nat) {f : AppClock → AppClock}
    (hf : k' = k → ∀ a, a.state = .stopInProgress → (f a).state = .stopInProgress) :
    (c.modifyApp k' f).Stopping k := by
  obtain ⟨a, ha, hstate⟩ := h
  refine ⟨_, modifyApp_get ha, ?_⟩
  split
  · rename_i hkk
    exact hf hkk a hstate
  · exact hstate

theorem Stopping.add (h : c.Stopping k) : c.add.Stopping k := by
  obtain ⟨a, ha, hstate⟩ := h
  exact ⟨a, getElem?_concat_of_some _ ha, hstate⟩

theorem Stopping.cancel (h : c.Stopping k) (timer : Option Nat) : (c.cancel timer).Stopping k := by
  obtain ⟨a, ha, hstate⟩ := h
  refine ⟨a, ?_, hstate⟩
  cases timer <;> exact ha

/-- An application that is stopping does not claim. -/
theorem Stopping.claim (h : c.Stopping k) (k' : Nat) : (c.claim k').Stopping k := by
  obtain ⟨a, ha, hstate⟩ := h
  unfold Clock.claim
  split
  · exact ⟨a, ha, hstate⟩
  · rename_i a' ha'
    split
    · exact ⟨a, ha, hstate⟩
    · rename_i hstate'
      refine ⟨_, modifyApp_get ha, ?_⟩
      split
      · rename_i hkk
        subst hkk
        rw [ha] at ha'
        cases ha'
        exact absurd hstate hstate'
      · exact hstate

theorem Stopping.beat (h : c.Stopping k) (k' : Nat) : (c.beat k').Stopping k := by
  rcases c.beat_cases k' with ⟨hsame, -⟩ | ⟨hbeat, -⟩
  · rw [hsame]
    exact h
  · rw [hbeat]
    exact h.modifyApp k' (fun _ _ hstate => hstate)

theorem Stopping.forget (h : c.Stopping k) (k' : Nat) : (c.forget k').Stopping k := by
  unfold Clock.forget
  split
  · exact h
  · exact h.cancel _

/-- It may be told to stop once more. -/
theorem Stopping.stop (h : c.Stopping k) : c.stop.Stopping k := by
  have hone : ∀ (c : Clock) (k' : Nat), c.Stopping k → (c.stopRequest k').Stopping k := by
    intro c k' h
    unfold Clock.stopRequest
    split
    · exact h
    · exact (h.modifyApp k' (fun _ _ _ => rfl)).cancel _
  have hfold : ∀ (ks : List Nat) (c : Clock), c.Stopping k →
      (ks.foldl Clock.stopRequest c).Stopping k := by
    intro ks
    induction ks with
    | nil => exact fun _ h => h
    | cons k' ks ih => exact fun c h => ih _ (hone c k' h)
  exact hfold _ c h

/-- A claim that comes through makes an application active, so the condition is needed
here: the timer belongs to another one. -/
theorem Stopping.expire (h : c.Stopping k) {i : Nat} (hi : c.StartsChain i) :
    (c.expire i).Stopping k := by
  rcases c.expire_cases i with hsame | ⟨k', ⟨hpending, hclaimed⟩ | ⟨hpending, hbeat⟩⟩
  · rw [hsame]
    exact h
  · rw [hclaimed]
    have hne : k' ≠ k := by
      rintro rfl
      exact (hi k' hpending).1 h
    have hfire : (c.fire i).Stopping k := h
    refine ((hfire.modifyApp k' ?_).beat k').modifyApp k' ?_
    · exact fun heq => absurd heq hne
    · exact fun _ _ hstate => hstate
  · rw [hbeat]
    exact Stopping.beat (c := c.fire i) h k'

end Stopping

end Clock

end NavigationServer.CanInterface
