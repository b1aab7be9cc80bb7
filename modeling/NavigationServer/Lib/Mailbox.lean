/-
NavigationServer.Lib.Mailbox — parties that post to each other.

A `Party` acts of its own or receives a message, and posts messages. What it
posts goes into the mailbox of every other party, and stays there until an
event delivers it: late, and in any order.

`Keeps` is the rule for what holds of each party and of what each one posts.
The parties may hold resources, and a message may claim one. `Defends` says
that a resource which a party holds after a turn is claimed in this turn, or
was held before and is not claimed by what the party has received. Then two
parties hold one resource only as long as a claim of it waits for one of them
(`Defends.final`).
-/
import NavigationServer.Lib.Machine
import Mathlib.Logic.Function.Basic

namespace NavigationServer.Lib

/-! ## 1. Parties and mailboxes -/

/-- The output, the next state, and what is posted. -/
structure Party (σ μ κ τ ο : Type*) where
  act : σ → κ → ο × σ × List μ
  receive : σ → τ → μ → ο × σ × List μ

/-- `inbox i` is what has not been delivered to party `i`. -/
structure Mail (ι σ μ : Type*) where
  party : ι → σ
  inbox : ι → List μ

/-- `place` is a place of the mailbox. -/
inductive MailEvent (ι κ τ : Type*) where
  | act (i : ι) (k : κ)
  | deliver (i : ι) (t : τ) (place : Nat)

section Mail

variable {ι σ μ κ τ ο : Type*} [DecidableEq ι]

/-- A turn of party `i` is over. -/
def Mail.post (net : Mail ι σ μ) (i : ι) (s : σ) (posts : List μ) : Mail ι σ μ where
  party := Function.update net.party i s
  inbox j := if j = i then net.inbox j else net.inbox j ++ posts

/-- A message is taken out of a mailbox. -/
def Mail.take (net : Mail ι σ μ) (i : ι) (place : Nat) : Mail ι σ μ :=
  { net with inbox := Function.update net.inbox i ((net.inbox i).eraseIdx place) }

/-- The parties together. There is no output where the place is empty. -/
def Party.mail (p : Party σ μ κ τ ο) : Machine (Mail ι σ μ) (MailEvent ι κ τ) (Option ο) where
  step net event :=
    match event with
    | .act i k =>
        let (o, s, posts) := p.act (net.party i) k
        (some o, net.post i s posts)
    | .deliver i t place =>
        match (net.inbox i)[place]? with
        | none => (none, net)
        | some m =>
            let (o, s, posts) := p.receive (net.party i) t m
            (some o, (net.take i place).post i s posts)

variable {net : Mail ι σ μ} {i j : ι} {s : σ} {posts : List μ} {m : μ}

@[simp] theorem Mail.post_self : (net.post i s posts).party i = s := Function.update_self ..

@[simp] theorem Mail.post_other (h : j ≠ i) : (net.post i s posts).party j = net.party j :=
  Function.update_of_ne h ..

@[simp] theorem Mail.inbox_post_self : (net.post i s posts).inbox i = net.inbox i := if_pos rfl

@[simp] theorem Mail.inbox_post_other (h : j ≠ i) :
    (net.post i s posts).inbox j = net.inbox j ++ posts := if_neg h

@[simp] theorem Mail.party_take (place : Nat) : (net.take i place).party = net.party := rfl

@[simp] theorem Mail.inbox_take_self (place : Nat) :
    (net.take i place).inbox i = (net.inbox i).eraseIdx place := Function.update_self ..

@[simp] theorem Mail.inbox_take_other (h : j ≠ i) (place : Nat) :
    (net.take i place).inbox j = net.inbox j := Function.update_of_ne h ..

theorem Mail.mem_inbox_take (place : Nat) (h : m ∈ (net.take i place).inbox j) :
    m ∈ net.inbox j := by
  by_cases hj : j = i
  · subst hj
    rw [Mail.inbox_take_self] at h
    exact List.mem_of_mem_eraseIdx h
  · rwa [Mail.inbox_take_other hj] at h

/-- Another message than the one that is taken stays. -/
theorem mem_eraseIdx_of_ne {l : List μ} {place : Nat} {m' : μ} (h : m ∈ l)
    (hplace : l[place]? = some m') (hne : m ≠ m') : m ∈ l.eraseIdx place := by
  obtain ⟨n, hn, hget⟩ := List.mem_iff_getElem.mp h
  refine List.mem_eraseIdx_iff_getElem.mpr ⟨n, hn, ?_, hget⟩
  rintro rfl
  rw [List.getElem?_eq_getElem hn, Option.some.injEq] at hplace
  exact hne (hget.symm.trans hplace)

end Mail

/-! ## 2. What holds of the parties and of what they post -/

section Keeps

variable {ι σ μ κ τ ο : Type*} [DecidableEq ι] {p : Party σ μ κ τ ο}
  {Inv : ι → σ → Prop} {Sent : ι → μ → Prop} {net : Mail ι σ μ}

/-- Each turn of party `i` keeps `Inv i`, and `Sent i` holds of what it posts. -/
structure Keeps (p : Party σ μ κ τ ο) (Inv : ι → σ → Prop) (Sent : ι → μ → Prop) : Prop where
  act : ∀ {i s} k, Inv i s → Inv i (p.act s k).2.1 ∧ ∀ m ∈ (p.act s k).2.2, Sent i m
  receive : ∀ {i j s m} t, i ≠ j → Inv i s → Sent j m →
    Inv i (p.receive s t m).2.1 ∧ ∀ m' ∈ (p.receive s t m).2.2, Sent i m'

/-- The invariant of the parties, and of what waits. -/
structure Mail.Sound (Inv : ι → σ → Prop) (Sent : ι → μ → Prop) (net : Mail ι σ μ) : Prop where
  party : ∀ i, Inv i (net.party i)
  inbox : ∀ i, ∀ m ∈ net.inbox i, ∃ j, i ≠ j ∧ Sent j m

theorem Mail.Sound.take (h : net.Sound Inv Sent) (i : ι) (place : Nat) :
    (net.take i place).Sound Inv Sent :=
  ⟨h.party, fun j m hm => h.inbox j m (net.mem_inbox_take place hm)⟩

theorem Mail.Sound.post (h : net.Sound Inv Sent) {i : ι} {s : σ} {posts : List μ} (hs : Inv i s)
    (hposts : ∀ m ∈ posts, Sent i m) : (net.post i s posts).Sound Inv Sent := by
  refine ⟨?_, ?_⟩
  · intro j
    by_cases hj : j = i
    · subst hj
      rwa [Mail.post_self]
    · rw [Mail.post_other hj]
      exact h.party j
  · intro j m hm
    by_cases hj : j = i
    · subst hj
      rw [Mail.inbox_post_self] at hm
      exact h.inbox j m hm
    · rw [Mail.inbox_post_other hj] at hm
      rcases List.mem_append.mp hm with hm | hm
      · exact h.inbox j m hm
      · exact ⟨i, hj, hposts m hm⟩

/-- **A step keeps it.** -/
theorem Keeps.step (h : Keeps p Inv Sent) (hnet : net.Sound Inv Sent) (event : MailEvent ι κ τ) :
    (p.mail.step net event).2.Sound Inv Sent := by
  cases event with
  | act i k =>
    obtain ⟨hs, hposts⟩ := h.act k (hnet.party i)
    exact hnet.post hs hposts
  | deliver i t place =>
    simp only [Party.mail]
    cases hm : (net.inbox i)[place]? with
    | none => exact hnet
    | some m =>
      obtain ⟨j, hij, hsent⟩ := hnet.inbox i m (List.mem_of_getElem? hm)
      obtain ⟨hs, hposts⟩ := h.receive t hij (hnet.party i) hsent
      exact (hnet.take i place).post hs hposts

/-- **It holds of every state of a run.** -/
theorem Keeps.final (h : Keeps p Inv Sent) (hnet : net.Sound Inv Sent)
    (events : List (MailEvent ι κ τ)) : (p.mail.final net events).Sound Inv Sent :=
  p.mail.final_invariant (Mail.Sound Inv Sent) (fun _ _ => True)
    (fun _ event hs _ => h.step hs event) hnet events (fun _ _ => trivial)

end Keeps

/-! ## 3. Resources that are claimed -/

section Defends

variable {ι σ μ κ τ ο ρ : Type*} [DecidableEq ι] {p : Party σ μ κ τ ο}
  {Inv : ι → σ → Prop} {Sent : ι → μ → Prop} {holds said : σ → ρ → Prop} {claims : μ → ρ → Prop}
  {net : Mail ι σ μ}

/-- A resource that is held after a turn is claimed in it, or is held as before:
it is not `said` to be held if it was not before, and not claimed by the message. -/
structure Defends (p : Party σ μ κ τ ο) (Inv : ι → σ → Prop) (Sent : ι → μ → Prop)
    (holds said : σ → ρ → Prop) (claims : μ → ρ → Prop) : Prop where
  act : ∀ {i s r} k, Inv i s → holds (p.act s k).2.1 r →
    (holds s r ∧ (said (p.act s k).2.1 r → said s r)) ∨ ∃ m ∈ (p.act s k).2.2, claims m r
  receive : ∀ {i j s m r} t, i ≠ j → Inv i s → Sent j m → holds (p.receive s t m).2.1 r →
    (holds s r ∧ (said (p.receive s t m).2.1 r → said s r) ∧ ¬ claims m r) ∨
      ∃ m' ∈ (p.receive s t m).2.2, claims m' r

/-- A claim of the resource waits for the party. -/
def Mail.Attacked (claims : μ → ρ → Prop) (net : Mail ι σ μ) (i : ι) (r : ρ) : Prop :=
  ∃ m ∈ net.inbox i, claims m r

/-- Of two that hold a resource one is attacked, or none has said so. -/
def Mail.Settling (holds said : σ → ρ → Prop) (claims : μ → ρ → Prop) (net : Mail ι σ μ) : Prop :=
  ∀ ⦃i j : ι⦄, i ≠ j → ∀ ⦃r : ρ⦄, holds (net.party i) r → holds (net.party j) r →
    (net.Attacked claims i r ∨ net.Attacked claims j r) ∨
      (¬ said (net.party i) r ∧ ¬ said (net.party j) r)

/-- What a turn of party `i` must do so that the parties stay so: its own
mailbox may lose a claim of `r` only if it claims `r` itself. -/
theorem Mail.Settling.post (h : net.Settling holds said claims) (net' : Mail ι σ μ) {i : ι}
    {s : σ} {posts : List μ} (hparty : net'.party = net.party)
    (hother : ∀ j, j ≠ i → net'.inbox j = net.inbox j)
    (hturn : ∀ r, holds s r →
      (holds (net.party i) r ∧ (said s r → said (net.party i) r) ∧
        (net.Attacked claims i r → net'.Attacked claims i r)) ∨ ∃ m ∈ posts, claims m r) :
    (net'.post i s posts).Settling holds said claims := by
  -- a party and the one whose turn it was
  have hone : ∀ j, j ≠ i → ∀ r, holds s r → holds (net.party j) r →
      ((net'.post i s posts).Attacked claims i r ∨ (net'.post i s posts).Attacked claims j r) ∨
        (¬ said s r ∧ ¬ said (net.party j) r) := by
    intro j hj r hi hjr
    rcases hturn r hi with ⟨hbefore, hsaid, hkept⟩ | ⟨m, hm, hclaims⟩
    · rcases h (Ne.symm hj) hbefore hjr with (hattack | ⟨m, hm, hclaims⟩) | ⟨hno, hno'⟩
      · obtain ⟨m, hm, hclaims⟩ := hkept hattack
        exact Or.inl (Or.inl ⟨m, by rwa [Mail.inbox_post_self], hclaims⟩)
      · refine Or.inl (Or.inr ⟨m, ?_, hclaims⟩)
        rw [Mail.inbox_post_other hj, hother j hj]
        exact List.mem_append_left _ hm
      · exact Or.inr ⟨fun hs => hno (hsaid hs), hno'⟩
    · refine Or.inl (Or.inr ⟨m, ?_, hclaims⟩)
      rw [Mail.inbox_post_other hj]
      exact List.mem_append_right _ hm
  intro j k hjk r hj hk
  by_cases hji : j = i
  · subst hji
    rw [Mail.post_self] at hj ⊢
    rw [Mail.post_other (Ne.symm hjk), hparty] at hk ⊢
    exact hone k (Ne.symm hjk) r hj hk
  · by_cases hki : k = i
    · subst hki
      rw [Mail.post_self] at hk ⊢
      rw [Mail.post_other hji, hparty] at hj ⊢
      exact (hone j hji r hk hj).imp Or.symm And.symm
    · rw [Mail.post_other hji, hparty] at hj ⊢
      rw [Mail.post_other hki, hparty] at hk ⊢
      refine (h hjk hj hk).imp (Or.imp ?_ ?_) id
      · rintro ⟨m, hm, hclaims⟩
        refine ⟨m, ?_, hclaims⟩
        rw [Mail.inbox_post_other hji, hother j hji]
        exact List.mem_append_left _ hm
      · rintro ⟨m, hm, hclaims⟩
        refine ⟨m, ?_, hclaims⟩
        rw [Mail.inbox_post_other hki, hother k hki]
        exact List.mem_append_left _ hm

/-- **What a step keeps.** -/
theorem Defends.step (hdefends : Defends p Inv Sent holds said claims) (hsound : net.Sound Inv Sent)
    (h : net.Settling holds said claims) (event : MailEvent ι κ τ) :
    (p.mail.step net event).2.Settling holds said claims := by
  cases event with
  | act i k =>
    refine h.post net rfl (fun _ _ => rfl) ?_
    intro r hr
    rcases hdefends.act k (hsound.party i) hr with ⟨hbefore, hsaid⟩ | hclaimed
    · exact Or.inl ⟨hbefore, hsaid, id⟩
    · exact Or.inr hclaimed
  | deliver i t place =>
    simp only [Party.mail]
    cases hm : (net.inbox i)[place]? with
    | none => exact h
    | some m =>
      obtain ⟨j, hij, hsent⟩ := hsound.inbox i m (List.mem_of_getElem? hm)
      refine h.post (net.take i place) rfl (fun j hj => net.inbox_take_other hj place) ?_
      intro r hr
      rcases hdefends.receive t hij (hsound.party i) hsent hr with ⟨hbefore, hsaid, hno⟩ | hclaimed
      · refine Or.inl ⟨hbefore, hsaid, ?_⟩
        rintro ⟨m', hm', hclaims⟩
        refine ⟨m', ?_, hclaims⟩
        rw [Mail.inbox_take_self]
        refine mem_eraseIdx_of_ne hm' hm ?_
        rintro rfl
        exact hno hclaims
      · exact Or.inr hclaimed

/-- **Two parties hold one resource only as long as a claim of it waits for one
of them**, or as long as neither has said so. -/
theorem Defends.final (hkeeps : Keeps p Inv Sent) (hdefends : Defends p Inv Sent holds said claims)
    (hsound : net.Sound Inv Sent) (h : net.Settling holds said claims)
    (events : List (MailEvent ι κ τ)) :
    (p.mail.final net events).Settling holds said claims := by
  have hboth := p.mail.final_invariant
    (fun net => net.Sound Inv Sent ∧ net.Settling holds said claims) (fun _ _ => True)
    (fun net event hnet _ => ⟨hkeeps.step hnet.1 event, hdefends.step hnet.1 hnet.2 event⟩)
    ⟨hsound, h⟩ events (fun _ _ => trivial)
  exact hboth.2

end Defends

end NavigationServer.Lib
