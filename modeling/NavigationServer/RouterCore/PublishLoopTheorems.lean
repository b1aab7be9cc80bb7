/-
NavigationServer.RouterCore.PublishLoopTheorems — no publisher takes a message
from another one.

`fair_run`: along every run whose steps are `Peaceful`, a call offers its message
exactly once to every publisher that stays, leaves on the list those that stay
and did not report overflow, and raises nothing; and a publisher reports
overflow exactly when as many messages in a row as its limit could not be
queued. A step is peaceful unless a call begins on a list that has a publisher
twice, a filter raises, or a publisher deregisters that the loop has passed
while there is one to come, or that has reported overflow. In the last three
cases the exception ends the call before the others have the message, the next
publisher is skipped, and `remove` raises.

The invariant is `InCall`: the publishers before the index have been offered
the message, those from it on have not, and those in overflow are before it.
-/
import NavigationServer.RouterCore.PublishLoop
import NavigationServer.RouterCore.PublishingTheorems

namespace NavigationServer.RouterCore

open NavigationServer.Lib

/-! ## 1. What is claimed of a step -/

/-- The message of a turn cannot be queued. -/
def FilterOutcome.Loses (filter : FilterOutcome) (s : Router) (p : Nat) : Prop :=
  filter = .passes ∧ ∃ x, s.publishers[p]? = some x ∧ x.hasPlace = false

/-- The publishers that stay and did not report overflow. -/
def CallHistory.remaining (h : CallHistory) : List Nat :=
  (h.registered.filter (· ∉ h.gone)).filter (· ∉ h.reported)

/-- The last field bounds the turns of a call: each of them but the last one is
an offer. -/
structure FairMove (c : Nat) (mv : Move (PublishLoop × CallHistory) PublishInput PublishOutput) :
    Prop where
  quiet : ∀ e, mv.output ≠ .raised e
  offered_once : mv.output = .returned →
    ∀ p ∈ mv.pre.2.registered, p ∉ mv.pre.2.gone → mv.pre.2.offered.count p = 1
  removed : mv.output = .returned → mv.post.1.router.publishersOf c = mv.pre.2.remaining
  overflow : ∀ p reported filter, mv.output = .offered p reported → mv.input = .turn filter →
    (reported = true ↔ filter.Loses mv.pre.1.router p ∧
      ∀ x, mv.pre.1.router.publishers[p]? = some x → x.maxLost ≤ mv.pre.2.lostInRow p + 1)
  ends : mv.post.1.call ≠ none → mv.post.2.offered.length ≤ mv.post.2.registered.length

/-- A step that does not reach what goes wrong in `publish`. -/
def Peaceful (c : Nat) (s : PublishLoop) : PublishInput → Prop
  | .publish _ => s.call = none → (s.router.publishersOf c).Nodup
  | .turn filter => ∀ call, s.call = some call → call.index < (s.router.publishersOf c).length →
      ∀ e, filter ≠ .raises e
  | .deregister p => ∀ call, s.call = some call →
      p ∉ (s.router.publishersOf c).take call.index ∨
        ((s.router.publishersOf c).length ≤ call.index ∧ p ∉ call.faulty)
  | .take _ _ => True

/-! ## 2. The list of the coupler -/

namespace Router

variable {s : Router} {c p : Nat}

theorem publishersOf_deregister (s : Router) (p c : Nat) :
    (s.deregister p c).publishersOf c = (s.publishersOf c).erase p := by
  rw [deregister, publishersOf_modifyCoupler, publishersOf]
  cases s.couplers[c]? with
  | none => rfl
  | some x => exact if_pos rfl

/-- Publishers that are all on the list are removed without an exception. -/
theorem removeFaulty_eq (c : Nat) (faulty : List Nat) (s : Router) (hn : faulty.Nodup)
    (hs : (s.publishersOf c).Nodup) (hsub : ∀ p ∈ faulty, p ∈ s.publishersOf c) :
    (s.removeFaulty c faulty).1 = none ∧
      (s.removeFaulty c faulty).2.publishersOf c = (s.publishersOf c).filter (· ∉ faulty) := by
  induction faulty generalizing s with
  | nil => simp [removeFaulty]
  | cons p ps ih =>
    rw [List.nodup_cons] at hn
    rw [removeFaulty, if_pos (hsub p (List.mem_cons_self ..))]
    have herase := publishersOf_deregister s p c
    have hfilter : (s.publishersOf c).erase p = (s.publishersOf c).filter (· != p) :=
      hs.erase_eq_filter p
    obtain ⟨hnone, hlist⟩ := ih (s.deregister p c) hn.2 (herase ▸ hs.erase p) (by
      intro q hq
      rw [herase, hs.mem_erase_iff]
      exact ⟨fun h => hn.1 (h ▸ hq), hsub q (List.mem_cons_of_mem _ hq)⟩)
    refine ⟨hnone, ?_⟩
    rw [hlist, herase, hfilter, List.filter_filter]
    refine List.filter_congr fun q _ => ?_
    by_cases hq : q = p <;> simp [hq]

end Router

/-! ## 3. A call in progress -/

/-- The list, the index and the publishers in overflow, against what is written
down. -/
structure InCall (list : List Nat) (index : Nat) (faulty : List Nat) (h : CallHistory) : Prop where
  registered : h.registered.Nodup
  staying : list = h.registered.filter (· ∉ h.gone)
  visited : h.offered.Nodup
  known : ∀ p ∈ h.offered, p ∈ h.registered
  before : ∀ p ∈ list.take index, p ∈ h.offered
  behind : ∀ p ∈ list.drop index, p ∉ h.offered
  reported : faulty = h.reported
  overflow : ∀ p ∈ faulty, p ∈ list.take index

namespace InCall

variable {list : List Nat} {index : Nat} {faulty : List Nat} {h : CallHistory}

theorem nodup (hc : InCall list index faulty h) : list.Nodup := by
  rw [hc.staying]
  exact hc.registered.filter _

theorem reported_nodup (hc : InCall list index faulty h) : faulty.Nodup := by
  rw [hc.reported]
  exact (List.Sublist.map _ List.filter_sublist).nodup hc.visited

theorem length_offered_le (hc : InCall list index faulty h) :
    h.offered.length ≤ h.registered.length :=
  (List.subperm_of_subset hc.visited hc.known).length_le

/-- The call begins. -/
theorem start (list : List Nat) (hn : list.Nodup) (h : CallHistory) :
    InCall list 0 [] { h with registered := list, gone := [], offers := [] } where
  registered := hn
  staying := by simp
  visited := List.nodup_nil
  known := by simp [CallHistory.offered]
  before := by simp
  behind := by simp [CallHistory.offered]
  reported := rfl
  overflow := by simp

/-- The publisher at the index is offered the message. -/
theorem offer (hc : InCall list index faulty h) {p : Nat} (hp : list[index]? = some p)
    (overflow : Bool) :
    InCall list (index + 1) (if overflow then faulty ++ [p] else faulty) (h.offer p overflow) := by
  obtain ⟨hlt, hget⟩ := List.getElem?_eq_some_iff.mp hp
  have hdrop : list.drop index = p :: list.drop (index + 1) := by
    rw [List.drop_eq_getElem_cons hlt, hget]
  have htake : list.take (index + 1) = list.take index ++ [p] := by
    rw [List.take_succ_eq_append_getElem hlt, hget]
  have hnew : p ∉ h.offered := hc.behind p (hdrop ▸ List.mem_cons_self ..)
  have hoffered : (h.offer p overflow).offered = h.offered ++ [p] := by
    simp [CallHistory.offered, CallHistory.offer]
  constructor
  · exact hc.registered
  · exact hc.staying
  · rw [hoffered]
    exact hc.visited.append (List.nodup_singleton p) (by simpa using hnew)
  · intro q hq
    rw [hoffered] at hq
    rcases List.mem_append.mp hq with hq | hq
    · exact hc.known q hq
    · obtain rfl := List.mem_singleton.mp hq
      have hmem : q ∈ list := List.mem_of_getElem? hp
      rw [hc.staying] at hmem
      exact (List.mem_filter.mp hmem).1
  · intro q hq
    rw [hoffered]
    rw [htake] at hq
    rcases List.mem_append.mp hq with hq | hq
    · exact List.mem_append_left _ (hc.before q hq)
    · exact List.mem_append_right _ hq
  · intro q hq
    have hq' : q ∈ list.drop index := by
      rw [hdrop]
      exact List.mem_cons_of_mem _ hq
    have hne : q ≠ p := by
      rintro rfl
      have hnodup := (List.drop_sublist index list).nodup hc.nodup
      rw [hdrop, List.nodup_cons] at hnodup
      exact hnodup.1 hq
    rw [hoffered]
    simp [hc.behind q hq', hne]
  · rw [hc.reported]
    cases overflow <;> simp [CallHistory.reported, CallHistory.offer]
  · intro q hq
    rw [htake]
    cases overflow with
    | false => exact List.mem_append_left _ (hc.overflow q hq)
    | true =>
      rcases List.mem_append.mp hq with hq | hq
      · exact List.mem_append_left _ (hc.overflow q hq)
      · exact List.mem_append_right _ hq

/-- What a removal leaves before the index and behind it. -/
theorem erase_split {p : Nat}
    (hp : p ∉ list.take index ∨ (list.length ≤ index ∧ p ∉ faulty)) :
    (∀ q ∈ (list.erase p).take index, q ∈ list.take index) ∧
      (∀ q ∈ (list.erase p).drop index, q ∈ list.drop index) ∧
      ∀ q ∈ faulty, q ∈ list.take index → q ∈ (list.erase p).take index := by
  have hlen := List.length_erase_le (a := p) (l := list)
  rcases hp with hp | ⟨hend, hp⟩
  · have hsplit : list.erase p = list.take index ++ (list.drop index).erase p := by
      rw [← List.erase_append_right _ hp, List.take_append_drop]
    rcases Nat.le_total index list.length with hle | hge
    · have htake : (list.take index).length = index := by simpa using hle
      rw [hsplit, List.take_left' htake, List.drop_left' htake]
      exact ⟨fun _ h => h, fun _ h => List.mem_of_mem_erase h, fun _ _ h => h⟩
    · have hnot : p ∉ list := by rwa [List.take_of_length_le hge] at hp
      rw [List.erase_of_not_mem hnot]
      exact ⟨fun _ h => h, fun _ h => h, fun _ _ h => h⟩
  · rw [List.take_of_length_le hend, List.take_of_length_le (Nat.le_trans hlen hend),
      List.drop_eq_nil_of_le (Nat.le_trans hlen hend)]
    refine ⟨fun _ h => List.mem_of_mem_erase h, fun _ h => absurd h List.not_mem_nil, ?_⟩
    intro q hq hmem
    exact (List.mem_erase_of_ne (fun h : q = p => hp (h ▸ hq))).mpr hmem

theorem put (hc : InCall list index faulty h) (p : Nat) (queued : Bool) :
    InCall list index faulty (h.put p queued) :=
  ⟨hc.registered, hc.staying, hc.visited, hc.known, hc.before, hc.behind, hc.reported, hc.overflow⟩

/-- A publisher deregisters that the loop has not passed, or when there is none
to come. -/
theorem deregister (hc : InCall list index faulty h) {p : Nat}
    (hp : p ∉ list.take index ∨ (list.length ≤ index ∧ p ∉ faulty)) :
    InCall (list.erase p) index faulty { h with gone := p :: h.gone } := by
  have hsub := erase_split hp
  constructor
  · exact hc.registered
  · rw [hc.nodup.erase_eq_filter, hc.staying, List.filter_filter]
    refine List.filter_congr fun q _ => ?_
    by_cases hq : q = p
    · simp [hq]
    · simp [hq, bne_iff_ne.mpr hq]
  · exact hc.visited
  · exact hc.known
  · exact fun q hq => hc.before q (hsub.1 q hq)
  · exact fun q hq => hc.behind q (hsub.2.1 q hq)
  · exact hc.reported
  · exact fun q hq => hsub.2.2 q hq (hc.overflow q hq)

end InCall

/-! ## 4. The counters -/

/-- The counter of a publisher is the number of its last messages lost. -/
def Counts (s : Router) (h : CallHistory) : Prop :=
  ∀ p x, s.publishers[p]? = some x → x.nbMsgLost = h.lostInRow p

namespace Router

variable {s : Router} {p : Nat} {x : Publisher}

theorem publishers_removeFaulty (c : Nat) (faulty : List Nat) (s : Router) :
    (s.removeFaulty c faulty).2.publishers = s.publishers := by
  induction faulty generalizing s with
  | nil => rfl
  | cons p ps ih =>
    rw [removeFaulty]
    split
    · exact ih _
    · rfl

theorem publish_discarded (msg : RouterMsg) : s.publish p msg true = (false, s) := by
  rw [publish]
  split <;> simp

theorem publish_hasPlace (hx : s.publishers[p]? = some x) (h : x.hasPlace = true) (msg : RouterMsg) :
    s.publish p msg false = (false, s.modifyPublisher p
      (fun x => { x with queue := x.queue ++ [msg], nbMsgLost := 0 })) := by
  simp only [publish, hx]
  rw [if_neg (by decide), if_pos (of_decide_eq_true h)]

theorem publish_lost (hx : s.publishers[p]? = some x) (h : x.hasPlace = false) (msg : RouterMsg) :
    s.publish p msg false = (decide (x.maxLost ≤ x.nbMsgLost + 1), s.modifyPublisher p
      (fun x => { x with nbMsgLost := x.nbMsgLost + 1 })) := by
  simp only [publish, hx]
  rw [if_neg (by decide), if_neg (of_decide_eq_false h)]

theorem publish_absent (hx : s.publishers[p]? = none) (msg : RouterMsg) (discarded : Bool) :
    s.publish p msg discarded = (false, s) := by
  simp only [publish, hx]

/-- What a change of one publisher makes of the others. -/
theorem publishers_modifyPublisher (s : Router) (p q : Nat) (f : Publisher → Publisher) :
    (s.modifyPublisher p f).publishers[q]?
      = (s.publishers[q]?).map (fun x => if p = q then f x else x) := by
  rw [modifyPublisher, List.getElem?_modify]
  cases s.publishers[q]? with
  | none => rfl
  | some x => by_cases h : p = q <;> simp [h]

end Router

theorem lostInRow_put (h : CallHistory) (p q : Nat) (queued : Bool) :
    (h.put p queued).lostInRow q
      = if p = q then if queued then 0 else h.lostInRow p + 1 else h.lostInRow q := by
  rw [CallHistory.lostInRow, CallHistory.put]
  rcases eq_or_ne q p with rfl | hne
  · cases queued <;> simp [CallHistory.lostInRow]
  · simp only [Function.update_of_ne hne, if_neg (Ne.symm hne)]
    rfl

/-- A change of one publisher that counts as its put says. -/
theorem Counts.modifyPublisher {s : Router} {h : CallHistory} (hc : Counts s h) {p : Nat}
    {x : Publisher} (hx : s.publishers[p]? = some x) (f : Publisher → Publisher) (queued : Bool)
    (hf : (f x).nbMsgLost = if queued then 0 else x.nbMsgLost + 1) :
    Counts (s.modifyPublisher p f) (h.put p queued) := by
  intro q y hy
  rw [Router.publishers_modifyPublisher] at hy
  rw [lostInRow_put]
  rcases eq_or_ne p q with rfl | hne
  · simp only [hx, Option.map_some, if_true, Option.some.injEq] at hy
    rw [← hy, hf, if_pos rfl, hc p x hx]
  · rw [if_neg hne]
    obtain ⟨z, hz, rfl⟩ := Option.map_eq_some_iff.mp hy
    rw [if_neg hne]
    exact hc q z hz

theorem nbMsgLost_take (s : Router) (p : Nat) (sends : Bool) (q : Nat) :
    ((s.take p sends).publishers[q]?).map Publisher.nbMsgLost
      = (s.publishers[q]?).map Publisher.nbMsgLost := by
  have hmodify : ∀ (queue handled : List RouterMsg),
      ((s.modifyPublisher p (fun x => { x with queue := queue, handled := x.handled ++ handled
        })).publishers[q]?).map Publisher.nbMsgLost
        = (s.publishers[q]?).map Publisher.nbMsgLost := by
    intro queue handled
    rw [Router.publishers_modifyPublisher, Option.map_map]
    congr 1
    funext x
    simp only [Function.comp_apply]
    split <;> rfl
  unfold Router.take
  split
  · rfl
  · split
    · rfl
    · split
      · split
        · exact hmodify _ _
        · exact hmodify _ _
      · exact hmodify _ _

/-- A turn of a publisher's thread leaves its counter. -/
theorem Counts.take {s : Router} {h : CallHistory} (hc : Counts s h) (p : Nat) (sends : Bool) :
    Counts (s.take p sends) h := by
  intro q y hy
  have hlost := nbMsgLost_take s p sends q
  rw [hy, Option.map_some] at hlost
  obtain ⟨x, hx, hxy⟩ := Option.map_eq_some_iff.mp hlost.symm
  rw [← hxy]
  exact hc q x hx

/-- A message that passes the filter, and is queued or lost. -/
theorem Counts.publish {s : Router} {h : CallHistory} (hc : Counts s h) {p : Nat} {x : Publisher}
    (hx : s.publishers[p]? = some x) (msg : RouterMsg) :
    Counts (s.publish p msg false).2 (h.put p x.hasPlace) ∧
      ((s.publish p msg false).1 = true ↔
        x.hasPlace = false ∧ x.maxLost ≤ h.lostInRow p + 1) := by
  have hlost := hc p x hx
  cases hplace : x.hasPlace with
  | true =>
    rw [Router.publish_hasPlace hx hplace]
    exact ⟨hc.modifyPublisher hx _ true rfl, by simp⟩
  | false =>
    rw [Router.publish_lost hx hplace]
    exact ⟨hc.modifyPublisher hx _ false rfl, by simp [hlost]⟩

/-! ## 5. One step -/

/-- The counters are right, and a call in progress is as written down. -/
structure LoopInv (c : Nat) (s : PublishLoop × CallHistory) : Prop where
  counts : Counts s.1.router s.2
  inCall : ∀ call, s.1.call = some call →
    InCall (s.1.router.publishersOf c) call.index call.faulty s.2

/-- A step is fair and keeps the invariant. -/
def StepKept (c : Nat) (s : PublishLoop × CallHistory) (i : PublishInput) : Prop :=
  FairMove c ⟨s, i, ((observedLoop c).step s i).1, ((observedLoop c).step s i).2⟩ ∧
    LoopInv c ((observedLoop c).step s i).2

section Step

variable {c : Nat} {s : PublishLoop × CallHistory}

/-- A step that answers nothing is fair. -/
theorem stepKept_nothing {i : PublishInput} {post : PublishLoop × CallHistory}
    (hstep : (observedLoop c).step s i = (.nothing, post)) (h : LoopInv c post) :
    StepKept c s i := by
  rw [StepKept, hstep]
  refine ⟨⟨by simp, by simp, by simp, by simp, fun hcall => ?_⟩, h⟩
  obtain ⟨call, hcall⟩ := Option.ne_none_iff_exists'.mp hcall
  exact (h.inCall call hcall).length_offered_le

theorem stepKept_publish (h : LoopInv c s) (msg : RouterMsg) (ho : Peaceful c s.1 (.publish msg)) :
    StepKept c s (.publish msg) := by
  obtain ⟨⟨router, call⟩, history⟩ := s
  cases call with
  | none =>
    refine stepKept_nothing rfl ⟨h.counts, fun call hcall => ?_⟩
    obtain rfl := Option.some.inj hcall
    exact InCall.start _ (ho rfl) history
  | some call => exact stepKept_nothing rfl h

theorem stepKept_deregister (h : LoopInv c s) (p : Nat) (ho : Peaceful c s.1 (.deregister p)) :
    StepKept c s (.deregister p) := by
  refine stepKept_nothing rfl ⟨h.counts, fun call hcall => ?_⟩
  have hdereg := (h.inCall call hcall).deregister (ho call hcall)
  rw [← Router.publishersOf_deregister] at hdereg
  exact hdereg

theorem stepKept_take (h : LoopInv c s) (p : Nat) (sends : Bool) : StepKept c s (.take p sends) := by
  refine stepKept_nothing rfl ⟨h.counts.take p sends, fun call hcall => ?_⟩
  have hcall' := h.inCall call hcall
  rw [← Router.publishersOf_take s.1.router p sends] at hcall'
  exact hcall'

/-- The last turn of a call. -/
theorem stepKept_return (h : LoopInv c s) (filter : FilterOutcome) {call : PublishCall}
    (hcall : s.1.call = some call) (hend : (s.1.router.publishersOf c)[call.index]? = none) :
    StepKept c s (.turn filter) := by
  obtain ⟨⟨router, callOpt⟩, history⟩ := s
  obtain rfl : callOpt = some call := hcall
  have hin := h.inCall call rfl
  have hle : (router.publishersOf c).length ≤ call.index := List.getElem?_eq_none_iff.mp hend
  have htake : (router.publishersOf c).take call.index = router.publishersOf c :=
    List.take_of_length_le hle
  obtain ⟨hnone, hlist⟩ := Router.removeFaulty_eq c call.faulty router hin.reported_nodup hin.nodup
    (fun p hp => htake ▸ hin.overflow p hp)
  obtain ⟨router', hremove⟩ : ∃ router', router.removeFaulty c call.faulty = (none, router') :=
    ⟨_, Prod.ext hnone rfl⟩
  rw [hremove] at hlist
  have hturn : PublishLoop.turn c ⟨router, some call⟩ call filter = (.returned, ⟨router', none⟩) := by
    simp only [PublishLoop.turn, hend, hremove]
  have hstep : (observedLoop c).step (⟨router, some call⟩, history) (.turn filter)
      = (.returned, ⟨router', none⟩, history) := by
    simp only [observedLoop, Machine.withHistory, publishLoop, noteCall, hturn]
  rw [StepKept, hstep]
  refine ⟨⟨by simp, fun _ p hp hgone => ?_, fun _ => ?_, by simp, by simp⟩, ?_, by simp⟩
  · -- the publisher is on the list still, and the loop has passed all of it
    have hmem : p ∈ router.publishersOf c := by
      rw [hin.staying, List.mem_filter]
      exact ⟨hp, by simpa using hgone⟩
    exact List.count_eq_one_of_mem hin.visited (hin.before p (htake.symm ▸ hmem))
  · rw [hlist, hin.reported, hin.staying]
    rfl
  · intro p x hx
    refine h.counts p x ?_
    rw [← hx, ← Router.publishers_removeFaulty c call.faulty router, hremove]

/-- What a turn with a publisher does, and what is written down of it. -/
theorem turn_offer {router : Router} {call : PublishCall} {history : CallHistory} {p : Nat}
    {filter : FilterOutcome} (hp : (router.publishersOf c)[call.index]? = some p)
    (hf : ∀ e, filter ≠ .raises e) (hc : Counts router history) :
    ∃ overflow router' history',
      PublishLoop.turn c ⟨router, some call⟩ call filter
        = (.offered p overflow, ⟨router', some ⟨call.msg, call.index + 1,
            if overflow then call.faulty ++ [p] else call.faulty⟩⟩) ∧
      noteCall c ⟨router, some call⟩ history (.turn filter) = history' ∧
      (history' = history.offer p overflow ∨
        ∃ queued, history' = (history.offer p overflow).put p queued) ∧
      router'.publishersOf c = router.publishersOf c ∧ Counts router' history' ∧
      (overflow = true ↔ filter.Loses router p ∧
        ∀ x, router.publishers[p]? = some x → x.maxLost ≤ history.lostInRow p + 1) := by
  have hlist : ∀ discarded, (router.publish p call.msg discarded).2.publishersOf c
      = router.publishersOf c := fun discarded => Router.publishersOf_publish router p _ discarded c
  cases filter with
  | raises e => exact absurd rfl (hf e)
  | discards =>
    have hpub := Router.publish_discarded (s := router) (p := p) call.msg
    refine ⟨false, router, history.offer p false, ?_, ?_, Or.inl rfl, rfl, hc, by
      simp [FilterOutcome.Loses]⟩
    · simp [PublishLoop.turn, hp, hpub]
    · simp [noteCall, PublishLoop.turn, hp, hpub]
  | passes =>
    cases hx : router.publishers[p]? with
    | none =>
      have hpub := Router.publish_absent hx call.msg false
      refine ⟨false, router, history.offer p false, ?_, ?_, Or.inl rfl, rfl, hc, by
        simp [FilterOutcome.Loses, hx]⟩
      · simp [PublishLoop.turn, hp, hpub]
      · simp [noteCall, PublishLoop.turn, hp, hpub, hx]
    | some x =>
      obtain ⟨hcounts, hover⟩ := hc.publish hx call.msg
      refine ⟨(router.publish p call.msg false).1, (router.publish p call.msg false).2,
        (history.offer p (router.publish p call.msg false).1).put p x.hasPlace, ?_, ?_,
        Or.inr ⟨_, rfl⟩, hlist false, hcounts, ?_⟩
      · simp [PublishLoop.turn, hp]
      · simp [noteCall, PublishLoop.turn, hp, hx]
      · simpa [FilterOutcome.Loses, hx] using hover

/-- A turn with a publisher. -/
theorem stepKept_offer (h : LoopInv c s) (filter : FilterOutcome) {call : PublishCall}
    (hcall : s.1.call = some call) {p : Nat}
    (hp : (s.1.router.publishersOf c)[call.index]? = some p) (hf : ∀ e, filter ≠ .raises e) :
    StepKept c s (.turn filter) := by
  obtain ⟨⟨router, callOpt⟩, history⟩ := s
  obtain rfl : callOpt = some call := hcall
  have hin := (h.inCall call rfl).offer hp
  obtain ⟨overflow, router', history', hturn, hnote, hhist, hlist, hcounts, hover⟩ :=
    turn_offer hp hf h.counts
  have hstep : (observedLoop c).step (⟨router, some call⟩, history) (.turn filter)
      = (.offered p overflow, ⟨router', some ⟨call.msg, call.index + 1,
          if overflow then call.faulty ++ [p] else call.faulty⟩⟩, history') := by
    rw [observedLoop, Machine.withHistory]
    simp only [hnote, publishLoop, hturn]
  rw [StepKept, hstep]
  have hin' : InCall (router'.publishersOf c) (call.index + 1)
      (if overflow then call.faulty ++ [p] else call.faulty) history' := by
    rw [hlist]
    rcases hhist with rfl | ⟨queued, rfl⟩
    · exact hin overflow
    · exact (hin overflow).put p queued
  refine ⟨⟨by simp, by simp, by simp, ?_, fun _ => hin'.length_offered_le⟩, hcounts, ?_⟩
  · intro q reported f hq hi
    obtain ⟨rfl, rfl⟩ := PublishOutput.offered.inj hq
    obtain rfl := PublishInput.turn.inj hi
    exact hover
  · intro call' hcall'
    obtain rfl := Option.some.inj hcall'
    exact hin'

theorem stepKept (h : LoopInv c s) (i : PublishInput) (ho : Peaceful c s.1 i) : StepKept c s i := by
  cases i with
  | publish msg => exact stepKept_publish h msg ho
  | deregister p => exact stepKept_deregister h p ho
  | take p sends => exact stepKept_take h p sends
  | turn filter =>
    cases hcall : s.1.call with
    | none =>
      obtain ⟨⟨router, call⟩, history⟩ := s
      obtain rfl : call = none := hcall
      exact stepKept_nothing rfl h
    | some call =>
      cases hp : (s.1.router.publishersOf c)[call.index]? with
      | none => exact stepKept_return h filter hcall hp
      | some p =>
        have hlt := (List.getElem?_eq_some_iff.mp hp).1
        exact stepKept_offer h filter hcall hp (ho call hcall hlt)

end Step

/-! ## 6. Runs -/

/-- No publisher has lost a message. -/
def Fresh (s : Router) : Prop := ∀ x ∈ s.publishers, x.nbMsgLost = 0

theorem loopInv_new {c : Nat} {router : Router} (h : Fresh router) :
    LoopInv c (⟨router, none⟩, CallHistory.new) where
  counts := fun _ x hx => h x (List.mem_of_getElem? hx)
  inCall := by simp

/-- **Every publisher has its message.** For every coupler, every server, every
sequence of messages, and every interleaving. -/
theorem fair_run (c : Nat) (router : Router) (hfresh : Fresh router) (inputs : List PublishInput)
    (horderly : ∀ mv ∈ (observedLoop c).trace (⟨router, none⟩, CallHistory.new) inputs,
      Peaceful c mv.pre.1 mv.input) :
    ∀ mv ∈ (observedLoop c).trace (⟨router, none⟩, CallHistory.new) inputs, FairMove c mv := by
  intro mv hmv
  have hinv := ((observedLoop c).trace_invariant (LoopInv c) (fun s i => Peaceful c s.1 i)
    (fun s i h ho => (stepKept h i ho).2) (loopInv_new hfresh) inputs horderly mv hmv).1
  have hfair := (stepKept hinv mv.input (horderly mv hmv)).1
  rw [(observedLoop c).step_of_mem_trace hmv] at hfair
  exact hfair

/-- A coupler with two publishers, the queue of the first one full. -/
def twoPublishers : Router where
  couplers := [⟨"a", [0, 1], 0⟩]
  publishers := [⟨∅, true, 1, 1, none, [⟨0, 0, []⟩], 0, []⟩, ⟨∅, true, 1, 1, none, [], 0, []⟩]
  clients := []
  servers := []

/-- The first one reports overflow, and the second one leaves before its turn. -/
theorem fair_run_twoPublishers : Fresh twoPublishers ∧
    ∀ mv ∈ (observedLoop 0).trace (⟨twoPublishers, none⟩, CallHistory.new)
      [.publish ⟨0, 1, []⟩, .turn .passes, .deregister 1, .turn .passes], FairMove 0 mv := by
  have hfresh : Fresh twoPublishers := by simp [Fresh, twoPublishers]
  refine ⟨hfresh, fair_run 0 twoPublishers hfresh _ ?_⟩
  simp only [Machine.trace_cons, Machine.trace_nil, List.forall_mem_cons]
  refine ⟨fun _ => by decide, fun _ _ _ _ => by simp, ?_, fun _ _ _ _ => by simp, by simp⟩
  intro call hcall
  obtain rfl := Option.some.inj hcall
  exact Or.inl (by decide)

/-- The first publisher leaves behind its turn, and the second one is skipped. -/
theorem not_fair :
    ¬ ∀ mv ∈ (observedLoop 0).trace (⟨twoPublishers, none⟩, CallHistory.new)
      [.publish ⟨0, 1, []⟩, .turn .discards, .deregister 0, .turn .passes], FairMove 0 mv := by
  intro h
  simp only [Machine.trace_cons, Machine.trace_nil, List.forall_mem_cons] at h
  have hcount := h.2.2.2.1.offered_once rfl 1 (by decide) (by decide)
  exact absurd hcount (by decide)

end NavigationServer.RouterCore
