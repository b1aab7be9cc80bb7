/-
NavigationServer.CanInterface.ReadStreamsTheorems — what a stream of NMEA2000
messages yields.

`readStreams_deliver` : whatever the other streams do, a stream yields the
messages that its filter accepts, one after the other and each of them once,
from the first message behind its opening up to the first one for which its
queue was full. While no message was lost, a stream whose client name no other
stream has is offered every message. With a second stream of the same name the
first one is taken out of the dictionary, and so can be the second
(`removed_without_loss`).

`ReadInv` is what every step keeps. For a stream it counts: `content` says that
what was yielded, is queued or was lost are the accepted ones among the messages it
was offered, and `awaits` and `current` say how many these are, for a stream to which
the loop of the controller still comes and for one in the dictionary to which it does
not. Each step moves one of these numbers by one at most, so the lemma of a step is
about one stream and a frame for the others. The loop goes over the streams that were
in the dictionary at its beginning, so one that is opened meanwhile is not offered the
message, and one that is removed still is.

Time stamps are not carried over to the streams here, and the yield of a message and
its reception by the client are one.
-/
import Mathlib.Data.List.Nodup
import NavigationServer.CanInterface.ReadStreams
import NavigationServer.Lib.Lists

namespace NavigationServer.CanInterface

open NavigationServer.Lib
open NavigationServer.RouterCore

/-! ## 1. Messages and filters -/

/-- A message comes out of its protobuf form as it went in. -/
theorem fromProtobuf_asProtobuf (msg : NMEA2000Msg) : fromProtobuf (asProtobuf msg) = msg := by
  cases msg with
  | mk pgn prio sa da payload fastPacket isIso hfast hiso =>
    subst hfast hiso
    rfl

namespace N2KReadSubscriber

variable {s : N2KReadSubscriber} {msg : NMEA2000Msg}

/-- The queue is full for a message that the filter accepts only. -/
theorem pushMessage_full (h : (s.pushMessage msg).1 = true) :
    s.accepts msg = true ∧ queueSize ≤ s.queue.length := by
  unfold pushMessage at h
  split at h
  · rename_i haccepts
    split at h
    · rename_i hfull
      exact ⟨haccepts, hfull⟩
    · cases h
  · cases h

/-- Otherwise the message is put where the filter accepts it. -/
theorem pushMessage_put (h : (s.pushMessage msg).1 = false) :
    (s.pushMessage msg).2 = { s with queue := s.queue ++ [msg].filter s.accepts } := by
  unfold pushMessage at h ⊢
  split at h
  · rename_i haccepts
    rw [if_pos haccepts]
    split at h
    · cases h
    · rename_i hroom
      rw [if_neg hroom, List.filter_cons_of_pos haccepts, List.filter_nil]
  · rename_i hnot
    rw [if_neg hnot, List.filter_cons_of_neg hnot, List.filter_nil, List.append_nil]

end N2KReadSubscriber

/-! ## 2. The dictionary -/

namespace ReadService

section Dictionary

variable {d : List (String × Nat)} {client : String} {n i : Nat}

/-- The streams in the dictionary. -/
def values (d : List (String × Nat)) : List Nat := d.map Prod.snd

/-- An assignment brings no stream but its own into the dictionary. -/
theorem mem_values_setSubscriber (h : i ∈ values (setSubscriber d client n)) :
    i = n ∨ i ∈ values d := by
  unfold setSubscriber at h
  split at h
  · obtain ⟨e, he, rfl⟩ := List.mem_map.mp h
    obtain ⟨e', he', rfl⟩ := List.mem_map.mp he
    split
    · exact Or.inl rfl
    · exact Or.inr (List.mem_map_of_mem he')
  · unfold values at h
    rw [List.map_append] at h
    rcases List.mem_append.mp h with h | h
    · exact Or.inr h
    · exact Or.inl (List.mem_singleton.mp h)

theorem self_mem_setSubscriber : (client, n) ∈ setSubscriber d client n := by
  unfold setSubscriber
  split
  · rename_i hany
    obtain ⟨e, he, hkey⟩ := List.any_eq_true.mp hany
    refine List.mem_map.mpr ⟨e, he, ?_⟩
    rw [if_pos (by simpa using hkey)]
  · exact List.mem_append_right _ (List.mem_singleton_self _)

/-- The other clients keep their streams. -/
theorem mem_setSubscriber_of_ne {e : String × Nat} (he : e ∈ d) (hne : e.1 ≠ client) :
    e ∈ setSubscriber d client n := by
  unfold setSubscriber
  split
  · exact List.mem_map.mpr ⟨e, he, if_neg hne⟩
  · exact List.mem_append_left _ he

theorem key_of_mem_setSubscriber {e : String × Nat} (h : e ∈ setSubscriber d client n) :
    e = (client, n) ∨ e ∈ d := by
  unfold setSubscriber at h
  split at h
  · obtain ⟨e', he', rfl⟩ := List.mem_map.mp h
    split
    · exact Or.inl rfl
    · exact Or.inr he'
  · rcases List.mem_append.mp h with h | h
    · exact Or.inr h
    · exact Or.inl (List.mem_singleton.mp h)

theorem keys_setSubscriber (h : (d.map Prod.fst).Nodup) :
    ((setSubscriber d client n).map Prod.fst).Nodup := by
  unfold setSubscriber
  split
  · have hkeys : (d.map (fun e => if e.1 = client then (client, n) else e)).map Prod.fst
        = d.map Prod.fst := by
      rw [List.map_map]
      refine List.map_congr_left fun e _ => ?_
      show (if e.1 = client then (client, n) else e).1 = e.1
      split
      · rename_i hkey
        exact hkey.symm
      · rfl
    rwa [hkeys]
  · rename_i hany
    rw [List.map_append]
    refine List.nodup_append.mpr ⟨h, List.nodup_singleton _, ?_⟩
    rintro key hkey key' hkey' rfl
    obtain ⟨e, he, rfl⟩ := List.mem_map.mp hkey
    refine hany (List.any_eq_true.mpr ⟨e, he, ?_⟩)
    simpa using List.mem_singleton.mp hkey'

/-- No stream is in the dictionary twice: one that is new takes the place of the one before
it. -/
theorem values_setSubscriber_nodup (hkeys : (d.map Prod.fst).Nodup) (hvalues : (values d).Nodup)
    (hn : n ∉ values d) : (values (setSubscriber d client n)).Nodup := by
  unfold setSubscriber
  split
  · unfold values
    rw [List.map_map]
    refine List.Nodup.map_on ?_ (List.Nodup.of_map _ hkeys)
    intro e he e' he' heq
    simp only [Function.comp] at heq
    have hmem : ∀ e ∈ d, e.2 ≠ n := fun e he h => hn (h ▸ List.mem_map_of_mem he)
    split at heq <;> split at heq
    · rename_i h h'
      exact List.inj_on_of_nodup_map hkeys he he' (h.trans h'.symm)
    · exact absurd heq.symm (hmem e' he')
    · exact absurd heq (hmem e he)
    · exact List.inj_on_of_nodup_map hvalues he he' heq
  · unfold values at hn hvalues ⊢
    rw [List.map_append]
    refine List.nodup_append.mpr ⟨hvalues, List.nodup_singleton _, ?_⟩
    rintro j hj j' hj' rfl
    obtain rfl : j = n := List.mem_singleton.mp hj'
    exact hn hj

end Dictionary

/-! ## 3. The invariant -/

/-- A stream `i`, in the state of the controller. -/
structure StreamInv (s : ReadService) (i : Nat) (r : ReadStream) : Prop where
  content : r.yielded.map fromProtobuf ++ r.subscriber.queue ++ r.lost
    = ((s.dispatched.drop r.since).take r.offered).filter r.subscriber.accepts
  within : r.since + r.offered ≤ s.dispatched.length
  lost_le : r.lost.length ≤ 1
  full : r.lost ≠ [] →
    N2KReadSubscriber.queueSize ≤ r.yielded.length + r.subscriber.queue.length
  awaits : ∀ d, s.dispatch = some d → i ∈ d.rest →
    r.since + r.offered + 1 = s.dispatched.length ∧ r.lost = []
  current : i ∈ values s.readSubscribers → (∀ d, s.dispatch = some d → i ∉ d.rest) →
    r.since + r.offered = s.dispatched.length
  kept : r.lost ≠ [] → i ∈ values s.readSubscribers →
    ∃ d, s.dispatch = some d ∧ d.removing = some i

/-- No other stream has the name of its client. -/
def OwnName (s : ReadService) (i : Nat) (r : ReadStream) : Prop :=
  ∀ j r', s.streams[j]? = some r' → r'.subscriber.client = r.subscriber.client → j = i

/-- What is known of the dictionary, of the loop that goes over it, and of every stream.
`rest` and `removing` are about the loop: which streams it comes to, and which one it is
about to remove. -/
structure ReadInv (s : ReadService) : Prop where
  keys : (s.readSubscribers.map Prod.fst).Nodup
  nodup : (values s.readSubscribers).Nodup
  named : ∀ e ∈ s.readSubscribers, ∃ r, s.streams[e.2]? = some r ∧ r.subscriber.client = e.1
  rest : ∀ d, s.dispatch = some d → d.rest.Nodup ∧ ∀ i ∈ d.rest, i < s.streams.length
  last : ∀ d, s.dispatch = some d → s.dispatched.getLast? = some d.msg
  removing : ∀ d i, s.dispatch = some d → d.removing = some i →
    ∃ r, s.streams[i]? = some r ∧ r.lost ≠ []
  stream : ∀ i r, s.streams[i]? = some r → StreamInv s i r
  registered : ∀ i r, s.streams[i]? = some r → r.lost = [] → OwnName s i r →
    i ∈ values s.readSubscribers

theorem readInv_start : ReadInv start := by
  have hno : ∀ (i : Nat) (r : ReadStream), start.streams[i]? ≠ some r := by
    intro i r
    simp [start]
  refine ⟨List.nodup_nil, List.nodup_nil, (fun _ h => nomatch h), (fun _ h => nomatch h),
    (fun _ h => nomatch h), (fun _ _ h => nomatch h), ?_, ?_⟩
  · intro i r h
    exact absurd h (hno i r)
  · intro i r h
    exact absurd h (hno i r)

variable {s : ReadService}

/-- Every stream of the dictionary is there. -/
theorem lt_of_mem_values (h : ReadInv s) {i : Nat} (hi : i ∈ values s.readSubscribers) :
    i < s.streams.length := by
  obtain ⟨e, he, rfl⟩ := List.mem_map.mp hi
  obtain ⟨r, hr, -⟩ := h.named e he
  exact (List.getElem?_eq_some_iff.mp hr).1

/-! ## 4. One step -/

/-- A stream is opened. -/
theorem ReadInv.addReadSubscriber (h : ReadInv s) {sub : N2KReadSubscriber}
    (hqueue : sub.queue = []) :
    ReadInv (s.addReadSubscriber sub) := by
  obtain ⟨new, hnew⟩ : ∃ new : ReadStream, new = ⟨sub, [], true, s.dispatched.length, 0, []⟩ :=
    ⟨_, rfl⟩
  have hs : s.addReadSubscriber sub = { s with
      streams := s.streams ++ [new]
      readSubscribers := setSubscriber s.readSubscribers sub.client s.streams.length } := by
    rw [hnew]
    rfl
  have hfresh : s.streams.length ∉ values s.readSubscribers :=
    fun hmem => Nat.lt_irrefl _ (lt_of_mem_values h hmem)
  have hold : ∀ (i : Nat) (r : ReadStream), s.streams[i]? = some r →
      (s.streams ++ [new])[i]? = some r := by
    intro i r hr
    rw [List.getElem?_append_left (List.getElem?_eq_some_iff.mp hr).1, hr]
  have hget : ∀ (i : Nat) (r : ReadStream), (s.streams ++ [new])[i]? = some r →
      s.streams[i]? = some r ∨ (i = s.streams.length ∧ r = new) := by
    intro i r hr
    rcases Nat.lt_or_ge i s.streams.length with hlt | hge
    · rw [List.getElem?_append_left hlt] at hr
      exact Or.inl hr
    · rw [List.getElem?_append_right hge] at hr
      obtain ⟨hlt, hr⟩ := List.getElem?_eq_some_iff.mp hr
      rw [List.length_singleton] at hlt
      refine Or.inr ⟨by omega, ?_⟩
      rw [← hr, List.getElem_singleton]
  rw [hs]
  refine ⟨keys_setSubscriber h.keys, values_setSubscriber_nodup h.keys h.nodup hfresh, ?_, ?_,
    h.last, ?_, ?_, ?_⟩
  · intro e he
    rcases key_of_mem_setSubscriber he with rfl | he
    · refine ⟨new, ?_, by rw [hnew]⟩
      show (s.streams ++ [new])[s.streams.length]? = some new
      rw [List.getElem?_append_right (Nat.le_refl _), Nat.sub_self]
      rfl
    · obtain ⟨r, hr, hkey⟩ := h.named e he
      exact ⟨r, hold _ r hr, hkey⟩
  · intro d hd
    obtain ⟨hrest, hlt⟩ := h.rest d hd
    refine ⟨hrest, fun i hi => ?_⟩
    show i < (s.streams ++ [new]).length
    rw [List.length_append]
    exact Nat.lt_add_right _ (hlt i hi)
  · intro d i hd hi
    obtain ⟨r, hr, hlost⟩ := h.removing d i hd hi
    exact ⟨r, hold i r hr, hlost⟩
  · intro i r hr
    rcases hget i r hr with hr | ⟨rfl, rfl⟩
    · have hi := h.stream i r hr
      have hne : i ≠ s.streams.length := by
        rintro rfl
        exact Nat.lt_irrefl _ (List.getElem?_eq_some_iff.mp hr).1
      have hvalues : i ∈ values (setSubscriber s.readSubscribers sub.client s.streams.length) →
          i ∈ values s.readSubscribers := fun hmem =>
        (mem_values_setSubscriber hmem).resolve_left hne
      exact ⟨hi.content, hi.within, hi.lost_le, hi.full, hi.awaits,
        fun hmem => hi.current (hvalues hmem), fun hlost hmem => hi.kept hlost (hvalues hmem)⟩
    -- the new one begins behind all messages the controller has come to
    · rw [hnew]
      refine ⟨by simp [hqueue], Nat.le_refl _, Nat.zero_le _, fun hlost => absurd rfl hlost, ?_,
        fun _ _ => rfl, fun hlost => absurd rfl hlost⟩
      intro d hd hmem
      exact absurd ((h.rest d hd).2 _ hmem) (Nat.lt_irrefl _)
  · intro i r hr hlost hown
    rcases hget i r hr with hr | ⟨rfl, -⟩
    · have hne : i ≠ s.streams.length := by
        rintro rfl
        exact Nat.lt_irrefl _ (List.getElem?_eq_some_iff.mp hr).1
      have hmem := h.registered i r hr hlost fun j r' hr' => hown j r' (hold j r' hr')
      obtain ⟨e, he, rfl⟩ := List.mem_map.mp hmem
      obtain ⟨r', hr', hkey⟩ := h.named e he
      obtain rfl : r' = r := Option.some.inj (hr'.symm.trans hr)
      refine List.mem_map_of_mem (mem_setSubscriber_of_ne he ?_)
      -- the new stream would have the same name
      intro hclient
      refine hne.symm (hown s.streams.length new ?_ ?_)
      · show (s.streams ++ [new])[s.streams.length]? = some new
        rw [List.getElem?_append_right (Nat.le_refl _), Nat.sub_self]
        rfl
      · rw [hnew, hkey, hclient]
    · exact List.mem_map_of_mem self_mem_setSubscriber

/-- The controller comes to a message. -/
theorem ReadInv.processMsg (h : ReadInv s) (hidle : s.dispatch = none) (msg : NMEA2000Msg) :
    ReadInv { s with
      dispatch := some ⟨msg, values s.readSubscribers, none⟩
      dispatched := s.dispatched ++ [msg] } := by
  refine ⟨h.keys, h.nodup, h.named, ?_, ?_, ?_, ?_, h.registered⟩
  · rintro d hd
    obtain rfl := Option.some.inj hd
    exact ⟨h.nodup, fun i hi => lt_of_mem_values h hi⟩
  · rintro d hd
    obtain rfl := Option.some.inj hd
    exact List.getLast?_concat
  · rintro d i hd hi
    obtain rfl := Option.some.inj hd
    cases hi
  · intro i r hr
    have hi := h.stream i r hr
    have hno : ∀ d, s.dispatch = some d → i ∉ d.rest := by
      intro d hd
      rw [hidle] at hd
      cases hd
    -- between two messages a stream that has lost one is out of the dictionary
    have hlost : i ∈ values s.readSubscribers → r.lost = [] := by
      intro hmem
      by_contra hne
      obtain ⟨d, hd, -⟩ := hi.kept hne hmem
      rw [hidle] at hd
      cases hd
    refine ⟨?_, ?_, hi.lost_le, hi.full, ?_, ?_, ?_⟩
    · have hdrop : (s.dispatched ++ [msg]).drop r.since = s.dispatched.drop r.since ++ [msg] :=
        List.drop_append_of_le_length (Nat.le_of_add_right_le hi.within)
      show _ = (((s.dispatched ++ [msg]).drop r.since).take r.offered).filter _
      rw [hi.content, hdrop, List.take_append_of_le_length]
      rw [List.length_drop]
      have := hi.within
      omega
    · show r.since + r.offered ≤ (s.dispatched ++ [msg]).length
      rw [List.length_append]
      exact Nat.le_add_right_of_le hi.within
    · rintro d hd hmem
      obtain rfl := Option.some.inj hd
      refine ⟨?_, hlost hmem⟩
      show _ = (s.dispatched ++ [msg]).length
      rw [List.length_append, List.length_singleton, hi.current hmem hno]
    · intro hmem hnot
      exact absurd hmem (hnot _ rfl)
    · intro hne hmem
      exact absurd (hlost hmem) hne

/-- What is written down of a stream stays, and so does what its client has got
or will get. -/
structure Alike (r r' : ReadStream) : Prop where
  since : r'.since = r.since
  offered : r'.offered = r.offered
  lost : r'.lost = r.lost
  client : r'.subscriber.client = r.subscriber.client
  accepts : r'.subscriber.accepts = r.subscriber.accepts
  content : r'.yielded.map fromProtobuf ++ r'.subscriber.queue
    = r.yielded.map fromProtobuf ++ r.subscriber.queue

theorem Alike.rfl (r : ReadStream) : Alike r r := ⟨Eq.refl _, Eq.refl _, Eq.refl _, Eq.refl _,
  Eq.refl _, Eq.refl _⟩

/-- What is yielded was at the head of the queue, and the client reads the same message. -/
theorem alike_getMessage (r : ReadStream) : Alike r (getMessage r) := by
  unfold getMessage
  split
  · rename_i msg queue _ hqueue
    refine ⟨.refl _, .refl _, .refl _, .refl _, .refl _, ?_⟩
    rw [hqueue, List.map_append, List.append_assoc, List.map_singleton, fromProtobuf_asProtobuf]
    exact Eq.refl _
  · exact .rfl r

theorem alike_timeOut (r : ReadStream) : Alike r (timeOut r) := by
  unfold timeOut
  split
  · exact ⟨.refl _, .refl _, .refl _, .refl _, .refl _, .refl _⟩
  · exact .rfl r

/-- A turn of a stream. -/
theorem ReadInv.modifyStream (h : ReadInv s) (i : Nat) {f : ReadStream → ReadStream}
    (hf : ∀ r, Alike r (f r)) : ReadInv (s.modifyStream i f) := by
  have halike : ∀ (j : Nat) (r : ReadStream), Alike r (if i = j then f r else r) := by
    intro j r
    split
    · exact hf r
    · exact .rfl r
  refine ⟨h.keys, h.nodup, ?_, ?_, h.last, ?_, ?_, ?_⟩
  · intro e he
    obtain ⟨r, hr, hkey⟩ := h.named e he
    exact ⟨_, getElem?_modify_of _ _ hr, (halike e.2 r).client.trans hkey⟩
  · intro d hd
    obtain ⟨hrest, hlt⟩ := h.rest d hd
    refine ⟨hrest, fun j hj => ?_⟩
    show j < (s.streams.modify i f).length
    rw [List.length_modify]
    exact hlt j hj
  · intro d j hd hj
    obtain ⟨r, hr, hlost⟩ := h.removing d j hd hj
    exact ⟨_, getElem?_modify_of _ _ hr, by rwa [(halike j r).lost]⟩
  · intro j r' hr'
    obtain ⟨r, hr, rfl⟩ := of_getElem?_modify hr'
    have hj := h.stream j r hr
    have hsame := halike j r
    have hlen := congrArg List.length hsame.content
    rw [List.length_append, List.length_append, List.length_map, List.length_map] at hlen
    refine ⟨?_, ?_, ?_, ?_, ?_, ?_, ?_⟩
    · rw [hsame.content, hsame.lost, hsame.since, hsame.offered, hsame.accepts]
      exact hj.content
    · rw [hsame.since, hsame.offered]
      exact hj.within
    · rw [hsame.lost]
      exact hj.lost_le
    · rw [hsame.lost, hlen]
      exact hj.full
    · rw [hsame.since, hsame.offered, hsame.lost]
      exact hj.awaits
    · rw [hsame.since, hsame.offered]
      exact hj.current
    · rw [hsame.lost]
      exact hj.kept
  · intro j r' hr' hlost hown
    obtain ⟨r, hr, rfl⟩ := of_getElem?_modify hr'
    have hsame := halike j r
    refine h.registered j r hr (hsame.lost.symm.trans hlost) fun k r'' hr'' hclient => ?_
    refine hown k _ (getElem?_modify_of _ _ hr'') ?_
    rw [(halike k r'').client, hsame.client, hclient]

/-- A subscriber whose queue was full is removed. -/
theorem ReadInv.remove (h : ReadInv s) {d : Dispatch} {i : Nat} (hd : s.dispatch = some d)
    (hi : d.removing = some i) {r : ReadStream} (hr : s.streams[i]? = some r) :
    ReadInv { s.removeReadSubscriber r.subscriber.client with
      dispatch := some { d with removing := none } } := by
  have hsub : (s.readSubscribers.filter (fun e => e.1 ≠ r.subscriber.client)).Sublist
      s.readSubscribers := List.filter_sublist
  have hvalues : ∀ {j : Nat}, j ∈ values (s.readSubscribers.filter
      (fun e => e.1 ≠ r.subscriber.client)) → j ∈ values s.readSubscribers :=
    fun hj => (hsub.map Prod.snd).subset hj
  -- the stream itself is not among those that stay
  have hgone : i ∉ values (s.readSubscribers.filter (fun e => e.1 ≠ r.subscriber.client)) := by
    intro hmem
    obtain ⟨e, he, rfl⟩ := List.mem_map.mp hmem
    obtain ⟨he, hkey⟩ := List.mem_filter.mp he
    obtain ⟨r', hr', hclient⟩ := h.named e he
    obtain rfl : r' = r := Option.some.inj (hr'.symm.trans hr)
    simp [hclient] at hkey
  refine ⟨h.keys.sublist (hsub.map Prod.fst), h.nodup.sublist (hsub.map Prod.snd), ?_, ?_, ?_, ?_,
    ?_, ?_⟩
  · intro e he
    exact h.named e (List.mem_of_mem_filter he)
  · rintro d' hd'
    obtain rfl := Option.some.inj hd'
    exact h.rest d hd
  · rintro d' hd'
    obtain rfl := Option.some.inj hd'
    exact h.last d hd
  · rintro d' j hd' hj
    obtain rfl := Option.some.inj hd'
    cases hj
  · intro j r' hr'
    have hj := h.stream j r' hr'
    refine ⟨hj.content, hj.within, hj.lost_le, hj.full, ?_, ?_, ?_⟩
    · rintro d' hd' hmem
      obtain rfl := Option.some.inj hd'
      exact hj.awaits d hd hmem
    · intro hmem hnot
      refine hj.current (hvalues hmem) fun d' hd' => ?_
      obtain rfl := Option.some.inj (hd.symm.trans hd')
      exact hnot { d with removing := none } (Eq.refl _)
    · intro hlost hmem
      obtain ⟨d', hd', hremoving⟩ := hj.kept hlost (hvalues hmem)
      obtain rfl := Option.some.inj (hd.symm.trans hd')
      obtain rfl := Option.some.inj (hi.symm.trans hremoving)
      exact absurd hmem hgone
  · intro j r' hr' hlost hown
    obtain ⟨e, he, rfl⟩ := List.mem_map.mp (h.registered j r' hr' hlost hown)
    obtain ⟨r'', hr'', hclient⟩ := h.named e he
    obtain rfl : r'' = r' := Option.some.inj (hr''.symm.trans hr')
    refine List.mem_map_of_mem (List.mem_filter.mpr ⟨he, ?_⟩)
    simp only [ne_eq, decide_not, Bool.not_eq_true', decide_eq_false_iff_not]
    intro hkey
    -- the name is removed, so it was the name of the stream that lost a message
    obtain rfl : i = e.2 := hown i r hr (by rw [← hkey, hclient])
    obtain ⟨r₀, hr₀, hne⟩ := h.removing d _ hd hi
    obtain rfl : r₀ = r'' := Option.some.inj (hr₀.symm.trans hr')
    exact hne hlost

/-- The loop of the controller ends. -/
theorem ReadInv.dispatchEnds (h : ReadInv s) {d : Dispatch} (hd : s.dispatch = some d)
    (hremoving : d.removing = none) (hrest : d.rest = []) :
    ReadInv { s with dispatch := none } := by
  refine ⟨h.keys, h.nodup, h.named, (fun _ h => nomatch h), (fun _ h => nomatch h),
    (fun _ _ h => nomatch h), ?_, h.registered⟩
  intro j r hr
  have hj := h.stream j r hr
  refine ⟨hj.content, hj.within, hj.lost_le, hj.full, (fun _ h => nomatch h), ?_, ?_⟩
  · intro hmem _
    refine hj.current hmem fun d' hd' => ?_
    obtain rfl := Option.some.inj (hd.symm.trans hd')
    rw [hrest]
    exact List.not_mem_nil
  · intro hlost hmem
    obtain ⟨d', hd', hsome⟩ := hj.kept hlost hmem
    obtain rfl := Option.some.inj (hd.symm.trans hd')
    rw [hremoving] at hsome
    cases hsome

/-- What a push makes of its stream. -/
structure Pushed (i : Nat) (d : Dispatch) (r r' : ReadStream) (removing : Option Nat) : Prop where
  since : r'.since = r.since
  offered : r'.offered = r.offered + 1
  client : r'.subscriber.client = r.subscriber.client
  accepts : r'.subscriber.accepts = r.subscriber.accepts
  content : r'.yielded.map fromProtobuf ++ r'.subscriber.queue ++ r'.lost
    = r.yielded.map fromProtobuf ++ r.subscriber.queue ++ [d.msg].filter r.subscriber.accepts
  lost : r'.lost = [] ∧ removing = none ∨
    r'.lost.length = 1 ∧ removing = some i ∧
      N2KReadSubscriber.queueSize ≤ r'.yielded.length + r'.subscriber.queue.length

/-- The message that is offered is the one behind those offered before. -/
theorem take_offered {r : ReadStream} {msg : NMEA2000Msg}
    (hlast : s.dispatched.getLast? = some msg)
    (hlen : r.since + r.offered + 1 = s.dispatched.length) :
    (s.dispatched.drop r.since).take (r.offered + 1)
      = (s.dispatched.drop r.since).take r.offered ++ [msg] := by
  have hget : s.dispatched[r.since + r.offered]? = some msg := by
    rw [← hlast, List.getLast?_eq_getElem?, ← hlen, Nat.add_sub_cancel]
  rw [List.take_add_one, List.getElem?_drop, hget]
  rfl

/-- The stream that is offered the message comes one message on, and is in the place of one
to which the loop has come; the others are where they were. -/
theorem ReadInv.pushed (h : ReadInv s) {d : Dispatch} {i : Nat} {rest : List Nat}
    (hd : s.dispatch = some d) (hremoving : d.removing = none) (hrest : d.rest = i :: rest)
    {r : ReadStream} (hr : s.streams[i]? = some r) {f : ReadStream → ReadStream}
    {removing : Option Nat} (hf : Pushed i d r (f r) removing) :
    ReadInv { s.modifyStream i f with
      dispatch := some { d with rest := rest, removing := removing } } := by
  obtain ⟨hnodup, hlt⟩ := h.rest d hd
  rw [hrest] at hnodup hlt
  obtain ⟨hi, hnodup⟩ := List.nodup_cons.mp hnodup
  have hstream := h.stream i r hr
  obtain ⟨hlen, hnone⟩ := hstream.awaits d hd (by rw [hrest]; exact List.mem_cons_self)
  have hclient : ∀ (j : Nat) (r₀ : ReadStream), s.streams[j]? = some r₀ →
      (if i = j then f r₀ else r₀).subscriber.client = r₀.subscriber.client := by
    intro j r₀ hr₀
    split
    · rename_i hij
      subst hij
      obtain rfl : r₀ = r := Option.some.inj (hr₀.symm.trans hr)
      exact hf.client
    · rfl
  refine ⟨h.keys, h.nodup, ?_, ?_, ?_, ?_, ?_, ?_⟩
  · intro e he
    obtain ⟨r₀, hr₀, hkey⟩ := h.named e he
    exact ⟨_, getElem?_modify_of _ _ hr₀, (hclient e.2 r₀ hr₀).trans hkey⟩
  · rintro d' hd'
    obtain rfl := Option.some.inj hd'
    refine ⟨hnodup, fun j hj => ?_⟩
    show j < (s.streams.modify i f).length
    rw [List.length_modify]
    exact hlt j (List.mem_cons_of_mem _ hj)
  · rintro d' hd'
    obtain rfl := Option.some.inj hd'
    exact h.last d hd
  · rintro d' j hd' hj
    obtain rfl := Option.some.inj hd'
    rcases hf.lost with ⟨-, hno⟩ | ⟨hlost, hself, -⟩
    · rw [hno] at hj
      cases hj
    · obtain rfl : i = j := Option.some.inj (hself.symm.trans hj)
      refine ⟨_, getElem?_modify_of _ _ hr, ?_⟩
      rw [if_pos rfl]
      exact List.ne_nil_of_length_eq_add_one hlost
  · intro j r' hr'
    obtain ⟨r₀, hr₀, rfl⟩ := of_getElem?_modify hr'
    by_cases hij : i = j
    -- the stream that is offered the message
    · subst hij
      obtain rfl : r₀ = r := Option.some.inj (hr₀.symm.trans hr)
      rw [if_pos rfl]
      refine ⟨?_, ?_, ?_, ?_, ?_, ?_, ?_⟩
      · have hcontent := hstream.content
        rw [hnone, List.append_nil] at hcontent
        show _ = ((s.dispatched.drop (f r₀).since).take (f r₀).offered).filter _
        rw [hf.content, hf.since, hf.offered, hf.accepts, take_offered (h.last d hd) hlen,
          List.filter_append, hcontent]
      · rw [hf.since, hf.offered]
        exact Nat.le_of_eq hlen
      · rcases hf.lost with ⟨hlost, -⟩ | ⟨hlost, -⟩
        · rw [hlost]
          exact Nat.zero_le 1
        · exact Nat.le_of_eq hlost
      · intro hlost
        rcases hf.lost with ⟨hno, -⟩ | ⟨-, -, hfull⟩
        · exact absurd hno hlost
        · exact hfull
      · rintro d' hd' hmem
        obtain rfl := Option.some.inj hd'
        exact absurd hmem hi
      · intro _ _
        rw [hf.since, hf.offered]
        exact hlen
      · intro hlost _
        rcases hf.lost with ⟨hno, -⟩ | ⟨-, hself, -⟩
        · exact absurd hno hlost
        · exact ⟨_, rfl, hself⟩
    -- and the others, to which the loop comes or does not as before
    · rw [if_neg hij]
      have hj := h.stream j r₀ hr₀
      refine ⟨hj.content, hj.within, hj.lost_le, hj.full, ?_, ?_, ?_⟩
      · rintro d' hd' hmem
        obtain rfl := Option.some.inj hd'
        exact hj.awaits d hd (by rw [hrest]; exact List.mem_cons_of_mem _ hmem)
      · intro hmem hnot
        refine hj.current hmem fun d' hd' => ?_
        obtain rfl := Option.some.inj (hd.symm.trans hd')
        rw [hrest]
        intro hcons
        rcases List.mem_cons.mp hcons with heq | hcons
        · exact hij heq.symm
        · exact hnot { d with rest := rest, removing := removing } rfl hcons
      · intro hlost hmem
        obtain ⟨d', hd', hsome⟩ := hj.kept hlost hmem
        obtain rfl := Option.some.inj (hd.symm.trans hd')
        rw [hremoving] at hsome
        cases hsome
  · intro j r' hr' hlost hown
    obtain ⟨r₀, hr₀, rfl⟩ := of_getElem?_modify hr'
    have hlost₀ : r₀.lost = [] := by
      by_cases hij : i = j
      · subst hij
        obtain rfl : r₀ = r := Option.some.inj (hr₀.symm.trans hr)
        exact hnone
      · rwa [if_neg hij] at hlost
    refine h.registered j r₀ hr₀ hlost₀ fun k r₁ hr₁ hsame => ?_
    refine hown k _ (getElem?_modify_of _ _ hr₁) ?_
    rw [hclient k r₁ hr₁, hclient j r₀ hr₀, hsame]

/-- A turn of the loop offers the message to the next stream. -/
theorem ReadInv.push (h : ReadInv s) {d : Dispatch} {i : Nat} {rest : List Nat}
    (hd : s.dispatch = some d) (hremoving : d.removing = none) (hrest : d.rest = i :: rest) :
    ReadInv (s.push d i rest) := by
  obtain ⟨r, hr⟩ : ∃ r, s.streams[i]? = some r := by
    have hlt := (h.rest d hd).2 i (by rw [hrest]; exact List.mem_cons_self)
    exact ⟨_, List.getElem?_eq_getElem hlt⟩
  have hnone := ((h.stream i r hr).awaits d hd (by rw [hrest]; exact List.mem_cons_self)).2
  unfold ReadService.push
  rw [hr]
  dsimp only
  cases hpush : r.subscriber.pushMessage d.msg with
  | mk full sub =>
    cases full with
    | true =>
      obtain ⟨haccepts, hfull⟩ := N2KReadSubscriber.pushMessage_full (congrArg Prod.fst hpush)
      refine h.pushed hd hremoving hrest hr
        ⟨rfl, rfl, rfl, rfl, ?_, Or.inr ⟨rfl, rfl, Nat.le_add_left_of_le hfull⟩⟩
      rw [List.filter_cons_of_pos haccepts, List.filter_nil]
    | false =>
      have hsub := N2KReadSubscriber.pushMessage_put (congrArg Prod.fst hpush)
      rw [hpush] at hsub
      obtain rfl : sub = _ := hsub
      rw [show ({ d with rest := rest } : Dispatch) = { d with rest := rest, removing := none } by
        rw [← hremoving]]
      refine h.pushed hd hremoving hrest hr ⟨rfl, rfl, rfl, rfl, ?_, Or.inl ⟨hnone, rfl⟩⟩
      show _ ++ (_ ++ _) ++ r.lost = _
      rw [hnone, List.append_nil, List.append_assoc]

/-- **One step.** -/
theorem ReadInv.step (h : ReadInv s) (i : ReadInput) : ReadInv (s.step i) := by
  cases i with
  | readNmea2000Msg client selectSource rejectSource selectPgn rejectPgn =>
    exact h.addReadSubscriber rfl
  | processMsg msg =>
    simp only [ReadService.step]
    split
    · exact h
    · rename_i hidle
      exact h.processMsg hidle msg
  | turn =>
    simp only [ReadService.step, ReadService.turn]
    split
    · exact h
    · rename_i d hd
      split
      · rename_i i hremoving
        obtain ⟨r, hr, -⟩ := h.removing d i hd hremoving
        rw [hr]
        exact h.remove hd hremoving hr
      · rename_i hremoving
        split
        · rename_i hrest
          exact h.dispatchEnds hd hremoving hrest
        · rename_i i rest hrest
          exact h.push hd hremoving hrest
  | getMessage i => exact h.modifyStream i alike_getMessage
  | timeOut i => exact h.modifyStream i alike_timeOut
  | cancel i => exact h.modifyStream i fun r => ⟨rfl, rfl, rfl, rfl, rfl, rfl⟩

/-! ## 5. Runs -/

/-- **The invariant holds in every state of every run.** -/
theorem readInv_of_reachable (h : readService.Reachable start s) : ReadInv s :=
  h.induction ReadInv readInv_start fun _ i h => h.step i

/-- **What a stream yields.** -/
theorem readStreams_deliver (h : readService.Reachable start s) {i : Nat} {r : ReadStream}
    (hr : s.streams[i]? = some r) :
    r.yielded.map fromProtobuf ++ r.subscriber.queue ++ r.lost
        = ((s.dispatched.drop r.since).take r.offered).filter r.subscriber.accepts ∧
      r.since + r.offered ≤ s.dispatched.length ∧
      r.lost.length ≤ 1 ∧
      (r.lost ≠ [] → N2KReadSubscriber.queueSize ≤ r.yielded.length + r.subscriber.queue.length) ∧
      (r.lost = [] → OwnName s i r →
        s.dispatched.length ≤ r.since + r.offered + 1 ∧
          (s.dispatch = none → r.since + r.offered = s.dispatched.length)) := by
  have hinv := readInv_of_reachable h
  have hi := hinv.stream i r hr
  refine ⟨hi.content, hi.within, hi.lost_le, hi.full, fun hlost hown => ?_⟩
  have hmem := hinv.registered i r hr hlost hown
  constructor
  · by_cases hawaits : ∃ d, s.dispatch = some d ∧ i ∈ d.rest
    · obtain ⟨d, hd, hrest⟩ := hawaits
      exact Nat.le_of_eq (hi.awaits d hd hrest).1.symm
    · have := hi.current hmem fun d hd hrest => hawaits ⟨d, hd, hrest⟩
      omega
  · intro hidle
    refine hi.current hmem fun d hd => ?_
    rw [hidle] at hd
    cases hd

/-- A message with the heading of a source. -/
def heading (sa : Nat) : NMEA2000Msg := .of 127250 2 sa 255 [1, 2, 3, 4, 5, 6, 7, 8]

/-- A stream for the source 3, and one that is opened later for all sources. -/
def twoStreams : List ReadInput :=
  [.readNmea2000Msg "a" [3] [] [] [], .processMsg (heading 3), .turn,
    .readNmea2000Msg "b" [] [] [] [], .turn, .processMsg (heading 4), .turn, .turn, .turn,
    .getMessage 0, .getMessage 1]

theorem readStreams_deliver_twoStreams :
    ∃ r, (readService.final start twoStreams).streams[0]? = some r ∧
      r.yielded.map fromProtobuf ++ r.subscriber.queue ++ r.lost
        = (((readService.final start twoStreams).dispatched.drop r.since).take r.offered).filter
            r.subscriber.accepts := by
  obtain ⟨r, hr⟩ : ∃ r, (readService.final start twoStreams).streams[0]? = some r :=
    Option.isSome_iff_exists.mp (by decide +kernel)
  exact ⟨r, hr, (readStreams_deliver ⟨twoStreams, rfl⟩ hr).1⟩

/-- A client opens its stream anew while the first one is being removed. -/
def openedAgain : List ReadInput :=
  .readNmea2000Msg "a" [] [] [] [] ::
    (List.replicate 20 [.processMsg (heading 3), .turn, .turn]).flatten ++
    [.processMsg (heading 3), .turn, .readNmea2000Msg "a" [] [] [] [], .turn, .turn,
      .processMsg (heading 4), .turn]

/-- The second stream is removed: it is not offered the last of 22 messages, and
has lost none. -/
theorem removed_without_loss :
    ((readService.final start openedAgain).streams[1]?).map
        (fun r => (r.since, r.offered, r.lost)) = some (21, 0, []) ∧
      (readService.final start openedAgain).dispatched.length = 22 ∧
      (readService.final start openedAgain).readSubscribers = [] := by
  decide +kernel

end ReadService

end NavigationServer.CanInterface
