/-
NavigationServer.Couplers.Nmea2kGrpcCouplerTheorems — what a coupler over gRPC
reads.

`grpcCoupler_reads` : over any number of streams, with stops, errors and new
starts, the coupler gets the messages of the bus that its request asks for in
order and none twice; within one stream it misses nothing, but for what the server
has lost for that stream.

`stopped_while_full` : a thread that is stopped while its queue is full waits in
`put` for ever.

Both are invariants of one step, one case for each step of a party. For the first the
server is followed by what it never takes back (`Later`): the messages it has come to,
and what a stream has yielded. A thread then has the beginning of what its stream has
yielded, in three parts (what was read, its queue, the message in its hand), and what
was read before a stream was started comes before all that this stream can yield. For
the second it is enough to see who could take a message off the queue.

The peer that the server finds for a call is left out, as is what the server does
with a client that is gone without an end of the call. That a message is read in
time is not said: a thread may wait for its turn as long as it likes.
-/
import Mathlib.Data.List.Infix
import NavigationServer.CanInterface.ReadStreamsTheorems
import NavigationServer.Couplers.Nmea2kGrpcCoupler
import NavigationServer.Lib.Lists

namespace NavigationServer.Couplers

open NavigationServer.Lib
open NavigationServer.RouterCommon
open NavigationServer.RouterCore
open NavigationServer.CanInterface

/-! ## 1. The server goes on -/

/-- What a later state of the server keeps. -/
structure Later (s s' : ReadService) : Prop where
  dispatched : s.dispatched <+: s'.dispatched
  stream : ∀ (i : Nat) (st : ReadStream), s.streams[i]? = some st →
    ∃ st', s'.streams[i]? = some st' ∧ st'.since = st.since ∧
      st'.subscriber.accepts = st.subscriber.accepts ∧ st.yielded <+: st'.yielded

/-- Nothing happened. -/
theorem Later.rfl (s : ReadService) : Later s s :=
  ⟨List.prefix_rfl, fun _ st h => ⟨st, h, .refl _, .refl _, List.prefix_rfl⟩⟩

/-- A step that changes a stream. -/
theorem later_modifyStream {s s' : ReadService} {i : Nat} {f : ReadStream → ReadStream}
    (hstreams : s'.streams = s.streams.modify i f) (hdispatched : s'.dispatched = s.dispatched)
    (hf : ∀ st, s.streams[i]? = some st → (f st).since = st.since ∧
      (f st).subscriber.accepts = st.subscriber.accepts ∧ st.yielded <+: (f st).yielded) :
    Later s s' := by
  refine ⟨hdispatched ▸ List.prefix_rfl, fun j st h => ?_⟩
  rw [hstreams, List.getElem?_modify, h]
  refine ⟨_, .refl _, ?_⟩
  dsimp only
  split
  · rename_i hij
    subst hij
    exact hf st h
  · exact ⟨.refl _, .refl _, List.prefix_rfl⟩

/-- One stream is offered a message: it takes it or loses it, and has yielded what it had. -/
theorem later_push (s : ReadService) (d : Dispatch) (i : Nat) (rest : List Nat) :
    Later s (s.push d i rest) := by
  unfold ReadService.push
  split
  · exact ⟨List.prefix_rfl, (Later.rfl s).stream⟩
  · rename_i st hst
    split
    · exact later_modifyStream (f := fun r => { r with offered := r.offered + 1, lost := [d.msg] })
        (.refl _) (.refl _) fun _ _ => ⟨.refl _, .refl _, List.prefix_rfl⟩
    · rename_i sub hpush
      refine later_modifyStream
        (f := fun r => { r with offered := r.offered + 1, subscriber := sub }) (.refl _) (.refl _)
        fun st' hst' => ⟨.refl _, ?_, List.prefix_rfl⟩
      obtain rfl : st = st' := Option.some.inj (hst.symm.trans hst')
      have hsub := congrArg Prod.snd hpush
      unfold N2KReadSubscriber.pushMessage at hsub
      dsimp only at hsub ⊢
      rw [← hsub]
      split
      · split <;> rfl
      · rfl

/-- The server goes on in any way: the bus has more messages, and no stream takes back what
it yielded. -/
theorem later_step (s : ReadService) (i : ReadInput) : Later s (s.step i) := by
  cases i with
  | readNmea2000Msg client selectSource rejectSource selectPgn rejectPgn =>
    refine ⟨List.prefix_rfl, fun i st h => ⟨st, ?_, .refl _, .refl _, List.prefix_rfl⟩⟩
    exact (List.getElem?_append_left (List.getElem?_eq_some_iff.mp h).1).trans h
  | processMsg msg =>
    unfold ReadService.step
    dsimp only
    split
    · exact .rfl s
    · exact ⟨List.prefix_append _ _, (Later.rfl s).stream⟩
  | turn =>
    show Later s s.turn
    unfold ReadService.turn
    split
    · exact .rfl s
    · split
      · exact ⟨List.prefix_rfl, (Later.rfl s).stream⟩
      · split
        · exact ⟨List.prefix_rfl, (Later.rfl s).stream⟩
        · exact later_push s _ _ _
  | getMessage i =>
    refine later_modifyStream (f := ReadService.getMessage) (.refl _) (.refl _) fun st _ => ?_
    unfold ReadService.getMessage
    split
    · exact ⟨.refl _, .refl _, List.prefix_append _ _⟩
    · exact ⟨.refl _, .refl _, List.prefix_rfl⟩
  | timeOut i =>
    refine later_modifyStream (f := ReadService.timeOut) (.refl _) (.refl _) fun st _ => ?_
    unfold ReadService.timeOut
    split <;> exact ⟨.refl _, .refl _, List.prefix_rfl⟩
  | cancel i =>
    exact later_modifyStream (f := fun r => { r with isOpen := false }) (.refl _) (.refl _)
      fun _ _ => ⟨.refl _, .refl _, List.prefix_rfl⟩

/-! ## 2. The invariant -/

namespace N2KGrpcCoupler

variable {req : CANReadRequest} {s : N2KGrpcCoupler}

/-- What `_read` has returned of the streams before number `r`. -/
def before (s : N2KGrpcCoupler) (r : Nat) : List NMEA2000Msg :=
  ((s.threads.take r).flatMap StreamThread.read).map fromProtobuf

/-- The messages that the request asks for, of those that the controller had come
to when the call of a stream came to the server, or of all. -/
def asked (req : CANReadRequest) (service : ReadService) (stream : Option Nat) :
    List NMEA2000Msg :=
  match stream.bind (fun i => service.streams[i]?) with
  | none => service.dispatched.filter req.subscriber.accepts
  | some st => (service.dispatched.take st.since).filter req.subscriber.accepts

/-- The messages that a thread has had, and what it has of its stream. -/
def OfStream (req : CANReadRequest) (service : ReadService) (t : StreamThread) : Prop :=
  match t.stream with
  | none => t.taken = 0 ∧ t.read ++ t.queue ++ t.holding.toList = []
  | some i => ∃ st, service.streams[i]? = some st ∧ st.subscriber.accepts = req.subscriber.accepts ∧
      t.taken ≤ st.yielded.length ∧
      t.read ++ t.queue ++ t.holding.toList = st.yielded.take t.taken

/-- What holds in every run: the queue that `_read` looks at is that of the last stream,
each thread has what its stream yielded so far, and all that was read of the streams before
comes before the call of a stream. -/
structure GrpcInv (req : CANReadRequest) (s : N2KGrpcCoupler) : Prop where
  service : ReadService.ReadInv s.service
  last : ∀ q, s.readQueue = some q → q + 1 = s.threads.length
  inGet : ∀ q, s.place = .inGet q → s.readQueue = some q
  ofStream : ∀ t ∈ s.threads, OfStream req s.service t
  before_sublist : ∀ (r : Nat) (t : StreamThread), s.threads[r]? = some t →
    (s.before r).Sublist (asked req s.service t.stream)
  returned : s.returned = (s.threads.flatMap StreamThread.read).map fromProtobuf

/-- No stream was started. -/
theorem grpcInv_start : GrpcInv req start :=
  ⟨ReadService.readInv_start, fun _ h => (nomatch h), fun _ h => (nomatch h),
    fun _ h => absurd h List.not_mem_nil, fun _ _ h => (nomatch h), rfl⟩

/-- What the coupler has read of a stream is the beginning of what the stream was
offered. -/
theorem read_begins (h : ReadService.ReadInv s.service) {t : StreamThread} {i : Nat}
    {st : ReadStream} (ht : OfStream req s.service t) (hi : t.stream = some i)
    (hst : s.service.streams[i]? = some st) :
    t.read.map fromProtobuf
      <+: (s.service.dispatched.drop st.since).filter req.subscriber.accepts := by
  unfold OfStream at ht
  rw [hi] at ht
  obtain ⟨st', hst', haccepts, -, hread⟩ := ht
  obtain rfl : st = st' := Option.some.inj (hst.symm.trans hst')
  have hcontent := (h.stream i st hst).content
  rw [haccepts] at hcontent
  have hyielded : t.read <+: st.yielded := by
    refine List.IsPrefix.trans ?_ (List.take_prefix t.taken st.yielded)
    rw [← hread, List.append_assoc]
    exact List.prefix_append _ _
  have hoffered : st.yielded.map fromProtobuf
      <+: ((s.service.dispatched.drop st.since).take st.offered).filter
        req.subscriber.accepts := by
    rw [← hcontent, List.append_assoc]
    exact List.prefix_append _ _
  exact (hyielded.map _).trans (hoffered.trans ((List.take_prefix _ _).filter _))

/-- All that the coupler has read. -/
theorem GrpcInv.returned_sublist (h : GrpcInv req s) :
    s.returned.Sublist (s.service.dispatched.filter req.subscriber.accepts) := by
  rw [h.returned]
  rcases List.eq_nil_or_concat s.threads with hnil | ⟨front, t, hthreads⟩
  · rw [hnil]
    exact List.nil_sublist _
  · have hget : s.threads[front.length]? = some t := by
      rw [hthreads, List.concat_eq_append, List.getElem?_concat_length]
    have hbefore := h.before_sublist front.length t hget
    have ht := h.ofStream t (List.mem_of_getElem? hget)
    unfold before at hbefore
    rw [hthreads, List.concat_eq_append, List.take_left] at hbefore
    rw [hthreads, List.concat_eq_append, List.flatMap_append, List.map_append,
      List.flatMap_singleton]
    unfold asked at hbefore
    cases hi : t.stream with
    -- the call of the last stream is still on its way: nothing was read of it
    | none =>
      unfold OfStream at ht
      rw [hi] at ht hbefore
      have hread := List.append_eq_nil_iff.mp (List.append_eq_nil_iff.mp ht.2).1
      rw [hread.1, List.map_nil, List.append_nil]
      exact hbefore
    | some i =>
      obtain ⟨st, hst⟩ : ∃ st, s.service.streams[i]? = some st := by
        unfold OfStream at ht
        rw [hi] at ht
        obtain ⟨st, hst, -⟩ := ht
        exact ⟨st, hst⟩
      rw [hi, Option.bind_some, hst] at hbefore
      have hread := (read_begins h.service ht hi hst).sublist
      have hall := hbefore.append hread
      rwa [← List.filter_append, List.take_append_drop] at hall

/-! ## 3. The steps -/

/-- The flags of the readers change. -/
theorem GrpcInv.atClient (h : GrpcInv req s) (client : ServiceClient) :
    GrpcInv req { s with client := client } :=
  ⟨h.service, h.last, h.inGet, h.ofStream, h.before_sublist, h.returned⟩

/-- `_read` comes to another place. A `get` is only on the queue of the coupler. -/
theorem GrpcInv.atPlace (h : GrpcInv req s) {place : ReadPlace} (state : CouplerState)
    (hplace : ∀ q, place = .inGet q → s.readQueue = some q) :
    GrpcInv req { s with place := place, state := state } :=
  ⟨h.service, h.last, hplace, h.ofStream, h.before_sublist, h.returned⟩

/-- A thread that has the beginning of what its stream yielded has it when the stream has
yielded more. -/
theorem ofStream_later {service service' : ReadService} (hlater : Later service service')
    {t : StreamThread} (ht : OfStream req service t) : OfStream req service' t := by
  unfold OfStream at ht ⊢
  split
  · rename_i hnone
    rw [hnone] at ht
    exact ht
  · rename_i i hi
    rw [hi] at ht
    obtain ⟨st, hst, haccepts, htaken, hread⟩ := ht
    obtain ⟨st', hst', -, haccepts', more, hmore⟩ := hlater.stream i st hst
    refine ⟨st', hst', haccepts'.trans haccepts, ?_, ?_⟩
    · rw [← hmore, List.length_append]
      exact Nat.le_add_right_of_le htaken
    · rw [← hmore, List.take_append_of_le_length htaken]
      exact hread

/-- When the server goes on, more is asked for and nothing less. -/
theorem asked_later {service service' : ReadService} (hlater : Later service service')
    {t : StreamThread} (ht : OfStream req service t) :
    (asked req service t.stream).Sublist (asked req service' t.stream) := by
  unfold asked
  cases hi : t.stream with
  | none => exact (hlater.dispatched.filter _).sublist
  | some i =>
    unfold OfStream at ht
    rw [hi] at ht
    obtain ⟨st, hst, -⟩ := ht
    obtain ⟨st', hst', hsince, -⟩ := hlater.stream i st hst
    rw [Option.bind_some, Option.bind_some, hst, hst']
    dsimp only
    rw [hsince]
    exact ((hlater.dispatched.take _).filter _).sublist

/-- The server goes on. -/
theorem GrpcInv.server (h : GrpcInv req s) (i : ReadInput) :
    GrpcInv req { s with service := s.service.step i } := by
  have hlater := later_step s.service i
  refine ⟨h.service.step i, h.last, h.inGet, fun t ht => ofStream_later hlater (h.ofStream t ht),
    fun r t hr => ?_, h.returned⟩
  exact (h.before_sublist r t hr).trans
    (asked_later hlater (h.ofStream t (List.mem_of_getElem? hr)))

/-- A thread that keeps what was read of it. -/
theorem before_modifyThread {f : StreamThread → StreamThread} (hread : ∀ t, (f t).read = t.read)
    (r j : Nat) : (s.modifyThread r f).before j = s.before j := by
  unfold before
  have hmap := map_modify s.threads r f StreamThread.read hread
  have htake : ((s.threads.modify r f).map StreamThread.read).take j
      = (s.threads.map StreamThread.read).take j := by rw [hmap]
  rw [← List.map_take, ← List.map_take] at htake
  rw [List.flatMap_def, List.flatMap_def, N2KGrpcCoupler.modifyThread, htake]

/-- A thread takes a message of its stream, or puts one on its queue. -/
theorem GrpcInv.modifyThread (h : GrpcInv req s) (r : Nat) {f : StreamThread → StreamThread}
    (hread : ∀ t, (f t).read = t.read) (hstream : ∀ t, (f t).stream = t.stream)
    (hof : ∀ t, s.threads[r]? = some t → OfStream req s.service (f t)) :
    GrpcInv req (s.modifyThread r f) := by
  refine ⟨h.service, fun q hq => ?_, h.inGet, fun t ht => ?_, fun j t ht => ?_, ?_⟩
  · show q + 1 = (s.threads.modify r f).length
    rw [List.length_modify]
    exact h.last q hq
  · obtain ⟨j, hj⟩ := List.mem_iff_getElem?.mp ht
    obtain ⟨t₀, ht₀, rfl⟩ := of_getElem?_modify hj
    split
    · rename_i hrj
      subst hrj
      exact hof t₀ ht₀
    · exact h.ofStream t₀ (List.mem_of_getElem? ht₀)
  · obtain ⟨t₀, ht₀, rfl⟩ := of_getElem?_modify ht
    rw [before_modifyThread hread]
    have hsame : (if r = j then f t₀ else t₀).stream = t₀.stream := by
      split
      · exact hstream t₀
      · rfl
    rw [hsame]
    exact h.before_sublist j t₀ ht₀
  · rw [List.flatMap_def, N2KGrpcCoupler.modifyThread,
      map_modify s.threads r f StreamThread.read hread, ← List.flatMap_def]
    exact h.returned

/-- A stream is started: the coupler reads of the new one from now on. -/
theorem GrpcInv.startReadStream (h : GrpcInv req s) (houtside : s.place = .outside) :
    GrpcInv req s.startReadStream := by
  unfold N2KGrpcCoupler.startReadStream
  split
  · exact h
  · have hread : (s.threads ++ [StreamThread.new]).flatMap StreamThread.read
        = s.threads.flatMap StreamThread.read := by
      rw [List.flatMap_append, List.flatMap_singleton]
      exact List.append_nil _
    refine ⟨h.service, fun q hq => ?_, fun q hq => ?_, fun t ht => ?_, fun r t ht => ?_,
      h.returned.trans (by rw [hread])⟩
    · cases hq
      show s.threads.length + 1 = (s.threads ++ [StreamThread.new]).length
      rw [List.length_append, List.length_singleton]
    · change s.place = _ at hq
      rw [houtside] at hq
      cases hq
    · rcases List.mem_append.mp ht with ht | ht
      · exact h.ofStream t ht
      · rw [List.mem_singleton.mp ht]
        exact ⟨rfl, rfl⟩
    · unfold before
      dsimp only
      -- before the new stream is all that was read
      rcases getElem?_concat_some ht with ht | ⟨rfl, rfl⟩
      · have hr := (List.getElem?_eq_some_iff.mp ht).1
        rw [List.take_append_of_le_length (Nat.le_of_lt hr)]
        exact h.before_sublist r t ht
      · rw [List.take_left, ← h.returned]
        exact h.returned_sublist

/-- The call of a thread comes to the server. -/
theorem GrpcInv.call (h : GrpcInv req s) (r : Nat) : GrpcInv req (s.call req r) := by
  unfold N2KGrpcCoupler.call
  split
  · exact h
  · rename_i t ht
    split
    · rename_i hnew
      have hserver := h.server req.call
      have hstream : (s.service.step req.call).streams[s.service.streams.length]?
          = some ⟨req.subscriber, [], true, s.service.dispatched.length, 0, []⟩ :=
        List.getElem?_concat_length
      have hread : ∀ t : StreamThread,
          ({ t with stream := some s.service.streams.length } : StreamThread).read = t.read :=
        fun _ => rfl
      refine ⟨hserver.service, fun q hq => ?_, h.inGet, fun t' ht' => ?_, fun j t' ht' => ?_, ?_⟩
      · show q + 1 = (s.threads.modify r _).length
        rw [List.length_modify]
        exact h.last q hq
      · obtain ⟨j, hj⟩ := List.mem_iff_getElem?.mp ht'
        obtain ⟨t₀, ht₀, rfl⟩ := of_getElem?_modify hj
        split
        · rename_i hrj
          subst hrj
          obtain rfl : t = t₀ := Option.some.inj (ht.symm.trans ht₀)
          have hof := h.ofStream t (List.mem_of_getElem? ht)
          unfold OfStream at hof
          rw [hnew.2] at hof
          refine ⟨_, hstream, rfl, ?_, ?_⟩
          · exact Nat.le_of_eq hof.1
          · exact hof.2.trans (List.take_nil).symm
        · exact hserver.ofStream t₀ (List.mem_of_getElem? ht₀)
      · obtain ⟨t₀, ht₀, rfl⟩ := of_getElem?_modify ht'
        have hbefore := before_modifyThread (s := s) hread r j
        show (N2KGrpcCoupler.before (s.modifyThread r _) j).Sublist _
        rw [hbefore]
        split
        · rename_i hrj
          subst hrj
          obtain rfl : t = t₀ := Option.some.inj (ht.symm.trans ht₀)
          -- asked for is now what the bus has had up to here, which is all of it
          have hsub := h.before_sublist r t ht
          unfold asked at hsub ⊢
          rw [hnew.2, Option.bind_none] at hsub
          dsimp only
          rw [Option.bind_some, hstream]
          dsimp only
          rw [show (s.service.step req.call).dispatched = s.service.dispatched from rfl,
            List.take_length]
          exact hsub
        · exact hserver.before_sublist j t₀ ht₀
      · rw [List.flatMap_def]
        dsimp only [N2KGrpcCoupler.modifyThread]
        rw [map_modify s.threads r _ StreamThread.read hread, ← List.flatMap_def]
        exact h.returned
    · exact h

/-- The next message of the stream, which the thread holds until it is put. -/
theorem ofStream_take {t : StreamThread} {msg : Nmea2000pb} (ht : OfStream req s.service t)
    (hholding : t.holding = none) (hmsg : s.nextMessage t = some msg) :
    OfStream req s.service { t with taken := t.taken + 1, holding := some msg } := by
  unfold OfStream at ht ⊢
  unfold nextMessage at hmsg
  cases hi : t.stream with
  | none =>
    rw [hi] at hmsg
    cases hmsg
  | some i =>
    rw [hi] at ht hmsg
    obtain ⟨st, hst, haccepts, htaken, hread⟩ := ht
    rw [Option.bind_eq_bind, Option.bind_some, hst, Option.bind_eq_bind, Option.bind_some] at hmsg
    refine ⟨st, hst, haccepts, ?_, ?_⟩
    · exact (List.getElem?_eq_some_iff.mp hmsg).1
    · rw [hholding, Option.toList_none, List.append_nil] at hread
      rw [List.take_add_one, hmsg, ← hread]

/-- The loop of a thread takes a message of its stream, or leaves by the stop flag. -/
theorem GrpcInv.next (h : GrpcInv req s) (r : Nat) : GrpcInv req (s.next r) := by
  unfold N2KGrpcCoupler.next
  split
  · exact h
  · rename_i t ht
    split
    · rename_i hnone
      split
      · exact h
      · rename_i msg hmsg
        split
        · exact h.atClient _
        · refine h.modifyThread r (fun _ => rfl) (fun _ => rfl) fun t₀ ht₀ => ?_
          obtain rfl : t = t₀ := Option.some.inj (ht.symm.trans ht₀)
          exact ofStream_take (h.ofStream t (List.mem_of_getElem? ht)) hnone.2 hmsg
    · exact h

/-- A message goes from the hand of the thread to its queue, so the three together stay. -/
theorem put_spec (t : StreamThread) :
    (put t).read = t.read ∧ (put t).stream = t.stream ∧ (put t).taken = t.taken ∧
      (put t).read ++ (put t).queue ++ (put t).holding.toList
        = t.read ++ t.queue ++ t.holding.toList := by
  unfold put
  split
  · exact ⟨rfl, rfl, rfl, rfl⟩
  · rename_i msg hholding
    split
    · refine ⟨rfl, rfl, rfl, ?_⟩
      rw [hholding, Option.toList_some, Option.toList_none, List.append_nil, List.append_assoc]
    · exact ⟨rfl, rfl, rfl, rfl⟩

/-- A thread puts its message. -/
theorem GrpcInv.put (h : GrpcInv req s) (r : Nat) :
    GrpcInv req (s.modifyThread r N2KGrpcCoupler.put) := by
  refine h.modifyThread r (fun t => (put_spec t).1) (fun t => (put_spec t).2.1) fun t ht => ?_
  obtain ⟨-, hstream, htaken, hread⟩ := put_spec t
  have hof := h.ofStream t (List.mem_of_getElem? ht)
  unfold OfStream at hof ⊢
  rw [hstream, htaken, hread]
  exact hof

/-- `get` returns a message of the stream that was started last. -/
theorem GrpcInv.got (h : GrpcInv req s) : GrpcInv req s.got := by
  unfold N2KGrpcCoupler.got
  split
  · exact h
  · rename_i q hplace
    split
    · exact h
    · rename_i t ht
      split
      · exact h
      · rename_i msg queue hqueue
        -- the thread is the last one: its message goes to the end of what was read
        have hlast := h.last q (h.inGet q hplace)
        have hthreads : s.threads = s.threads.take q ++ [t] := by
          obtain ⟨hlt, hget⟩ := List.getElem?_eq_some_iff.mp ht
          rw [← hget, List.take_concat_get', hlast, List.take_length]
        have hlength : (s.threads.take q).length = q := by
          rw [List.length_take]
          omega
        obtain ⟨t', ht'⟩ : ∃ t' : StreamThread,
            t' = { t with queue := queue, read := t.read ++ [msg] } := ⟨_, rfl⟩
        have hmodify : s.threads.modify q
            (fun t => { t with queue := queue, read := t.read ++ [msg] })
              = s.threads.take q ++ [t'] := by
          have hconcat := modify_concat (s.threads.take q) t
            fun t => { t with queue := queue, read := t.read ++ [msg] }
          rw [hlength, ← hthreads] at hconcat
          rw [ht']
          exact hconcat
        have hof : OfStream req s.service t' := by
          have hof := h.ofStream t (List.mem_of_getElem? ht)
          unfold OfStream at hof ⊢
          rw [hqueue] at hof
          rw [ht']
          dsimp only
          rw [List.append_assoc t.read [msg] queue, List.singleton_append]
          exact hof
        refine ⟨h.service, fun q' hq' => ?_, fun _ hq' => (nomatch hq'), fun u hu => ?_,
          fun r u hr => ?_, ?_⟩
        · show q' + 1 = (s.threads.modify q _).length
          rw [List.length_modify]
          exact h.last q' hq'
        · change u ∈ s.threads.modify q _ at hu
          rw [hmodify] at hu
          rcases List.mem_append.mp hu with hu | hu
          · exact h.ofStream u (List.mem_of_mem_take hu)
          · rw [List.mem_singleton.mp hu]
            exact hof
        · change (s.threads.modify q _)[r]? = some u at hr
          unfold before
          dsimp only [N2KGrpcCoupler.modifyThread]
          rw [hmodify] at hr ⊢
          rcases getElem?_concat_some hr with hr | ⟨rfl, rfl⟩
          · have hlt := (List.getElem?_eq_some_iff.mp hr).1
            rw [List.take_append_of_le_length (Nat.le_of_lt hlt)]
            rw [hlength] at hlt
            rw [List.getElem?_take_of_lt hlt] at hr
            have hsub := h.before_sublist r u hr
            rwa [N2KGrpcCoupler.before, ← Nat.min_eq_left (Nat.le_of_lt hlt),
              ← List.take_take] at hsub
          · have hsub := h.before_sublist q t ht
            rw [List.take_left, ht']
            exact hsub
        · dsimp only [N2KGrpcCoupler.modifyThread]
          rw [hmodify, h.returned]
          conv_lhs => rw [hthreads]
          rw [List.flatMap_append, List.flatMap_append, List.flatMap_singleton,
            List.flatMap_singleton, ht', List.map_append, List.map_append, List.map_append,
            List.append_assoc]
          rfl

/-- **One step.** -/
theorem GrpcInv.step (h : GrpcInv req s) (i : GrpcCouplerInput) : GrpcInv req (s.step req i) := by
  cases i with
  | server i => exact h.server i
  | opens connected =>
    show GrpcInv req (s.openCoupler connected)
    unfold openCoupler
    split
    · rename_i hopen
      have hstart := h.startReadStream hopen.1
      exact hstart.atPlace .connected hstart.inGet
    · exact h
  | call r => exact h.call r
  | next r => exact h.next r
  | put r => exact h.put r
  | ends r rpcError =>
    show GrpcInv req (s.ends r rpcError)
    unfold N2KGrpcCoupler.ends
    split
    · exact h
    · split
      · exact h.atClient _
      · exact h
  | streamError r => exact h.atClient _
  | read =>
    show GrpcInv req s.beginRead
    unfold beginRead
    split
    · split
      · rename_i q _ hq
        refine h.atPlace s.state fun q' hq' => ?_
        cases hq'
        exact hq
      · exact h.atPlace .notReady h.inGet
    · exact h
  | got => exact h.got
  | empty =>
    show GrpcInv req s.getEmpty
    unfold getEmpty
    split
    · exact h
    · split
      · exact h
      · split
        · split
          · exact h.atPlace s.state fun _ hq => nomatch hq
          · exact h.atPlace .notReady fun _ hq => nomatch hq
        · exact h
  | stop => exact h.atClient _

/-! ## 4. Runs -/

/-- The invariant holds in every run. -/
theorem grpcInv_of_reachable (h : (grpcCoupler req).Reachable start s) : GrpcInv req s :=
  h.induction (GrpcInv req) grpcInv_start fun _ i h => h.step i

/-- **What the coupler reads.** The messages that `_read` has returned, over all
streams, stand in this order among those of the bus that the request asks for.
They are those of one stream behind those of the streams before it. With what is on
its way in a stream, what it has yielded is all that it was offered and has not
lost. -/
theorem grpcCoupler_reads (h : (grpcCoupler req).Reachable start s) :
    s.returned.Sublist (s.service.dispatched.filter req.subscriber.accepts) ∧
    s.returned = (s.threads.flatMap StreamThread.read).map fromProtobuf ∧
    ∀ t ∈ s.threads, ∀ i, t.stream = some i → ∃ st, s.service.streams[i]? = some st ∧
      (t.read ++ t.queue ++ t.holding.toList ++ st.yielded.drop t.taken).map fromProtobuf
          ++ st.subscriber.queue ++ st.lost
        = ((s.service.dispatched.drop st.since).take st.offered).filter
            req.subscriber.accepts := by
  have hinv := grpcInv_of_reachable h
  refine ⟨hinv.returned_sublist, hinv.returned, fun t ht i hi => ?_⟩
  have hof := hinv.ofStream t ht
  unfold OfStream at hof
  rw [hi] at hof
  obtain ⟨st, hst, haccepts, -, hread⟩ := hof
  have hcontent := (hinv.service.stream i st hst).content
  refine ⟨st, hst, ?_⟩
  rw [hread, List.take_append_drop, ← haccepts]
  exact hcontent

/-- A request for the source 3. -/
def fromSource : CANReadRequest := .of "can" (some [3]) none none none

/-- What the controller does with a message that one stream asks for, which then
yields it. -/
private def carried (sa i : Nat) : List GrpcCouplerInput :=
  [.server (.processMsg (ReadService.heading sa)), .server .turn, .server .turn,
    .server (.getMessage i)]

/-- A message is read, one is lost with its stream, and one is read of the next
stream. -/
private def twoStarts : List GrpcCouplerInput :=
  [.opens true, .call 0] ++ carried 3 0 ++ [.next 0, .put 0, .read, .got] ++ carried 3 0 ++
    [.ends 0 true, .streamError 0, .read, .server (.cancel 0), .opens true, .call 1] ++
    carried 3 1 ++ [.next 1, .put 1, .read, .got]

/-- The run above: the message that was lost with the first stream is not read. -/
theorem grpcCoupler_reads_twoStarts :
    ((grpcCoupler fromSource).final start twoStarts).returned
        = [ReadService.heading 3, ReadService.heading 3] ∧
      ((grpcCoupler fromSource).final start twoStarts).returned.Sublist
        (((grpcCoupler fromSource).final start twoStarts).service.dispatched.filter
          fromSource.subscriber.accepts) :=
  ⟨by decide +kernel, (grpcCoupler_reads ⟨twoStarts, rfl⟩).1⟩

/-! ## 5. A thread that waits for ever -/

/-- The thread is in the loop over its stream. -/
def Reads (client : ServiceClient) (r : Nat) : Prop :=
  ∃ reader, client.readers[r]? = some reader ∧ reader.phase = .reading

section Reads

variable {client : ServiceClient} {r : Nat}

/-- A new reader comes behind the others. -/
theorem Reads.startReadStream (h : Reads client r) (toQueue : Bool) :
    Reads (client.startReadStream toQueue) r := by
  unfold ServiceClient.startReadStream
  split
  · exact h
  · obtain ⟨reader, hreader, hphase⟩ := h
    exact ⟨reader, getElem?_concat_of_some _ hreader, hphase⟩

/-- A reader that stays in its loop. -/
theorem Reads.modifyReader (h : Reads client r) (j : Nat)
    {f : GrpcStreamingReader → GrpcStreamingReader}
    (hf : j = r → ∀ reader, (f reader).phase = reader.phase) :
    Reads (client.modifyReader j f) r := by
  obtain ⟨reader, hreader, hphase⟩ := h
  refine ⟨_, getElem?_modify_of j f hreader, ?_⟩
  split
  · rename_i hjr
    exact (hf hjr reader).trans hphase
  · exact hphase

/-- A stop sets a flag, which the thread sees behind its next message. -/
theorem Reads.stopReadStream (h : Reads client r) : Reads client.stopReadStream r := by
  unfold ServiceClient.stopReadStream
  split
  · rename_i j _
    exact h.modifyReader (f := .stop) j fun _ _ => rfl
  · exact h

/-- Only a thread that is about to end reports an error. -/
theorem Reads.streamError (h : Reads client r) (j : Nat) : Reads (client.streamError j) r := by
  unfold ServiceClient.streamError
  split
  · rename_i reader hreader
    split
    · rename_i hending
      have hjr : j ≠ r := by
        rintro rfl
        obtain ⟨reader', hreader', hphase⟩ := h
        rw [Option.some.inj (hreader.symm.trans hreader'), hphase] at hending
        cases hending
      exact h.modifyReader j fun heq => absurd heq hjr
    · exact h
  · exact h

/-- Another thread leaves its loop. -/
theorem Reads.leaves (h : Reads client r) {j : Nat} (hjr : j ≠ r) (why : StreamEnd) :
    Reads (client.leaves j why) r := by
  unfold ServiceClient.leaves
  split
  · split
    · exact h.modifyReader j fun heq => absurd heq hjr
    · exact h
  · exact h

end Reads

/-- A thread that waits in `put` is in the loop over its stream. -/
def Holding (s : N2KGrpcCoupler) : Prop :=
  ∀ (r : Nat) (t : StreamThread), s.threads[r]? = some t → t.holding ≠ none → Reads s.client r

/-- No thread was started. -/
theorem holding_start : start.Holding := by
  intro r t ht
  cases ht

/-- The test of the model. -/
theorem inLoop_iff {r : Nat} : s.inLoop r = true ↔ Reads s.client r := by
  unfold inLoop Reads
  constructor
  · intro h
    split at h
    · rename_i reader hreader
      exact ⟨reader, hreader, of_decide_eq_true h⟩
    · cases h
  · rintro ⟨reader, hreader, hphase⟩
    rw [hreader]
    exact decide_eq_true hphase

/-- The step of another thread, or one that takes the message off. -/
theorem Holding.modifyThread (h : s.Holding) (r : Nat) {f : StreamThread → StreamThread}
    (hf : ∀ t, s.threads[r]? = some t → (f t).holding ≠ none → Reads s.client r) :
    (s.modifyThread r f).Holding := by
  intro j t ht hholding
  obtain ⟨t₀, ht₀, rfl⟩ := of_getElem?_modify ht
  split at hholding
  · rename_i hrj
    subst hrj
    exact hf t₀ ht₀ hholding
  · exact h j t₀ ht₀ hholding

/-- A thread that leaves its loop does not wait in `put`. -/
theorem Holding.leaves (h : s.Holding) {r : Nat} {t : StreamThread} (ht : s.threads[r]? = some t)
    (hnone : t.holding = none) (why : StreamEnd) :
    Holding { s with client := s.client.leaves r why } := by
  intro j t' ht' hholding
  have hrj : r ≠ j := by
    rintro rfl
    rw [Option.some.inj (ht.symm.trans ht')] at hnone
    exact hholding hnone
  exact (h j t' ht' hholding).leaves hrj why

/-- A thread leaves its loop only between two messages. -/
theorem Holding.step (h : s.Holding) (i : GrpcCouplerInput) : (s.step req i).Holding := by
  cases i with
  | server i => exact h
  | opens connected =>
    show (s.openCoupler connected).Holding
    unfold openCoupler
    split
    · unfold N2KGrpcCoupler.startReadStream
      split
      · exact h
      · intro r t ht hholding
        rcases getElem?_concat_some ht with ht | ⟨-, rfl⟩
        · exact (h r t ht hholding).startReadStream true
        · exact absurd rfl hholding
    · exact h
  | call r =>
    show (s.call req r).Holding
    unfold N2KGrpcCoupler.call
    split
    · exact h
    · split
      · exact h.modifyThread r fun t ht hholding => h r t ht hholding
      · exact h
  | next r =>
    show (s.next r).Holding
    unfold N2KGrpcCoupler.next
    split
    · exact h
    · rename_i t ht
      split
      · rename_i hloop
        split
        · exact h
        · split
          · exact h.leaves ht hloop.2 .stopFlag
          · exact h.modifyThread r fun _ _ _ => inLoop_iff.mp hloop.1
      · exact h
  | put r =>
    refine h.modifyThread r fun t ht hholding => h r t ht ?_
    unfold N2KGrpcCoupler.put at hholding
    split at hholding
    · exact hholding
    · rename_i hsome
      rw [hsome]
      exact nofun
  | ends r rpcError =>
    show (s.ends r rpcError).Holding
    unfold N2KGrpcCoupler.ends
    split
    · exact h
    · rename_i t ht
      split
      · rename_i hends
        exact h.leaves ht hends.1 _
      · exact h
  | streamError r => exact fun j t ht hholding => (h j t ht hholding).streamError r
  | read =>
    show (s.beginRead).Holding
    unfold beginRead
    split
    · split <;> exact h
    · exact h
  | got =>
    show (s.got).Holding
    unfold N2KGrpcCoupler.got
    split
    · exact h
    · rename_i q _
      split
      · exact h
      · split
        · exact h
        · exact h.modifyThread q fun t ht hholding => h q t ht hholding
  | empty =>
    show (s.getEmpty).Holding
    unfold getEmpty
    split
    · exact h
    · split
      · exact h
      · split
        · split <;> exact h
        · exact h
  | stop => exact fun j t ht hholding => (h j t ht hholding).stopReadStream

/-- The thread waits in `put`, and nobody takes anything off its queue. -/
structure Blocked (s : N2KGrpcCoupler) (r : Nat) (t : StreamThread) : Prop where
  thread : s.threads[r]? = some t
  holding : t.holding ≠ none
  full : StreamThread.queueSize ≤ t.queue.length
  outside : s.place ≠ .inGet r
  unread : s.readQueue = some r → s.client.streamReader = none

section Blocked

variable {r : Nat} {t : StreamThread}

/-- Another thread changes. -/
theorem Blocked.modifyThread (h : s.Blocked r t) {j : Nat} (hjr : j ≠ r)
    (f : StreamThread → StreamThread) : (s.modifyThread j f).threads[r]? = some t :=
  (getElem?_modify_of j f h.thread).trans (by rw [if_neg hjr])

/-- The coupler forgets its reader, or keeps it. -/
theorem Blocked.atClient (h : s.Blocked r t) {client : ServiceClient}
    (hclient : client.streamReader = s.client.streamReader ∨ client.streamReader = none) :
    Blocked { s with client := client } r t := by
  refine ⟨h.thread, h.holding, h.full, h.outside, fun hq => ?_⟩
  rcases hclient with hclient | hclient
  · exact hclient.trans (h.unread hq)
  · exact hclient

/-- The reader of the coupler stays when a thread ends. -/
theorem streamReader_leaves (client : ServiceClient) (j : Nat) (why : StreamEnd) :
    (client.leaves j why).streamReader = client.streamReader := by
  unfold ServiceClient.leaves
  split
  · split <;> rfl
  · rfl

/-- Every step of every party leaves the thread in `put`. Only `get` on its own queue would
free it, and the coupler has no reader for that queue any more; a new start comes with a
new queue. -/
theorem Blocked.step (h : s.Blocked r t) (hinv : GrpcInv req s) (i : GrpcCouplerInput) :
    (s.step req i).Blocked r t := by
  cases i with
  | server i => exact ⟨h.thread, h.holding, h.full, h.outside, h.unread⟩
  | opens connected =>
    show (s.openCoupler connected).Blocked r t
    unfold openCoupler
    split
    · unfold startReadStream
      split
      · exact ⟨h.thread, h.holding, h.full, h.outside, h.unread⟩
      · refine ⟨getElem?_concat_of_some _ h.thread, h.holding, h.full, h.outside, fun hq => ?_⟩
        -- the queue of the new stream
        have hlt := (List.getElem?_eq_some_iff.mp h.thread).1
        rw [Option.some.inj hq] at hlt
        exact absurd hlt (Nat.lt_irrefl _)
    · exact h
  | call j =>
    show (s.call req j).Blocked r t
    unfold N2KGrpcCoupler.call
    split
    · exact h
    · rename_i u hu
      split
      · rename_i hnew
        -- a thread that has not called yet holds nothing
        have hjr : j ≠ r := by
          rintro rfl
          obtain rfl : u = t := Option.some.inj (hu.symm.trans h.thread)
          have hof := hinv.ofStream u (List.mem_of_getElem? hu)
          unfold OfStream at hof
          rw [hnew.2] at hof
          have hnone := (List.append_eq_nil_iff.mp hof.2).2
          exact h.holding (Option.toList_eq_nil_iff.mp hnone)
        exact ⟨h.modifyThread hjr _, h.holding, h.full, h.outside, h.unread⟩
      · exact h
  | next j =>
    show (s.next j).Blocked r t
    unfold N2KGrpcCoupler.next
    split
    · exact h
    · rename_i u hu
      split
      · rename_i hloop
        split
        · exact h
        · split
          · exact h.atClient (.inl (streamReader_leaves _ _ _))
          · have hjr : j ≠ r := by
              rintro rfl
              rw [Option.some.inj (hu.symm.trans h.thread)] at hloop
              exact h.holding hloop.2
            exact ⟨h.modifyThread hjr _, h.holding, h.full, h.outside, h.unread⟩
      · exact h
  | put j =>
    refine ⟨?_, h.holding, h.full, h.outside, h.unread⟩
    by_cases hjr : j = r
    · have hput : N2KGrpcCoupler.put t = t := by
        unfold N2KGrpcCoupler.put
        split
        · rfl
        · exact if_neg (Nat.not_lt.mpr h.full)
      refine (getElem?_modify_of j N2KGrpcCoupler.put h.thread).trans ?_
      rw [if_pos hjr, hput]
    · exact h.modifyThread hjr _
  | ends j rpcError =>
    show (s.ends j rpcError).Blocked r t
    unfold N2KGrpcCoupler.ends
    split
    · exact h
    · split
      · exact h.atClient (.inl (streamReader_leaves _ _ _))
      · exact h
  | streamError j =>
    refine h.atClient ?_
    unfold ServiceClient.streamError
    split
    · split
      · exact .inr rfl
      · exact .inl rfl
    · exact .inl rfl
  | read =>
    show (s.beginRead).Blocked r t
    unfold beginRead
    split
    · split
      · rename_i q hreader hq
        refine ⟨h.thread, h.holding, h.full, fun hplace => ?_, h.unread⟩
        cases hplace
        rw [h.unread hq] at hreader
        cases hreader
      · exact ⟨h.thread, h.holding, h.full, h.outside, h.unread⟩
    · exact h
  | got =>
    show (s.got).Blocked r t
    unfold N2KGrpcCoupler.got
    split
    · exact h
    · rename_i q hplace
      split
      · exact h
      · split
        · exact h
        · have hqr : q ≠ r := by
            rintro rfl
            exact h.outside hplace
          exact ⟨h.modifyThread hqr _, h.holding, h.full, nofun, h.unread⟩
  | empty =>
    show (s.getEmpty).Blocked r t
    unfold getEmpty
    split
    · exact h
    · split
      · exact h
      · split
        · split
          · exact ⟨h.thread, h.holding, h.full, nofun, h.unread⟩
          · exact ⟨h.thread, h.holding, h.full, nofun, h.unread⟩
        · exact h
  | stop =>
    refine h.atClient ?_
    unfold ServiceClient.stopReadStream
    split
    · exact .inr rfl
    · exact .inl rfl

end Blocked

/-- After a stop the coupler has no reader. -/
theorem streamReader_stopReadStream (client : ServiceClient) :
    client.stopReadStream.streamReader = none := by
  unfold ServiceClient.stopReadStream
  split
  · rfl
  · assumption

/-- **A stop while the queue is full.** The coupler is stopped, not in `get`, and the
thread of its stream waits in `put`. However the run goes on, with new starts
as well, that thread waits in `put` with the same queue. -/
theorem stopped_while_full (h : (grpcCoupler req).Reachable start s) {q : Nat} {t : StreamThread}
    (hplace : s.place ≠ .inGet q) (ht : s.threads[q]? = some t) (hholding : t.holding ≠ none)
    (hfull : StreamThread.queueSize ≤ t.queue.length) (is : List GrpcCouplerInput) :
    ((grpcCoupler req).final (s.step req .stop) is).threads[q]? = some t ∧
      ((grpcCoupler req).final (s.step req .stop) is).inLoop q = true := by
  have hblocked : (s.step req .stop).Blocked q t :=
    ⟨ht, hholding, hfull, hplace, fun _ => streamReader_stopReadStream s.client⟩
  have hinv := (grpcInv_of_reachable h).step .stop
  have hheld : s.Holding :=
    h.induction Holding holding_start fun _ i hs => hs.step i
  have hall : ∀ s' : N2KGrpcCoupler, (grpcCoupler req).Reachable (s.step req .stop) s' →
      GrpcInv req s' ∧ s'.Holding ∧ s'.Blocked q t := by
    intro s' hs'
    refine hs'.induction (fun s' => GrpcInv req s' ∧ s'.Holding ∧ s'.Blocked q t)
      ⟨hinv, hheld.step .stop, hblocked⟩ ?_
    rintro s'' i ⟨hinv, hheld, hblocked⟩
    exact ⟨hinv.step i, hheld.step i, hblocked.step hinv i⟩
  obtain ⟨-, hheld, hblocked⟩ := hall _ ⟨is, rfl⟩
  exact ⟨hblocked.thread, inLoop_iff.mpr (hheld q t hblocked.thread hholding)⟩

/-- 21 messages, and none is read. -/
private def unread : List GrpcCouplerInput :=
  [.opens true, .call 0] ++
    (List.replicate 21 (carried 3 0 ++ [.next 0, .put 0])).flatten

/-- The thread of the first stream is still in `put` while the second is read. -/
theorem stopped_while_full_unread :
    ∃ t, ((grpcCoupler fromSource).final start unread).threads[0]? = some t ∧
      ((grpcCoupler fromSource).final (((grpcCoupler fromSource).final start unread).step
        fromSource .stop) [.opens true, .call 1, .put 0, .read, .got]).threads[0]? = some t := by
  have hfull : (((grpcCoupler fromSource).final start unread).threads[0]?).map
      (fun t => (t.holding, t.queue.length))
        = some (some (asProtobuf (ReadService.heading 3)), 20) := by
    decide +kernel
  obtain ⟨t, ht, hpair⟩ := Option.map_eq_some_iff.mp hfull
  obtain ⟨hholding, hlength⟩ := Prod.mk.inj hpair
  have hplace : ((grpcCoupler fromSource).final start unread).place ≠ .inGet 0 := by decide +kernel
  exact ⟨t, ht, (stopped_while_full ⟨unread, rfl⟩ hplace ht (by rw [hholding]; exact nofun)
    (Nat.le_of_eq hlength.symm) _).1⟩

end N2KGrpcCoupler

end NavigationServer.Couplers
