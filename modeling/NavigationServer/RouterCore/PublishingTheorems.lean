/-
NavigationServer.RouterCore.PublishingTheorems — what the methods of the router
keep.

Three things are followed through every method, each on a part of the router that the
other methods leave alone. The lists of the couplers (`Keeps`): they stay without
repetition when only publishers that `MayList` are registered, and who comes to stand
behind a place of a list is new there. The wiring (`Wired`): which publisher belongs to
which client, and which coupler is in a dictionary under which name; it holds in any
run, and is why a TCP server adds a coupler to different publishers. The messages
(`Traffic`): no publisher has one twice, none has a number that its coupler has not
counted to, and a client was sent what its publisher has handled.

A method that only touches the lists is left alone by the wiring and the messages
(`unlisted`), and its lemma is one line. For the others there is a lemma for each thing
that can happen to a wiring or to the messages, in their own terms (a name, a publisher,
a client comes, a client gets its publisher, a message is put or taken), and the lemma of
the method says which of these it does.

The runs over these methods are not here. That a publisher gets each message of a coupler
once is proved from these lemmas in the theorems about `publish`. What a client does with
what it was sent is left out: `sent` ends at the socket.
-/
import NavigationServer.Lib.Lists
import NavigationServer.RouterCore.Publishing

namespace NavigationServer.RouterCore

open NavigationServer.Lib

namespace Router

/-! ## 1. The lists -/

/-- No list has a publisher twice. -/
def Listed (s : Router) : Prop := ∀ c, (s.publishersOf c).Nodup

/-- The publisher may come on the list of the coupler: it is not there, and is not
among those that the coupler has given its message. -/
def MayList (given : Nat → List Nat) (s : Router) (p c : Nat) : Prop :=
  p ∉ s.publishersOf c ∧ p ∉ given c

/-- The lists stay without repetition, and no publisher of `given` comes to stand
behind a place where it did not stand. -/
structure Keeps (given : Nat → List Nat) (s s' : Router) : Prop where
  listed : Listed s → Listed s'
  joins : ∀ c n, ∀ p ∈ (s'.publishersOf c).drop n, p ∈ (s.publishersOf c).drop n ∨ p ∉ given c

section Lists

variable {s : Router} {p c c' : Nat} {given : Nat → List Nat}

/-- The list of a coupler after a change of one coupler. -/
theorem publishersOf_modifyCoupler (f : Coupler → Coupler) (s : Router) (c c' : Nat) :
    (s.modifyCoupler c f).publishersOf c'
      = match s.couplers[c']? with
        | some x => if c = c' then (f x).publishers else x.publishers
        | none => [] := by
  unfold publishersOf modifyCoupler
  simp only [List.getElem?_modify]
  cases s.couplers[c']? with
  | none => rfl
  | some x =>
    by_cases h : c = c'
    · simp [h]
    · simp [h]

/-- A registration is on one list. -/
theorem publishersOf_register_ne (h : c' ≠ c) :
    (s.register p c).publishersOf c' = s.publishersOf c' := by
  rw [register, publishersOf_modifyCoupler, publishersOf]
  cases s.couplers[c']? with
  | none => rfl
  | some x => exact if_neg (Ne.symm h)

/-- The list of the coupler has at most the publisher more, at its end. A coupler that is
not there has no list, so this is no equation. -/
theorem publishersOf_register_sublist :
    ((s.register p c).publishersOf c).Sublist (s.publishersOf c ++ [p]) := by
  rw [register, publishersOf_modifyCoupler, publishersOf]
  cases s.couplers[c]? with
  | none => exact List.nil_sublist _
  | some x => simp

/-- `remove` takes the first occurrence out and keeps the order of the others. -/
theorem publishersOf_deregister_sublist (s : Router) (p c c' : Nat) :
    ((s.deregister p c).publishersOf c').Sublist (s.publishersOf c') := by
  rw [deregister, publishersOf_modifyCoupler, publishersOf]
  cases s.couplers[c']? with
  | none => exact List.nil_sublist _
  | some x =>
    simp only
    split
    · exact List.erase_sublist
    · exact List.Sublist.refl _

/-- Nothing was called. -/
theorem Keeps.refl (given : Nat → List Nat) (s : Router) : Keeps given s s :=
  ⟨id, fun _ _ _ hp => Or.inl hp⟩

/-- One call behind another. A publisher that is new behind a place after both is new after
one of them. -/
theorem Keeps.trans {s' s'' : Router} (h : Keeps given s s') (h' : Keeps given s' s'') :
    Keeps given s s'' := by
  refine ⟨h'.listed ∘ h.listed, fun c n p hp => ?_⟩
  rcases h'.joins c n p hp with hold | hnew
  · exact h.joins c n p hold
  · exact Or.inr hnew

/-- Lists that lose publishers or stay. -/
theorem keeps_of_sublist {s' : Router} (h : ∀ c, (s'.publishersOf c).Sublist (s.publishersOf c)) :
    Keeps given s s' :=
  ⟨fun hl c => (h c).nodup (hl c), fun c n _ hp => Or.inl (((h c).drop n).subset hp)⟩

/-- Lists that stay. -/
theorem keeps_of_eq {s' : Router} (h : ∀ c, s'.publishersOf c = s.publishersOf c) :
    Keeps given s s' := keeps_of_sublist fun c => by rw [h c]

/-- The one step that can put a publisher on a list twice. Behind any place of the list
stands what stood there, and the new publisher, which is not one of `given`. -/
theorem keeps_register (h : MayList given s p c) : Keeps given s (s.register p c) := by
  refine ⟨fun hl c' => ?_, fun c' n q hq => ?_⟩
  · rcases eq_or_ne c' c with rfl | hne
    -- one more at the end, which was not there
    · refine publishersOf_register_sublist.nodup ?_
      rw [List.nodup_append]
      refine ⟨hl c', by simp, ?_⟩
      rintro a ha b hb rfl
      exact h.1 (List.mem_singleton.mp hb ▸ ha)
    · rw [publishersOf_register_ne hne]
      exact hl c'
  · rcases eq_or_ne c' c with rfl | hne
    · have hmem := (publishersOf_register_sublist.drop n).subset hq
      rw [List.drop_append] at hmem
      rcases List.mem_append.mp hmem with hmem | hmem
      · exact Or.inl hmem
      · obtain rfl := List.mem_singleton.mp ((List.drop_subset _ _) hmem)
        exact Or.inr h.2
    · rw [publishersOf_register_ne hne] at hq
      exact Or.inl hq

/-- A publisher leaves one list. -/
theorem keeps_deregister (s : Router) (p c : Nat) : Keeps given s (s.deregister p c) :=
  keeps_of_sublist (publishersOf_deregister_sublist s p c)

/-- A publisher leaves a list for each coupler it has. -/
theorem keeps_foldl_deregister (p : Nat) (cs : List Nat) (s : Router) :
    Keeps given s (cs.foldl (fun s c => s.deregister p c) s) := by
  induction cs generalizing s with
  | nil => exact .refl given s
  | cons c cs ih => exact (keeps_deregister s p c).trans (ih _)

/-- A loop that registers with different couplers: each of them is as it was when its turn
comes. -/
theorem keeps_foldl_register {cs : List Nat} (hcs : cs.Nodup)
    (h : ∀ c ∈ cs, MayList given s p c) :
    Keeps given s (cs.foldl (fun s c => s.register p c) s) := by
  induction cs generalizing s with
  | nil => exact .refl given s
  | cons c cs ih =>
    rw [List.nodup_cons] at hcs
    refine (keeps_register (h c List.mem_cons_self)).trans (ih hcs.2 ?_)
    -- the couplers to come still may list it: the one that did is not among them
    intro c' hc'
    have hne : c' ≠ c := by
      rintro rfl
      exact hcs.1 hc'
    have hmay := h c' (List.mem_cons_of_mem _ hc')
    exact ⟨by rw [publishersOf_register_ne hne]; exact hmay.1, hmay.2⟩

/-- `stop` of a publisher, which deregisters with every coupler of its dictionary. -/
theorem keeps_stop (s : Router) (p : Nat) : Keeps given s (s.stop p) := by
  unfold Router.stop
  split
  · exact .refl given s
  · exact keeps_foldl_deregister p _ s

end Lists

/-! ## 2. Who belongs to whom -/

/-- The names of the couplers, the dictionary and the client of each publisher,
the server, the address and the publisher of each client, and the servers. -/
structure Wiring where
  names : List String
  publishers : List (Dict String Nat × Option Nat)
  clients : List (Nat × Nat × Option Nat)
  servers : List Server

/-- The wiring of a router. -/
def wiring (s : Router) : Wiring where
  names := s.couplers.map Coupler.name
  publishers := s.publishers.map (fun x => (x.couplers, x.client))
  clients := s.clients.map (fun cl => (cl.server, cl.address, cl.publisher))
  servers := s.servers

/-- A dictionary has each coupler under its name. A publisher and its client
have each other, and a TCP server has its clients under their addresses. -/
structure Wired (w : Wiring) : Prop where
  dict : ∀ (p : Nat) (d : Dict String Nat) (o : Option Nat),
    w.publishers[p]? = some (d, o) → ∀ n c, d.get? n = some c → w.names[c]? = some n
  clientOf : ∀ (p : Nat) (d : Dict String Nat) (k : Nat),
    w.publishers[p]? = some (d, some k) → ∃ sv a, w.clients[k]? = some (sv, a, some p)
  publisherOf : ∀ k sv a p : Nat, w.clients[k]? = some (sv, a, some p) →
    ∃ d, w.publishers[p]? = some (d, some k)
  connections : ∀ (sv : Nat) (cs : List Nat) (conns : Dict Nat Nat) (now : Pending),
    w.servers[sv]? = some (.nmea cs conns now) →
    ∀ a k, conns.get? a = some k → ∃ o, w.clients[k]? = some (sv, a, o)
  pending : ∀ (sv : Nat) (cs : List Nat) (conns : Dict Nat Nat) (k : Nat),
    w.servers[sv]? = some (.nmea cs conns (.accepted k)) → ∃ a, w.clients[k]? = some (sv, a, none)

section Frames

variable {s : Router}

/-- The router without the lists of the couplers. -/
def unlisted (s : Router) : Router :=
  { s with couplers := s.couplers.map (fun x => { x with publishers := [] }) }

/-- The wiring does not see the lists. -/
theorem wiring_unlisted (s : Router) : s.unlisted.wiring = s.wiring := by
  unfold wiring unlisted
  rw [List.map_map]
  rfl

/-- A coupler that keeps its name and its count changes its list at most. -/
theorem unlisted_modifyCoupler (s : Router) (c : Nat) {f : Coupler → Coupler}
    (h : ∀ x, (f x).name = x.name ∧ (f x).totalMsg = x.totalMsg) :
    (s.modifyCoupler c f).unlisted = s.unlisted := by
  unfold unlisted modifyCoupler
  rw [map_modify _ _ _ _ (fun x => by rw [(h x).1, (h x).2])]

@[simp] theorem unlisted_register (s : Router) (p c : Nat) :
    (s.register p c).unlisted = s.unlisted := s.unlisted_modifyCoupler c (fun _ => ⟨rfl, rfl⟩)

@[simp] theorem unlisted_deregister (s : Router) (p c : Nat) :
    (s.deregister p c).unlisted = s.unlisted := s.unlisted_modifyCoupler c (fun _ => ⟨rfl, rfl⟩)

/-- Loops over registrations and deregistrations change nothing but lists. -/
theorem unlisted_foldl {α : Type} {f : Router → α → Router}
    (h : ∀ s a, (f s a).unlisted = s.unlisted) (as : List α) (s : Router) :
    (as.foldl f s).unlisted = s.unlisted := by
  induction as generalizing s with
  | nil => rfl
  | cons a as ih => rw [List.foldl_cons, ih, h]

@[simp] theorem unlisted_start (s : Router) (p : Nat) : (s.start p).unlisted = s.unlisted := by
  unfold start
  split
  · rfl
  · split
    · exact unlisted_foldl (fun s c => unlisted_register s p c) _ s
    · rfl

@[simp] theorem unlisted_stop (s : Router) (p : Nat) : (s.stop p).unlisted = s.unlisted := by
  unfold stop
  split
  · rfl
  · exact unlisted_foldl (fun s c => unlisted_deregister s p c) _ s

@[simp] theorem unlisted_closeClient (s : Router) (k : Nat) :
    (s.closeClient k).unlisted = s.unlisted := by
  unfold closeClient
  split
  · rw [unlisted_stop, unlisted_stop]
  · rfl

/-- What only touches the lists leaves the wiring, which does not see them. -/
theorem wiring_of_unlisted {s s' : Router} (h : s'.unlisted = s.unlisted) :
    s'.wiring = s.wiring := by
  rw [← wiring_unlisted s', h, wiring_unlisted]

/-- A coupler that keeps its name. -/
theorem wiring_modifyCoupler (s : Router) (c : Nat) {f : Coupler → Coupler}
    (h : ∀ x, (f x).name = x.name) : (s.modifyCoupler c f).wiring = s.wiring := by
  unfold wiring modifyCoupler
  rw [map_modify _ _ _ _ h]

/-- A publisher that keeps its dictionary and its client. -/
theorem wiring_modifyPublisher (s : Router) (p : Nat) {f : Publisher → Publisher}
    (h : ∀ x, (f x).couplers = x.couplers ∧ (f x).client = x.client) :
    (s.modifyPublisher p f).wiring = s.wiring := by
  unfold wiring modifyPublisher
  rw [map_modify _ _ _ _ (fun x => by rw [(h x).1, (h x).2])]

/-- A client that keeps its server, its address and its publisher. -/
theorem wiring_modifyClient (s : Router) (k : Nat) {f : Client → Client}
    (h : ∀ cl, (f cl).server = cl.server ∧ (f cl).address = cl.address ∧
      (f cl).publisher = cl.publisher) : (s.modifyClient k f).wiring = s.wiring := by
  unfold wiring modifyClient
  rw [map_modify _ _ _ _ (fun cl => by rw [(h cl).1, (h cl).2.1, (h cl).2.2])]

@[simp] theorem wiring_publish (s : Router) (p : Nat) (msg : RouterMsg) (discarded : Bool) :
    (s.publish p msg discarded).2.wiring = s.wiring := by
  unfold publish
  split
  · rfl
  · split
    · rfl
    · split
      · exact s.wiring_modifyPublisher p (fun _ => ⟨rfl, rfl⟩)
      · exact s.wiring_modifyPublisher p (fun _ => ⟨rfl, rfl⟩)

/-- The thread of a publisher moves messages only. -/
@[simp] theorem wiring_take (s : Router) (p : Nat) (sends : Bool) :
    (s.take p sends).wiring = s.wiring := by
  unfold take
  split
  · rfl
  · split
    · rfl
    · split
      · split
        · refine (wiring_modifyClient _ _ ?_).trans (s.wiring_modifyPublisher p ?_)
          · exact fun _ => ⟨rfl, rfl, rfl⟩
          · exact fun _ => ⟨rfl, rfl⟩
        · exact s.wiring_modifyPublisher p (fun _ => ⟨rfl, rfl⟩)
      · exact s.wiring_modifyPublisher p (fun _ => ⟨rfl, rfl⟩)

end Frames

/-! ## 3. The wiring is kept -/

namespace Wired

variable {w : Wiring}

/-- Nothing was built yet. -/
theorem new : Wired Router.new.wiring := by
  constructor <;> simp [wiring, Router.new]

/-- A dictionary gets one more coupler, under its name. -/
theorem insert (h : Wired w) (p : Nat) {c : Nat} {n : String} (hn : w.names[c]? = some n) :
    Wired { w with publishers := w.publishers.modify p (fun x => (x.1.set n c, x.2)) } := by
  -- a dictionary afterwards is one from before, with the coupler or without
  have hcase : ∀ (q : Nat) (d : Dict String Nat) (o : Option Nat),
      (w.publishers.modify p (fun x => (x.1.set n c, x.2)))[q]? = some (d, o) →
        ∃ d' : Dict String Nat, w.publishers[q]? = some (d', o) ∧
          (d = d' ∨ d = d'.set n c) := by
    intro q d o hq
    rw [List.getElem?_modify] at hq
    obtain ⟨⟨d', o'⟩, hd', heq⟩ := Option.map_eq_some_iff.mp hq
    split at heq
    · cases heq
      exact ⟨d', hd', Or.inr rfl⟩
    · cases heq
      exact ⟨d, hd', Or.inl rfl⟩
  have hback : ∀ (q : Nat) (d : Dict String Nat) (o : Option Nat), w.publishers[q]? = some (d, o) →
      ∃ d', (w.publishers.modify p (fun x => (x.1.set n c, x.2)))[q]? = some (d', o) := by
    intro q d o hq
    rw [List.getElem?_modify, hq]
    by_cases hpq : p = q
    · exact ⟨d.set n c, by simp [hpq]⟩
    · exact ⟨d, by simp [hpq]⟩
  refine ⟨?_, ?_, ?_, h.connections, h.pending⟩
  · intro q d o hq m c' hm
    obtain ⟨d', hd', rfl | rfl⟩ := hcase q d o hq
    · exact h.dict q d o hd' m c' hm
    · rcases eq_or_ne m n with rfl | hne
      · rw [Dict.get?_set_self] at hm
        cases hm
        exact hn
      · rw [Dict.get?_set_ne _ _ hne] at hm
        exact h.dict q d' o hd' m c' hm
  · intro q d k hq
    obtain ⟨d', hd', -⟩ := hcase q d (some k) hq
    exact h.clientOf q d' k hd'
  · intro k sv a q hk
    obtain ⟨d, hd⟩ := h.publisherOf k sv a q hk
    exact hback q d (some k) hd

/-- A server changes. -/
theorem setServer (h : Wired w) {sv : Nat} {x : Server}
    (hconns : ∀ cs conns now, x = .nmea cs conns now →
      ∀ a k, conns.get? a = some k → ∃ o, w.clients[k]? = some (sv, a, o))
    (hpending : ∀ cs conns k, x = .nmea cs conns (.accepted k) →
      ∃ a, w.clients[k]? = some (sv, a, none)) :
    Wired { w with servers := w.servers.set sv x } := by
  refine ⟨h.dict, h.clientOf, h.publisherOf, ?_, ?_⟩
  · intro sv' cs conns now hsv
    rw [List.getElem?_set] at hsv
    split at hsv
    · rename_i heq
      split at hsv
      · subst heq
        exact hconns cs conns now (Option.some.inj hsv)
      · cases hsv
    · exact h.connections sv' cs conns now hsv
  · intro sv' cs conns k hsv
    rw [List.getElem?_set] at hsv
    split at hsv
    · rename_i heq
      split at hsv
      · subst heq
        exact hpending cs conns k (Option.some.inj hsv)
      · cases hsv
    · exact h.pending sv' cs conns k hsv

/-- A coupler is built. -/
theorem newName (h : Wired w) (n : String) : Wired { w with names := w.names ++ [n] } :=
  ⟨fun p d o hp m c hm => getElem?_concat_of_some n (h.dict p d o hp m c hm), h.clientOf,
    h.publisherOf, h.connections, h.pending⟩

/-- A publisher without a client is built. -/
theorem newPublisher (h : Wired w) {d : Dict String Nat}
    (hd : ∀ n c, d.get? n = some c → w.names[c]? = some n) :
    Wired { w with publishers := w.publishers ++ [(d, none)] } := by
  refine ⟨?_, ?_, ?_, h.connections, h.pending⟩
  · intro p d' o hp
    rcases getElem?_concat_some hp with hp | ⟨-, heq⟩
    · exact h.dict p d' o hp
    · cases heq
      exact hd
  · intro p d' k hp
    rcases getElem?_concat_some hp with hp | ⟨-, heq⟩
    · exact h.clientOf p d' k hp
    · cases heq
  · intro k sv a p hk
    obtain ⟨d', hd'⟩ := h.publisherOf k sv a p hk
    exact ⟨d', getElem?_concat_of_some _ hd'⟩

/-- A client without a publisher is built. -/
theorem newClient (h : Wired w) (sv a : Nat) :
    Wired { w with clients := w.clients ++ [(sv, a, none)] } := by
  refine ⟨h.dict, ?_, ?_, ?_, ?_⟩
  · intro p d k hp
    obtain ⟨sv', a', hk⟩ := h.clientOf p d k hp
    exact ⟨sv', a', getElem?_concat_of_some _ hk⟩
  · intro k sv' a' p hk
    rcases getElem?_concat_some hk with hk | ⟨-, heq⟩
    · exact h.publisherOf k sv' a' p hk
    · cases heq
  · intro sv' cs conns now hsv a' k hk
    obtain ⟨o, ho⟩ := h.connections sv' cs conns now hsv a' k hk
    exact ⟨o, getElem?_concat_of_some _ ho⟩
  · intro sv' cs conns k hsv
    obtain ⟨a', ha'⟩ := h.pending sv' cs conns k hsv
    exact ⟨a', getElem?_concat_of_some _ ha'⟩

/-- A server without clients is built. -/
theorem newServer (h : Wired w) {x : Server} (hx : ∀ cs conns now, x = .nmea cs conns now →
    conns = ∅ ∧ now = .waiting) : Wired { w with servers := w.servers ++ [x] } := by
  refine ⟨h.dict, h.clientOf, h.publisherOf, ?_, ?_⟩
  · intro sv cs conns now hsv
    rcases getElem?_concat_some hsv with hsv | ⟨-, heq⟩
    · exact h.connections sv cs conns now hsv
    · obtain ⟨rfl, -⟩ := hx cs conns now heq.symm
      simp
  · intro sv cs conns k hsv
    rcases getElem?_concat_some hsv with hsv | ⟨-, heq⟩
    · exact h.pending sv cs conns k hsv
    · obtain ⟨-, hnow⟩ := hx cs conns _ heq.symm
      cases hnow

/-- A client without a publisher gets a new one. -/
theorem link (h : Wired w) {sv a k : Nat} (hk : w.clients[k]? = some (sv, a, none))
    (hfree : ∀ (sv' : Nat) (cs : List Nat) (conns : Dict Nat Nat),
      w.servers[sv']? ≠ some (.nmea cs conns (.accepted k)))
    {d : Dict String Nat} (hd : ∀ n c, d.get? n = some c → w.names[c]? = some n) :
    Wired { w with
      publishers := w.publishers ++ [(d, some k)]
      clients := w.clients.modify k (fun x => (x.1, x.2.1, some w.publishers.length)) } := by
  -- the clients other than `k` stay as they are, and `k` has the new publisher
  have hother : ∀ k' x, k' ≠ k → w.clients[k']? = some x →
      (w.clients.modify k (fun x => (x.1, x.2.1, some w.publishers.length)))[k']? = some x := by
    intro k' x hne hx
    rw [List.getElem?_modify, hx]
    simp [Ne.symm hne]
  have hself : (w.clients.modify k (fun x => (x.1, x.2.1, some w.publishers.length)))[k]?
      = some (sv, a, some w.publishers.length) := by
    rw [List.getElem?_modify, hk]
    simp
  refine ⟨?_, ?_, ?_, ?_, ?_⟩
  · intro p d' o hp
    rcases getElem?_concat_some hp with hp | ⟨-, heq⟩
    · exact h.dict p d' o hp
    · cases heq
      exact hd
  · intro p d' k' hp
    rcases getElem?_concat_some hp with hp | ⟨rfl, heq⟩
    · obtain ⟨sv', a', hk'⟩ := h.clientOf p d' k' hp
      refine ⟨sv', a', hother k' _ ?_ hk'⟩
      -- an older publisher has another client, for `k` had none
      rintro rfl
      rw [hk] at hk'
      cases hk'
    · cases heq
      exact ⟨sv, a, hself⟩
  · intro k' sv' a' p hk'
    rcases eq_or_ne k' k with rfl | hne
    · rw [hself] at hk'
      cases hk'
      exact ⟨d, List.getElem?_concat_length⟩
    · rw [List.getElem?_modify] at hk'
      obtain ⟨x, hx, heq⟩ := Option.map_eq_some_iff.mp hk'
      rw [if_neg (Ne.symm hne)] at heq
      subst heq
      obtain ⟨d', hd'⟩ := h.publisherOf k' sv' a' p hx
      exact ⟨d', getElem?_concat_of_some _ hd'⟩
  · intro sv' cs conns now hsv a' k' hk'
    obtain ⟨o, ho⟩ := h.connections sv' cs conns now hsv a' k' hk'
    rcases eq_or_ne k' k with rfl | hne
    · rw [hk] at ho
      cases ho
      exact ⟨_, hself⟩
    · exact ⟨o, hother k' _ hne ho⟩
  · intro sv' cs conns k' hsv
    obtain ⟨a', ha'⟩ := h.pending sv' cs conns k' hsv
    refine ⟨a', hother k' _ ?_ ha'⟩
    rintro rfl
    exact hfree sv' cs conns hsv

end Wired

section Kept

variable {s : Router}

/-- A coupler and its name. -/
theorem names_getElem? {c : Nat} {y : Coupler} (h : s.couplers[c]? = some y) :
    s.wiring.names[c]? = some y.name := by
  rw [wiring, List.getElem?_map, h]
  rfl

/-- A dictionary that is built from a list of couplers has each of them under its own name.
The induction keeps this for the dictionary built so far. -/
theorem get?_couplerDict {cs : List Nat} {n : String} {c : Nat}
    (h : (s.couplerDict cs).get? n = some c) : s.wiring.names[c]? = some n := by
  unfold couplerDict at h
  obtain ⟨d, hd, hkept⟩ : ∃ d : Dict String Nat, d = ∅ ∧
      ∀ n c, d.get? n = some c → s.wiring.names[c]? = some n := ⟨∅, rfl, by simp⟩
  rw [← hd] at h
  clear hd
  induction cs generalizing d with
  | nil => exact hkept n c h
  | cons c' cs ih =>
    rw [List.foldl_cons] at h
    refine ih _ h ?_
    intro m e hm
    cases hc : s.couplers[c']? with
    | none =>
      rw [hc] at hm
      exact hkept m e hm
    | some x =>
      rw [hc] at hm
      simp only at hm
      rcases eq_or_ne m x.name with rfl | hne
      · rw [Dict.get?_set_self] at hm
        cases hm
        exact names_getElem? hc
      · rw [Dict.get?_set_ne _ _ hne] at hm
        exact hkept m e hm

/-- The coupler is put into the dictionary under the name it has. -/
theorem wired_setCoupler (h : Wired s.wiring) (p c : Nat) : Wired (s.setCoupler p c).wiring := by
  unfold setCoupler
  split
  · exact h
  · rename_i y hy
    have heq : (s.modifyPublisher p (fun x => { x with couplers := x.couplers.set y.name c })).wiring
        = { s.wiring with
            publishers := s.wiring.publishers.modify p (fun x => (x.1.set y.name c, x.2)) } := by
      unfold wiring modifyPublisher
      rw [map_modify_comm _ _ _ (fun x : Dict String Nat × Option Nat =>
        (x.1.set y.name c, x.2)) _ (fun _ => rfl)]
    rw [heq]
    exact h.insert p (names_getElem? hy)

/-- `add_coupler` of a publisher. -/
theorem wired_addCoupler (h : Wired s.wiring) (p c : Nat) : Wired (s.addCoupler p c).wiring := by
  rw [addCoupler, wiring_of_unlisted (unlisted_register _ p c)]
  exact wired_setCoupler h p c

/-- As many insertions as there are clients with a publisher. -/
theorem wired_addToClients (c : Nat) (ks : List Nat) (h : Wired s.wiring) :
    Wired (addToClients c ks s).wiring := by
  induction ks generalizing s with
  | nil => exact h
  | cons k ks ih =>
    rw [addToClients]
    split
    · exact ih (wired_addCoupler h _ c)
    · exact h

/-- A TCP server that keeps its connections and what it waits for. -/
theorem wired_setServer (h : Wired s.wiring) {sv : Nat} {cs cs' : List Nat}
    {conns conns' : Dict Nat Nat} {now now' : Pending}
    (hsv : s.servers[sv]? = some (.nmea cs conns now))
    (hconns : ∀ a k, conns'.get? a = some k → conns.get? a = some k)
    (hnow : ∀ k, now' = .accepted k → now = .accepted k) :
    Wired (s.setServer sv (.nmea cs' conns' now')).wiring := by
  refine h.setServer ?_ ?_
  · intro cs'' conns'' now'' heq a k hk
    cases heq
    exact h.connections sv cs conns now hsv a k (hconns a k hk)
  · intro cs'' conns'' k heq
    cases heq
    exact h.pending sv cs conns k (hnow k rfl ▸ hsv)

/-- A UDP server has no connections. -/
theorem wired_setUdp (h : Wired s.wiring) (sv : Nat) (cs : List Nat) (p : Nat) :
    Wired (s.setServer sv (.udp cs p)).wiring := by
  refine h.setServer ?_ ?_
  · intro cs'' conns'' now'' heq
    cases heq
  · intro cs'' conns'' k heq
    cases heq

/-- A server has one more coupler for the clients to come. -/
theorem wired_serverAppend (h : Wired s.wiring) (sv c : Nat) :
    Wired (s.serverAppend sv c).wiring := by
  unfold serverAppend
  split
  · exact h
  · rename_i cs conns now hsv
    exact wired_setServer h hsv (fun _ _ h => h) (fun _ h => h)
  · exact wired_setUdp h sv _ _

/-- `add_coupler` of a server: the TCP server goes through its clients, the UDP server has
one publisher. -/
theorem wired_serverAddCoupler (h : Wired s.wiring) (sv c : Nat) :
    Wired (s.serverAddCoupler sv c).wiring := by
  have happend := wired_serverAppend h sv c
  unfold serverAddCoupler
  split
  · exact h
  · exact wired_addToClients c _ happend
  · exact wired_addCoupler happend _ c

/-- `remove_coupler` of a server, which leaves the publishers of its clients as they are. -/
theorem wired_serverRemoveCoupler (h : Wired s.wiring) (sv c : Nat) :
    Wired (s.serverRemoveCoupler sv c).wiring := by
  unfold serverRemoveCoupler
  split
  · exact h
  · rename_i cs conns now hsv
    exact wired_setServer h hsv (fun _ _ h => h) (fun _ h => h)
  · exact wired_setUdp h sv _ _

/-- A closed connection leaves the dictionary of the server; the others stay. -/
theorem wired_removeClient (h : Wired s.wiring) (sv address : Nat) :
    Wired (s.removeClient sv address).wiring := by
  unfold removeClient
  split
  · rename_i cs conns now hsv
    refine wired_setServer h hsv ?_ (fun _ h => h)
    intro a k hk
    rcases eq_or_ne a address with rfl | hne
    · rw [Dict.get?_erase_self] at hk
      cases hk
    · rwa [Dict.get?_erase_ne _ hne] at hk
  · exact h

/-- The new client has the next index, and the server waits with it until its publisher is
built. -/
theorem wired_accept (h : Wired s.wiring) (sv address : Nat) :
    Wired (s.accept sv address).wiring := by
  unfold accept
  split
  · rename_i cs conns hsv
    split
    · exact h
    · have hclient := h.newClient sv address
      have hself : (s.wiring.clients ++ [(sv, address, none)])[s.clients.length]?
          = some (sv, address, none) := by
        have hlen : s.clients.length = s.wiring.clients.length := by simp [wiring]
        rw [hlen, List.getElem?_concat_length]
      have hwired := @Wired.setServer _ hclient sv
        (.nmea cs (conns.set address s.clients.length) (.accepted s.clients.length)) ?_ ?_
      · refine Eq.mp (congrArg Wired ?_) hwired
        simp [wiring, setServer]
      · intro cs' conns' now' heq a k hk
        cases heq
        rcases eq_or_ne a address with rfl | hne
        · rw [Dict.get?_set_self] at hk
          cases hk
          exact ⟨none, hself⟩
        · rw [Dict.get?_set_ne _ _ hne] at hk
          exact hclient.connections sv cs conns .waiting hsv a k hk
      · intro cs' conns' k heq
        cases heq
        exact ⟨address, hself⟩
  · exact h

/-- The client that the server waits with has no publisher, and no other server waits with
it: the wiring has its server and address. -/
theorem wired_createPublisher (h : Wired s.wiring) (sv : Nat) :
    Wired (s.createPublisher sv).wiring := by
  unfold createPublisher
  split
  · rename_i cs conns k hsv
    obtain ⟨a, ha⟩ := h.pending sv cs conns k hsv
    have hset : Wired (s.setServer sv (.nmea cs conns (.created s.publishers.length))).wiring :=
      wired_setServer h hsv (fun _ _ h => h) (fun _ h => by cases h)
    have hlinked := hset.link (k := k) (a := a) ha ?_
      (d := (s.setServer sv (.nmea cs conns (.created s.publishers.length))).couplerDict cs)
      (fun n c hc => get?_couplerDict hc)
    · refine Eq.mp (congrArg Wired ?_) hlinked
      have hlen : s.wiring.publishers.length = s.publishers.length := by simp [wiring]
      simp only [wiring, setServer, modifyClient, newPublisher, List.map_append, List.map_cons,
        List.map_nil, List.length_map]
      rw [map_modify_comm _ _ _ (fun x : Nat × Nat × Option Nat =>
        (x.1, x.2.1, some s.publishers.length)) _ (fun _ => rfl)]
    · intro sv' cs' conns' hsv'
      -- another server with this client would be this one
      have hne : sv' ≠ sv := by
        rintro rfl
        change (s.servers.set sv' _)[sv']? = _ at hsv'
        rw [List.getElem?_set_self (List.getElem?_eq_some_iff.mp hsv).1] at hsv'
        cases hsv'
      have hold : s.servers[sv']? = some (.nmea cs' conns' (.accepted k)) := by
        change (s.servers.set sv _)[sv']? = _ at hsv'
        rwa [List.getElem?_set_ne (Ne.symm hne)] at hsv'
      obtain ⟨a', ha'⟩ := h.pending sv' cs' conns' k hold
      rw [ha] at ha'
      cases ha'
      exact hne rfl
  · exact h

/-- The publisher that was built for a client is started: lists only, and the server waits
again. -/
theorem wired_startCreated (h : Wired s.wiring) (sv : Nat) : Wired (s.startCreated sv).wiring := by
  unfold startCreated
  split
  · rename_i cs conns p hsv
    rw [wiring_of_unlisted (unlisted_start _ p)]
    exact wired_setServer h hsv (fun _ _ h => h) (fun _ h => by cases h)
  · exact h

/-- A UDP server comes with its publisher and its client, which is a connection that never
closes. -/
theorem wired_newUdpServer (h : Wired s.wiring) : Wired s.newUdpServer.wiring := by
  have hserver := h.newServer (x := .udp [] s.publishers.length) (fun _ _ _ heq => by cases heq)
  have hclient := hserver.newClient s.servers.length 0
  have hself : (s.wiring.clients ++ [(s.servers.length, 0, none)])[s.clients.length]?
      = some (s.servers.length, 0, none) := by
    have hlen : s.clients.length = s.wiring.clients.length := by simp [wiring]
    rw [hlen, List.getElem?_concat_length]
  have hlinked := hclient.link (k := s.clients.length) hself ?_ (d := ∅) (by simp)
  · refine Eq.mp (congrArg Wired ?_) hlinked
    simp only [wiring, newUdpServer, newPublisher, List.map_append, List.map_cons, List.map_nil,
      List.length_map, couplerDict, List.foldl_nil]
    have hmod := modify_concat
      (s.clients.map (fun cl : Client => (cl.server, cl.address, cl.publisher)))
      (s.servers.length, 0, none) (fun x => (x.1, x.2.1, some s.publishers.length))
    rw [List.length_map] at hmod
    rw [hmod]
  · intro sv cs conns hsv
    obtain ⟨a, ha⟩ := hserver.pending sv cs conns _ hsv
    have hlt := (List.getElem?_eq_some_iff.mp ha).1
    simp [wiring] at hlt

end Kept

/-! ## 4. Registering -/

/-- The publisher of a client. -/
def publisherOfClient (s : Router) (k : Nat) : Option Nat := s.clients[k]? >>= Client.publisher

/-- The publishers that `add_coupler` of a server adds the coupler to: those of its
clients, up to the first client that has none. -/
def publishersOfServer (s : Router) (sv : Nat) : List Nat :=
  match s.servers[sv]? with
  | none => []
  | some (.nmea _ connections _) =>
      ((connections.values.map s.publisherOfClient).takeWhile Option.isSome).filterMap id
  | some (.udp _ p) => [p]

/-- The publisher may come on the list of each of its couplers. -/
def MayStart (given : Nat → List Nat) (s : Router) (p : Nat) : Prop :=
  ∀ x, s.publishers[p]? = some x → x.active = true → ∀ c ∈ x.couplers.values, MayList given s p c

section Registering

variable {s : Router} {given : Nat → List Nat}

/-- A dictionary has each coupler once. -/
theorem nodup_values_couplers (h : Wired s.wiring) {p : Nat} {x : Publisher}
    (hx : s.publishers[p]? = some x) : x.couplers.values.Nodup := by
  have hp : s.wiring.publishers[p]? = some (x.couplers, x.client) := by
    rw [wiring, List.getElem?_map, hx]
    rfl
  refine x.couplers.nodup_values fun n n' c hn hn' => ?_
  have hname := h.dict p _ _ hp n c hn
  rw [h.dict p _ _ hp n' c hn'] at hname
  exact (Option.some.inj hname).symm

/-- `start` goes through the dictionary, whose couplers are different because they have
different names. -/
theorem keeps_start (h : Wired s.wiring) {p : Nat} (hp : s.MayStart given p) :
    Keeps given s (s.start p) := by
  unfold start
  split
  · exact .refl given s
  · rename_i x hx
    split
    · rename_i hactive
      exact keeps_foldl_register (nodup_values_couplers h hx) (hp x hx hactive)
    · exact .refl given s

/-- A dictionary is not a list. -/
theorem publishersOf_setCoupler (s : Router) (p c c' : Nat) :
    (s.setCoupler p c).publishersOf c' = s.publishersOf c' := by
  unfold setCoupler
  split <;> rfl

/-- The dictionary first, which no list depends on, and then the registration. -/
theorem keeps_addCoupler {p c : Nat} (hp : MayList given s p c) :
    Keeps given s (s.addCoupler p c) := by
  have hset : Keeps given s (s.setCoupler p c) := keeps_of_eq (publishersOf_setCoupler s p c)
  refine hset.trans (keeps_register ⟨?_, hp.2⟩)
  rw [publishersOf_setCoupler]
  exact hp.1

/-- Only the publisher itself is new on the list, which the clients to come need. -/
theorem publishersOf_addCoupler_subset (s : Router) (p c : Nat) :
    ∀ q ∈ (s.addCoupler p c).publishersOf c, q ∈ s.publishersOf c ∨ q = p := by
  intro q hq
  have hmem := publishersOf_register_sublist.subset hq
  rw [publishersOf_setCoupler] at hmem
  rcases List.mem_append.mp hmem with hmem | hmem
  · exact Or.inl hmem
  · exact Or.inr (List.mem_singleton.mp hmem)

/-- A publisher gets a coupler, no client changes. -/
theorem clients_addCoupler (s : Router) (p c : Nat) : (s.addCoupler p c).clients = s.clients := by
  unfold addCoupler setCoupler
  split <;> rfl

/-- The loop over the clients, until one has no publisher. -/
theorem keeps_addToClients (c : Nat) (ks : List Nat)
    (hnodup : (((ks.map s.publisherOfClient).takeWhile Option.isSome).filterMap id).Nodup)
    (h : ∀ p ∈ ((ks.map s.publisherOfClient).takeWhile Option.isSome).filterMap id,
      MayList given s p c) :
    Keeps given s (addToClients c ks s) := by
  induction ks generalizing s with
  | nil => exact .refl given s
  | cons k ks ih =>
    rw [addToClients]
    split
    · rename_i sv a p sent hk
      have hself : s.publisherOfClient k = some p := by
        rw [publisherOfClient, hk]
        rfl
      have hsame : (s.addCoupler p c).publisherOfClient = s.publisherOfClient := by
        funext k'
        rw [publisherOfClient, clients_addCoupler, publisherOfClient]
      rw [List.map_cons, hself, List.takeWhile_cons_of_pos rfl,
        List.filterMap_cons_some (f := id) rfl] at hnodup h
      rw [List.nodup_cons] at hnodup
      have hp := h p List.mem_cons_self
      refine (keeps_addCoupler hp).trans (ih ?_ ?_)
      · rw [hsame]
        exact hnodup.2
      · intro q hq
        rw [hsame] at hq
        have hmay := h q (List.mem_cons_of_mem _ hq)
        -- the first client's publisher is on the list now, and `q` is another one
        refine ⟨fun hmem => ?_, hmay.2⟩
        rcases publishersOf_addCoupler_subset s p c q hmem with hmem | rfl
        · exact hmay.1 hmem
        · exact hnodup.1 hq
    · exact .refl given s

/-- The publishers of a server are different ones. -/
theorem nodup_publishersOfServer (h : Wired s.wiring) (sv : Nat) :
    (s.publishersOfServer sv).Nodup := by
  have hclient : ∀ (k : Nat) (cl : Client), s.clients[k]? = some cl →
      s.wiring.clients[k]? = some (cl.server, cl.address, cl.publisher) := by
    intro k cl hk
    rw [wiring, List.getElem?_map, hk]
    rfl
  unfold publishersOfServer
  split
  · exact List.nodup_nil
  · rename_i cs conns now hsv
    -- a client has one address, so it stands once in the dictionary
    have hvalues : conns.values.Nodup := by
      refine conns.nodup_values fun a a' k ha ha' => ?_
      obtain ⟨o, ho⟩ := h.connections sv cs conns now hsv a k ha
      obtain ⟨o', ho'⟩ := h.connections sv cs conns now hsv a' k ha'
      rw [ho] at ho'
      cases ho'
      rfl
    -- two clients with one publisher would be the one client that the publisher has
    have hall : ((conns.values.map s.publisherOfClient).filterMap id).Nodup := by
      rw [List.filterMap_map]
      refine hvalues.filterMap ?_
      intro k k' p hk hk'
      obtain ⟨cl, hcl, hp⟩ := Option.bind_eq_some_iff.mp hk
      obtain ⟨cl', hcl', hp'⟩ := Option.bind_eq_some_iff.mp hk'
      have h1 := hclient k cl hcl
      have h2 := hclient k' cl' hcl'
      rw [hp] at h1
      rw [hp'] at h2
      obtain ⟨d, hd⟩ := h.publisherOf k _ _ p h1
      obtain ⟨d', hd'⟩ := h.publisherOf k' _ _ p h2
      rw [hd] at hd'
      cases hd'
      rfl
    exact ((List.takeWhile_sublist _).filterMap id).nodup hall
  · exact List.nodup_singleton _

/-- Only the list of the server is longer. -/
theorem serverAppend_same (s : Router) (sv c : Nat) :
    (s.serverAppend sv c).couplers = s.couplers ∧ (s.serverAppend sv c).clients = s.clients ∧
      (s.serverAppend sv c).publishers = s.publishers := by
  unfold serverAppend
  split <;> exact ⟨rfl, rfl, rfl⟩

/-- The couplers of a server are not the list of a coupler. -/
theorem publishersOf_serverAppend (s : Router) (sv c c' : Nat) :
    (s.serverAppend sv c).publishersOf c' = s.publishersOf c' := by
  rw [publishersOf, (serverAppend_same s sv c).1, publishersOf]

/-- The publishers that get the coupler are different ones and none is on its list, so each
of the registrations is of a publisher that may come on it. -/
theorem keeps_serverAddCoupler (h : Wired s.wiring) {sv c : Nat}
    (hp : ∀ p ∈ s.publishersOfServer sv, MayList given s p c) :
    Keeps given s (s.serverAddCoupler sv c) := by
  have hnodup := nodup_publishersOfServer h sv
  have happend : Keeps given s (s.serverAppend sv c) :=
    keeps_of_eq (publishersOf_serverAppend s sv c)
  have hmay : ∀ p, MayList given s p c → MayList given (s.serverAppend sv c) p c := fun p hp =>
    ⟨by rw [publishersOf_serverAppend]; exact hp.1, hp.2⟩
  have hclient : (s.serverAppend sv c).publisherOfClient = s.publisherOfClient := by
    funext k
    rw [publisherOfClient, (serverAppend_same s sv c).2.1, publisherOfClient]
  unfold serverAddCoupler
  unfold publishersOfServer at hp hnodup
  split
  · exact .refl given s
  · rename_i cs conns now hsv
    rw [hsv] at hp hnodup
    refine happend.trans (keeps_addToClients c _ ?_ fun p hmem => ?_)
    · rw [hclient]
      exact hnodup
    · rw [hclient] at hmem
      exact hmay p (hp p hmem)
  · rename_i cs p hsv
    rw [hsv] at hp
    exact happend.trans (keeps_addCoupler (hmay p (hp p List.mem_cons_self)))

/-- No publisher is deregistered here. -/
theorem keeps_serverRemoveCoupler (s : Router) (sv c : Nat) :
    Keeps given s (s.serverRemoveCoupler sv c) := by
  unfold serverRemoveCoupler
  split <;> exact keeps_of_eq fun _ => rfl

/-- `_close` calls `deregister` and then `stop`, which deregisters once more. -/
theorem keeps_closeClient (s : Router) (k : Nat) : Keeps given s (s.closeClient k) := by
  unfold closeClient
  split
  · exact (keeps_stop s _).trans (keeps_stop _ _)
  · exact .refl given s

/-- A message is put on a queue. -/
theorem publishersOf_publish (s : Router) (p : Nat) (msg : RouterMsg) (discarded : Bool) (c : Nat) :
    (s.publish p msg discarded).2.publishersOf c = s.publishersOf c := by
  unfold publish
  split
  · rfl
  · split
    · rfl
    · split <;> rfl

/-- A message leaves a queue. -/
theorem publishersOf_take (s : Router) (p : Nat) (sends : Bool) (c : Nat) :
    (s.take p sends).publishersOf c = s.publishersOf c := by
  unfold take
  split
  · rfl
  · split
    · rfl
    · split
      · split <;> rfl
      · rfl

/-- A new coupler has an empty list. -/
theorem keeps_newCoupler (s : Router) (name : String) :
    Keeps given s { s with couplers := s.couplers ++ [⟨name, [], 0⟩] } := by
  refine keeps_of_sublist fun c => ?_
  unfold publishersOf
  dsimp only
  cases hy : (s.couplers ++ [⟨name, [], 0⟩])[c]? with
  | none => exact List.nil_sublist _
  | some y =>
    rcases getElem?_concat_some hy with hold | ⟨-, rfl⟩
    · rw [hold]
    · exact List.nil_sublist _

/-- A new client has no publisher yet. -/
theorem keeps_accept (s : Router) (sv address : Nat) : Keeps given s (s.accept sv address) := by
  unfold accept
  split
  · split <;> exact keeps_of_eq fun _ => rfl
  · exact .refl given s

/-- A publisher is on no list before it starts. -/
theorem keeps_createPublisher (s : Router) (sv : Nat) : Keeps given s (s.createPublisher sv) := by
  unfold createPublisher
  split <;> exact keeps_of_eq fun _ => rfl

/-- The publisher of a new client, which a server may have given a coupler before. -/
theorem keeps_startCreated (h : Wired s.wiring) {sv : Nat}
    (hp : ∀ cs connections p, s.servers[sv]? = some (.nmea cs connections (.created p)) →
      s.MayStart given p) : Keeps given s (s.startCreated sv) := by
  unfold startCreated
  split
  · rename_i cs conns p hsv
    have hset : Keeps given s (s.setServer sv (.nmea cs conns .waiting)) := keeps_of_eq fun _ => rfl
    exact hset.trans (keeps_start
      (wired_setServer h hsv (fun _ _ h => h) (fun _ h => by cases h)) (hp cs conns p hsv))
  · exact .refl given s

/-- The server forgets a connection. -/
theorem keeps_removeClient (s : Router) (sv address : Nat) :
    Keeps given s (s.removeClient sv address) := by
  unfold removeClient
  split <;> exact keeps_of_eq fun _ => rfl

/-- The thread of a UDP server starts its publisher. -/
theorem keeps_udpStart (h : Wired s.wiring) {sv : Nat}
    (hp : ∀ cs p, s.servers[sv]? = some (.udp cs p) → s.MayStart given p) :
    Keeps given s (s.udpStart sv) := by
  unfold udpStart
  split
  · rename_i cs p hsv
    exact keeps_start h (hp cs p hsv)
  · exact .refl given s

/-- And stops it. -/
theorem keeps_udpStop (s : Router) (sv : Nat) : Keeps given s (s.udpStop sv) := by
  unfold udpStop
  split
  · exact keeps_stop s _
  · exact .refl given s

end Registering

/-! ## 5. The messages -/

/-- The message counts of the couplers, what each publisher has handled and
what is on its queue, and the publisher of each client with what was sent. -/
structure Flow where
  totals : List Nat
  publishers : List (List RouterMsg × List RouterMsg)
  clients : List (Option Nat × List RouterMsg)

/-- The messages of a router. -/
def flow (s : Router) : Flow where
  totals := s.couplers.map Coupler.totalMsg
  publishers := s.publishers.map (fun x => (x.handled, x.queue))
  clients := s.clients.map (fun cl => (cl.publisher, cl.sent))

/-- No message twice in a publisher, no number above the count of its coupler,
and a client was sent what its publisher has handled. -/
structure Traffic (f : Flow) : Prop where
  nodup : ∀ (p : Nat) (handled queue : List RouterMsg),
    f.publishers[p]? = some (handled, queue) → (handled ++ queue).Nodup
  number_le : ∀ (p : Nat) (handled queue : List RouterMsg),
    f.publishers[p]? = some (handled, queue) → ∀ m ∈ handled ++ queue,
      ∃ t, f.totals[m.coupler]? = some t ∧ m.number ≤ t
  sent : ∀ (k : Nat) (o : Option Nat) (sent : List RouterMsg), f.clients[k]? = some (o, sent) →
    sent = [] ∨ ∃ p handled queue, o = some p ∧ f.publishers[p]? = some (handled, queue) ∧
      sent.Sublist handled

/-- No count is lost, and no publisher has a message that it had not before. -/
structure Quiet (f f' : Flow) : Prop where
  totals : ∀ (c t : Nat), f.totals[c]? = some t → f'.totals[c]? = some t
  publishers : ∀ (p : Nat) (handled queue : List RouterMsg),
    f'.publishers[p]? = some (handled, queue) → ∀ m ∈ handled ++ queue,
      ∃ handled' queue', f.publishers[p]? = some (handled', queue') ∧ m ∈ handled' ++ queue'

namespace Quiet

variable {f f' : Flow}

/-- Calls that leave the counts and the queues. -/
theorem of_eq (htotals : f'.totals = f.totals) (hpublishers : f'.publishers = f.publishers) :
    Quiet f f' :=
  ⟨fun _ _ hc => htotals ▸ hc, fun _ handled queue hp _ hm => ⟨handled, queue, hpublishers ▸ hp, hm⟩⟩

/-- Nothing was called. -/
theorem refl (f : Flow) : Quiet f f := .of_eq rfl rfl

/-- A new coupler has counted nothing. -/
theorem newTotal (f : Flow) (t : Nat) : Quiet f { f with totals := f.totals ++ [t] } :=
  ⟨fun _ _ hc => getElem?_concat_of_some t hc, fun _ handled queue hp _ hm => ⟨handled, queue, hp, hm⟩⟩

/-- A new publisher has no message. -/
theorem newPublisher (f : Flow) : Quiet f { f with publishers := f.publishers ++ [([], [])] } := by
  refine ⟨fun _ _ hc => hc, fun p handled queue hp m hm => ?_⟩
  rcases getElem?_concat_some hp with hp | ⟨-, heq⟩
  · exact ⟨handled, queue, hp, hm⟩
  · cases heq
    cases hm

/-- The first message of a queue is handled. -/
theorem handle {p : Nat} {handled queue : List RouterMsg} {msg : RouterMsg}
    (hp : f.publishers[p]? = some (handled, msg :: queue)) :
    Quiet f { f with publishers := f.publishers.modify p (fun x => (x.1 ++ [msg], queue)) } := by
  refine ⟨fun _ _ hc => hc, fun q handled' queue' hq m hm => ?_⟩
  obtain ⟨x, hx, heq⟩ := of_getElem?_modify hq
  split at heq
  · rename_i hpq
    rw [← hpq, hp] at hx
    cases hx
    cases heq
    rw [List.append_assoc] at hm
    exact ⟨handled, msg :: queue, hpq ▸ hp, hm⟩
  · exact ⟨handled', queue', heq ▸ hx, hm⟩

end Quiet

namespace Traffic

variable {f : Flow}

/-- Nothing was published yet. -/
theorem new : Traffic Router.new.flow := by
  constructor <;> simp [flow, Router.new]

/-- A new coupler: the counts of the others stand where they stood. -/
theorem newTotal (h : Traffic f) (t : Nat) : Traffic { f with totals := f.totals ++ [t] } := by
  refine ⟨h.nodup, ?_, h.sent⟩
  intro p handled queue hp m hm
  obtain ⟨t', ht', hle⟩ := h.number_le p handled queue hp m hm
  exact ⟨t', getElem?_concat_of_some t ht', hle⟩

/-- A new publisher, with an empty queue. -/
theorem newPublisher (h : Traffic f) :
    Traffic { f with publishers := f.publishers ++ [([], [])] } := by
  refine ⟨?_, ?_, ?_⟩
  · intro p handled queue hp
    rcases getElem?_concat_some hp with hp | ⟨-, heq⟩
    · exact h.nodup p handled queue hp
    · cases heq
      exact List.nodup_nil
  · intro p handled queue hp
    rcases getElem?_concat_some hp with hp | ⟨-, heq⟩
    · exact h.number_le p handled queue hp
    · cases heq
      simp
  · intro k o sent hk
    rcases h.sent k o sent hk with hnil | ⟨p, handled, queue, ho, hp, hsub⟩
    · exact Or.inl hnil
    · exact Or.inr ⟨p, handled, queue, ho, getElem?_concat_of_some _ hp, hsub⟩

/-- A new client, which was sent nothing. -/
theorem newClient (h : Traffic f) (o : Option Nat) :
    Traffic { f with clients := f.clients ++ [(o, [])] } := by
  refine ⟨h.nodup, h.number_le, ?_⟩
  intro k o' sent hk
  rcases getElem?_concat_some hk with hk | ⟨-, heq⟩
  · exact h.sent k o' sent hk
  · cases heq
    exact Or.inl rfl

/-- A client that has no publisher gets one. -/
theorem link (h : Traffic f) {k : Nat} {sent : List RouterMsg}
    (hk : f.clients[k]? = some (none, sent)) (p : Nat) :
    Traffic { f with clients := f.clients.modify k (fun x => (some p, x.2)) } := by
  -- without a publisher nothing was sent
  have hnil : sent = [] := by
    rcases h.sent k none sent hk with hnil | ⟨p', -, -, ho, -⟩
    · exact hnil
    · cases ho
  refine ⟨h.nodup, h.number_le, ?_⟩
  intro k' o' sent' hk'
  rw [List.getElem?_modify] at hk'
  obtain ⟨⟨o, l⟩, hl, heq⟩ := Option.map_eq_some_iff.mp hk'
  split at heq
  · rename_i heqk
    cases heq
    rw [← heqk, hk] at hl
    cases hl
    exact Or.inl hnil
  · cases heq
    exact h.sent k' _ _ hl

/-- A coupler counts one more message. -/
theorem count (h : Traffic f) (c : Nat) :
    Traffic { f with totals := f.totals.modify c (· + 1) } := by
  refine ⟨h.nodup, ?_, h.sent⟩
  intro p handled queue hp m hm
  obtain ⟨t, ht, hle⟩ := h.number_le p handled queue hp m hm
  refine ⟨_, getElem?_modify_of c (· + 1) ht, ?_⟩
  split
  · exact Nat.le_succ_of_le hle
  · exact hle

/-- A new message that was counted is put on a queue. -/
theorem put (h : Traffic f) {p : Nat} {handled queue : List RouterMsg} {msg : RouterMsg}
    (hp : f.publishers[p]? = some (handled, queue)) (hnew : msg ∉ handled ++ queue)
    (hcount : ∃ t, f.totals[msg.coupler]? = some t ∧ msg.number ≤ t) :
    Traffic { f with publishers := f.publishers.modify p (fun x => (x.1, x.2 ++ [msg])) } := by
  have hcase : ∀ q h' q', (f.publishers.modify p (fun x => (x.1, x.2 ++ [msg])))[q]? = some (h', q') →
      (q = p ∧ h' = handled ∧ q' = queue ++ [msg]) ∨ f.publishers[q]? = some (h', q') := by
    intro q h' q' hq
    obtain ⟨x, hx, heq⟩ := of_getElem?_modify hq
    split at heq
    · rename_i hpq
      rw [← hpq, hp] at hx
      cases hx
      cases heq
      exact Or.inl ⟨hpq.symm, rfl, rfl⟩
    · exact Or.inr (heq ▸ hx)
  refine ⟨?_, ?_, ?_⟩
  · intro q h' q' hq
    rcases hcase q h' q' hq with ⟨rfl, rfl, rfl⟩ | hq
    · rw [← List.append_assoc]
      exact (h.nodup q _ _ hp).append (List.nodup_singleton msg) (by simpa using hnew)
    · exact h.nodup q h' q' hq
  · intro q h' q' hq m hm
    rcases hcase q h' q' hq with ⟨rfl, rfl, rfl⟩ | hq
    · rw [← List.append_assoc] at hm
      rcases List.mem_append.mp hm with hm | hm
      · exact h.number_le q _ _ hp m hm
      · rw [List.mem_singleton.mp hm]
        exact hcount
    · exact h.number_le q h' q' hq m hm
  · intro k o sent hk
    rcases h.sent k o sent hk with hnil | ⟨q, h', q', ho, hq, hsub⟩
    · exact Or.inl hnil
    · refine Or.inr ⟨q, h', if p = q then q' ++ [msg] else q', ho, ?_, hsub⟩
      rw [getElem?_modify_of p _ hq]
      split <;> rfl

/-- The first message of a queue is handled. -/
theorem handle (h : Traffic f) {p : Nat} {handled queue : List RouterMsg} {msg : RouterMsg}
    (hp : f.publishers[p]? = some (handled, msg :: queue)) :
    Traffic { f with publishers := f.publishers.modify p (fun x => (x.1 ++ [msg], queue)) } := by
  have hcase : ∀ q h' q', (f.publishers.modify p (fun x => (x.1 ++ [msg], queue)))[q]?
      = some (h', q') → (q = p ∧ h' = handled ++ [msg] ∧ q' = queue) ∨
        f.publishers[q]? = some (h', q') := by
    intro q h' q' hq
    rcases eq_or_ne p q with rfl | hne
    · rw [List.getElem?_modify, hp] at hq
      simp only [↓reduceIte, Option.map_eq_map, Option.map_some, Option.some.injEq,
        Prod.mk.injEq] at hq
      exact Or.inl ⟨rfl, hq.1.symm, hq.2.symm⟩
    · rw [List.getElem?_modify] at hq
      obtain ⟨x, hx, heq⟩ := Option.map_eq_some_iff.mp hq
      rw [if_neg hne] at heq
      exact Or.inr (heq ▸ hx)
  refine ⟨?_, ?_, ?_⟩
  · intro q h' q' hq
    rcases hcase q h' q' hq with ⟨rfl, rfl, rfl⟩ | hq
    · rw [List.append_assoc]
      exact h.nodup q _ _ hp
    · exact h.nodup q h' q' hq
  · intro q h' q' hq
    rcases hcase q h' q' hq with ⟨rfl, rfl, rfl⟩ | hq
    · rw [List.append_assoc]
      exact h.number_le q _ _ hp
    · exact h.number_le q h' q' hq
  · intro k o sent hk
    rcases h.sent k o sent hk with hnil | ⟨q, h', q', ho, hq, hsub⟩
    · exact Or.inl hnil
    · refine Or.inr ?_
      rcases eq_or_ne q p with rfl | hne
      · rw [hp] at hq
        cases hq
        refine ⟨q, handled ++ [msg], queue, ho, ?_, hsub.trans (List.sublist_append_left _ _)⟩
        rw [List.getElem?_modify, hp]
        simp
      · refine ⟨q, h', q', ho, ?_, hsub⟩
        rw [List.getElem?_modify, hq]
        simp [Ne.symm hne]

/-- And it is sent to the client. -/
theorem handleSent (h : Traffic f) {p k : Nat} {handled queue sent : List RouterMsg}
    {msg : RouterMsg} (hp : f.publishers[p]? = some (handled, msg :: queue))
    (hk : f.clients[k]? = some (some p, sent)) :
    Traffic { f with
      publishers := f.publishers.modify p (fun x => (x.1 ++ [msg], queue))
      clients := f.clients.modify k (fun x => (x.1, x.2 ++ [msg])) } := by
  have hhandled := h.handle hp
  refine ⟨hhandled.nodup, hhandled.number_le, ?_⟩
  intro k' o' sent' hk'
  rw [List.getElem?_modify] at hk'
  obtain ⟨⟨o, l⟩, hl, heq⟩ := Option.map_eq_some_iff.mp hk'
  split at heq
  · rename_i heqk
    cases heq
    rw [← heqk, hk] at hl
    cases hl
    refine Or.inr ⟨p, handled ++ [msg], queue, rfl, ?_, ?_⟩
    · rw [List.getElem?_modify, hp]
      simp
    -- what the client was sent before is among what was handled before
    · refine List.Sublist.append ?_ (List.Sublist.refl _)
      rcases h.sent k _ _ hk with hnil | ⟨q, h', q', ho, hq, hsub⟩
      · rw [hnil]
        exact List.nil_sublist _
      · cases ho
        rw [hp] at hq
        cases hq
        exact hsub
  · cases heq
    exact hhandled.sent k' _ _ hl

end Traffic

section Messages

variable {s : Router}

/-- The messages do not see the lists. -/
theorem flow_unlisted (s : Router) : s.unlisted.flow = s.flow := by
  unfold flow unlisted
  rw [List.map_map]
  rfl

/-- What only touches the lists leaves the messages. -/
theorem flow_of_unlisted {s s' : Router} (h : s'.unlisted = s.unlisted) : s'.flow = s.flow := by
  rw [← flow_unlisted s', h, flow_unlisted]

/-- A publisher that keeps its queue. -/
theorem flow_modifyPublisher (s : Router) (p : Nat) {f : Publisher → Publisher}
    (h : ∀ x, (f x).handled = x.handled ∧ (f x).queue = x.queue) :
    (s.modifyPublisher p f).flow = s.flow := by
  unfold flow modifyPublisher
  rw [map_modify _ _ _ _ (fun x => by rw [(h x).1, (h x).2])]

/-- A dictionary has no messages. -/
theorem flow_setCoupler (s : Router) (p c : Nat) : (s.setCoupler p c).flow = s.flow := by
  unfold setCoupler
  split
  · rfl
  · exact s.flow_modifyPublisher p (fun _ => ⟨rfl, rfl⟩)

/-- A publisher that gets a coupler. -/
theorem flow_addCoupler (s : Router) (p c : Nat) : (s.addCoupler p c).flow = s.flow := by
  rw [addCoupler, flow_of_unlisted (unlisted_register _ p c), flow_setCoupler]

/-- The publishers of the clients that get it. -/
theorem flow_addToClients (c : Nat) (ks : List Nat) (s : Router) :
    (addToClients c ks s).flow = s.flow := by
  induction ks generalizing s with
  | nil => rfl
  | cons k ks ih =>
    rw [addToClients]
    split
    · rw [ih, flow_addCoupler]
    · rfl

/-- A server has one more coupler. -/
theorem flow_serverAppend (s : Router) (sv c : Nat) : (s.serverAppend sv c).flow = s.flow := by
  obtain ⟨hcouplers, hclients, hpublishers⟩ := serverAppend_same s sv c
  rw [flow, hcouplers, hclients, hpublishers, flow]

/-- `add_coupler` of a server. -/
theorem flow_serverAddCoupler (s : Router) (sv c : Nat) :
    (s.serverAddCoupler sv c).flow = s.flow := by
  unfold serverAddCoupler
  split
  · rfl
  · rw [flow_addToClients, flow_serverAppend]
  · rw [flow_addCoupler, flow_serverAppend]

/-- The thread takes the first message. The client it goes to is one that has this
publisher and no other: what it was sent is among what the publisher has handled. -/
theorem traffic_take (h : Traffic s.flow) (hw : Wired s.wiring) (p : Nat) (sends : Bool) :
    Traffic (s.take p sends).flow := by
  unfold take
  split
  · exact h
  · rename_i x hx
    split
    · exact h
    · rename_i msg queue hqueue
      have hp : s.flow.publishers[p]? = some (x.handled, msg :: queue) := by
        rw [flow, List.getElem?_map, hx, ← hqueue]
        rfl
      have hmod : (s.modifyPublisher p
          (fun x => { x with queue := queue, handled := x.handled ++ [msg] })).flow.publishers
          = s.flow.publishers.modify p (fun x => (x.1 ++ [msg], queue)) :=
        map_modify_comm _ _ _ _ _ (fun _ => rfl)
      have hhandled := h.handle hp
      rw [← hmod] at hhandled
      dsimp only
      split
      · rename_i k hk
        split
        · have hwired : s.wiring.publishers[p]? = some (x.couplers, some k) := by
            rw [wiring, List.getElem?_map, hx, ← hk]
            rfl
          obtain ⟨sv, a, hclient⟩ := hw.clientOf p _ k hwired
          obtain ⟨cl, hcl, hpub⟩ : ∃ cl, s.clients[k]? = some cl ∧ cl.publisher = some p := by
            rw [wiring, List.getElem?_map] at hclient
            obtain ⟨cl, hcl, heq⟩ := Option.map_eq_some_iff.mp hclient
            exact ⟨cl, hcl, congrArg (fun x => x.2.2) heq⟩
          have hsent : s.flow.clients[k]? = some (some p, cl.sent) := by
            rw [flow, List.getElem?_map, hcl, ← hpub]
            rfl
          have hafter := h.handleSent hp hsent
          rw [← hmod] at hafter
          refine Eq.mp (congrArg Traffic ?_) hafter
          have hcls := map_modify_comm s.clients k (fun cl : Client => { cl with sent := cl.sent ++ [msg] })
            (fun x : Option Nat × List RouterMsg => (x.1, x.2 ++ [msg]))
            (fun cl => (cl.publisher, cl.sent)) (fun _ => rfl)
          exact congrArg (fun cls => (⟨_, _, cls⟩ : Flow)) hcls.symm
        · exact hhandled
      · exact hhandled

theorem traffic_accept (h : Traffic s.flow) (sv address : Nat) :
    Traffic (s.accept sv address).flow := by
  unfold accept
  split
  · split
    · exact h
    · simpa [flow, setServer] using h.newClient none
  · exact h

/-- Nothing was sent to a client before it had a publisher. -/
theorem traffic_createPublisher (h : Traffic s.flow) (hw : Wired s.wiring) (sv : Nat) :
    Traffic (s.createPublisher sv).flow := by
  unfold createPublisher
  split
  · rename_i cs conns k hsv
    obtain ⟨a, ha⟩ := hw.pending sv cs conns k hsv
    obtain ⟨cl, hcl, hnone⟩ : ∃ cl, s.clients[k]? = some cl ∧ cl.publisher = none := by
      rw [wiring, List.getElem?_map] at ha
      obtain ⟨cl, hcl, heq⟩ := Option.map_eq_some_iff.mp ha
      exact ⟨cl, hcl, congrArg (fun x => x.2.2) heq⟩
    have hk : s.flow.clients[k]? = some (none, cl.sent) := by
      rw [flow, List.getElem?_map, hcl, ← hnone]
      rfl
    have hlinked := h.newPublisher.link hk s.publishers.length
    have hcls := map_modify_comm s.clients k
      (fun cl : Client => { cl with publisher := some s.publishers.length })
      (fun x : Option Nat × List RouterMsg => (some s.publishers.length, x.2))
      (fun cl => (cl.publisher, cl.sent)) (fun _ => rfl)
    refine Eq.mp (congrArg Traffic ?_) hlinked
    simp only [flow, setServer, modifyClient, newPublisher, List.map_append, List.map_cons,
      List.map_nil]
    rw [hcls]
  · exact h

/-- From the queue to what is handled, without a new message. -/
theorem quiet_take (s : Router) (p : Nat) (sends : Bool) : Quiet s.flow (s.take p sends).flow := by
  unfold take
  split
  · exact .refl _
  · rename_i x hx
    split
    · exact .refl _
    · rename_i msg queue hqueue
      have hp : s.flow.publishers[p]? = some (x.handled, msg :: queue) := by
        rw [flow, List.getElem?_map, hx, ← hqueue]
        rfl
      have hmod : (s.modifyPublisher p
          (fun x => { x with queue := queue, handled := x.handled ++ [msg] })).flow.publishers
          = s.flow.publishers.modify p (fun x => (x.1 ++ [msg], queue)) :=
        map_modify_comm _ _ _ _ _ (fun _ => rfl)
      have hquiet := Quiet.handle hp
      rw [← hmod] at hquiet
      split
      · split
        · exact ⟨hquiet.totals, hquiet.publishers⟩
        · exact hquiet
      · exact hquiet

/-- A call that leaves the messages alone. -/
theorem traffic_of_flow {s' : Router} (h : Traffic s.flow) (heq : s'.flow = s.flow) :
    Traffic s'.flow ∧ Quiet s.flow s'.flow := by
  rw [heq]
  exact ⟨h, .refl _⟩

theorem quiet_accept (s : Router) (sv address : Nat) : Quiet s.flow (s.accept sv address).flow := by
  unfold accept
  split
  · split
    · exact .refl _
    · exact .of_eq rfl rfl
  · exact .refl _

theorem quiet_createPublisher (s : Router) (sv : Nat) :
    Quiet s.flow (s.createPublisher sv).flow := by
  unfold createPublisher
  split
  · have hnew := Quiet.newPublisher s.flow
    refine ⟨hnew.totals, fun p handled queue hp => hnew.publishers p handled queue ?_⟩
    simpa [flow, setServer, modifyClient, newPublisher] using hp
  · exact .refl _

end Messages

end Router

end NavigationServer.RouterCore
