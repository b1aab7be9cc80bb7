/-
NavigationServer.Lib.Machine — machines that read inputs and give outputs.

A `Machine` is a step function. `trace` records a run move by move (the state
before, the input, the output, the state after), so a property of a whole run
is a property of every move of its trace. The rules are the three ways of
reasoning about a run that the developments over this module need: an
invariant kept by every step (`Reachable.induction`, `trace_invariant`, or
`final_inputs_invariant` where it speaks of the inputs), a property of the moves
decided step by step (`trace_forall_iff`, or `trace_forall_iff_of_invariant` where
each step relies on the ones before), and two machines run side by side
(`simulation`). `withHistory` runs a machine beside what is written down of its
steps.
-/
import Mathlib.Data.List.Forall2
import Mathlib.Data.List.Induction

namespace NavigationServer.Lib

/-- A system that answers each input with an output and a new state. -/
structure Machine (σ ι ο : Type*) where
  step : σ → ι → ο × σ

/-- One step of a run. -/
structure Move (σ ι ο : Type*) where
  pre : σ
  input : ι
  output : ο
  post : σ

namespace Machine

variable {σ ι ο τ κ π : Type*} (m : Machine σ ι ο)

/-- The run from a state over a list of inputs. -/
def trace : σ → List ι → List (Move σ ι ο)
  | _, [] => []
  | s, i :: is =>
      ⟨s, i, (m.step s i).1, (m.step s i).2⟩ :: trace (m.step s i).2 is

/-- The outputs of a run. -/
def outs : σ → List ι → List ο
  | _, [] => []
  | s, i :: is => (m.step s i).1 :: outs (m.step s i).2 is

/-- The state a run ends in. -/
def final : σ → List ι → σ
  | s, [] => s
  | s, i :: is => final (m.step s i).2 is

/-- The states that some run from `init` ends in. -/
def Reachable (init s : σ) : Prop := ∃ is, m.final init is = s

@[simp] theorem outs_nil (s : σ) : m.outs s [] = [] := rfl
@[simp] theorem final_nil (s : σ) : m.final s [] = s := rfl
@[simp] theorem trace_nil (s : σ) : m.trace s [] = [] := rfl

@[simp] theorem outs_cons (s : σ) (i : ι) (is : List ι) :
    m.outs s (i :: is) = (m.step s i).1 :: m.outs (m.step s i).2 is := rfl

@[simp] theorem final_cons (s : σ) (i : ι) (is : List ι) :
    m.final s (i :: is) = m.final (m.step s i).2 is := rfl

@[simp] theorem trace_cons (s : σ) (i : ι) (is : List ι) :
    m.trace s (i :: is)
      = ⟨s, i, (m.step s i).1, (m.step s i).2⟩ :: m.trace (m.step s i).2 is := rfl

@[simp] theorem length_outs (s : σ) (is : List ι) : (m.outs s is).length = is.length := by
  induction is generalizing s with
  | nil => rfl
  | cons i is ih => simp [ih]

theorem outs_append (s : σ) (is js : List ι) :
    m.outs s (is ++ js) = m.outs s is ++ m.outs (m.final s is) js := by
  induction is generalizing s with
  | nil => rfl
  | cons i is ih => simp [ih]

theorem final_append (s : σ) (is js : List ι) :
    m.final s (is ++ js) = m.final (m.final s is) js := by
  induction is generalizing s with
  | nil => rfl
  | cons i is ih => simp [ih]

theorem trace_append (s : σ) (is js : List ι) :
    m.trace s (is ++ js) = m.trace s is ++ m.trace (m.final s is) js := by
  induction is generalizing s with
  | nil => rfl
  | cons i is ih => simp [ih]

theorem input_mem_of_mem_trace {s : σ} {is : List ι} {mv : Move σ ι ο} (h : mv ∈ m.trace s is) :
    mv.input ∈ is := by
  induction is generalizing s with
  | nil => exact absurd h List.not_mem_nil
  | cons i is ih =>
    rcases List.mem_cons.mp h with rfl | h
    · exact List.mem_cons_self ..
    · exact List.mem_cons_of_mem _ (ih h)

/-- A move is a step. -/
theorem step_of_mem_trace {s : σ} {is : List ι} {mv : Move σ ι ο} (h : mv ∈ m.trace s is) :
    m.step mv.pre mv.input = (mv.output, mv.post) := by
  induction is generalizing s with
  | nil => exact absurd h List.not_mem_nil
  | cons i is ih =>
    rcases List.mem_cons.mp h with rfl | h
    · rfl
    · exact ih h

/-! ## Invariants -/

/-- What holds at the start and is kept by every step holds in every
reachable state. -/
theorem Reachable.induction {m : Machine σ ι ο} {init s : σ} (P : σ → Prop)
    (h0 : P init) (hs : ∀ s i, P s → P (m.step s i).2) (h : m.Reachable init s) : P s := by
  obtain ⟨is, rfl⟩ := h
  induction is generalizing init with
  | nil => exact h0
  | cons i is ih => exact ih (hs init i h0)

theorem Reachable.init (s : σ) : m.Reachable s s := ⟨[], rfl⟩

theorem Reachable.step {m : Machine σ ι ο} {init s : σ} (h : m.Reachable init s) (i : ι) :
    m.Reachable init (m.step s i).2 := by
  obtain ⟨is, rfl⟩ := h
  exact ⟨is ++ [i], by simp [final_append]⟩

/-- The states of a run from a reachable state are reachable. -/
theorem Reachable.of_mem_trace {m : Machine σ ι ο} {init s : σ} {is : List ι} {mv : Move σ ι ο}
    (h : m.Reachable init s) (hmv : mv ∈ m.trace s is) : m.Reachable init mv.post := by
  induction is generalizing s with
  | nil => exact absurd hmv List.not_mem_nil
  | cons i is ih =>
    rcases List.mem_cons.mp hmv with rfl | hmv
    · exact h.step i
    · exact ih (h.step i) hmv

/-- A property of the moves that each step decides from its own state and
input holds along a run exactly when each step meets it. -/
theorem trace_forall_iff (P : Move σ ι ο → Prop) (C : σ → ι → Prop)
    (h : ∀ s i, P ⟨s, i, (m.step s i).1, (m.step s i).2⟩ ↔ C s i) (s : σ) (is : List ι) :
    (∀ mv ∈ m.trace s is, P mv) ↔ ∀ mv ∈ m.trace s is, C mv.pre mv.input := by
  induction is generalizing s with
  | nil => simp
  | cons i is ih => simp [h, ih]

/-- A property of the moves that, under an invariant, each step decides from
its own state and input. The steps that meet `C` keep the invariant. -/
theorem trace_forall_iff_of_invariant (P : σ → Prop) (Q : Move σ ι ο → Prop) (C : σ → ι → Prop)
    (hQ : ∀ s i, P s → (Q ⟨s, i, (m.step s i).1, (m.step s i).2⟩ ↔ C s i))
    (hP : ∀ s i, P s → C s i → P (m.step s i).2) {s : σ} (h0 : P s) (is : List ι) :
    (∀ mv ∈ m.trace s is, Q mv) ↔ ∀ mv ∈ m.trace s is, C mv.pre mv.input := by
  induction is generalizing s with
  | nil => simp
  | cons i is ih =>
    simp only [trace_cons, List.forall_mem_cons, hQ s i h0]
    exact and_congr_right fun hC => ih (hP s i h0 hC)

/-- What a step keeps when it meets `C` holds along a run whose steps meet
it. -/
theorem trace_invariant (P : σ → Prop) (C : σ → ι → Prop)
    (h : ∀ s i, P s → C s i → P (m.step s i).2) {s : σ} (h0 : P s) (is : List ι)
    (hC : ∀ mv ∈ m.trace s is, C mv.pre mv.input) :
    ∀ mv ∈ m.trace s is, P mv.pre ∧ P mv.post := by
  induction is generalizing s with
  | nil => simp
  | cons i is ih =>
    simp only [trace_cons, List.forall_mem_cons] at hC ⊢
    have h1 := h s i h0 hC.1
    exact ⟨⟨h0, h1⟩, ih h1 hC.2⟩

/-- It holds where the run ends. -/
theorem final_invariant (P : σ → Prop) (C : σ → ι → Prop)
    (h : ∀ s i, P s → C s i → P (m.step s i).2) {s : σ} (h0 : P s) (is : List ι)
    (hC : ∀ mv ∈ m.trace s is, C mv.pre mv.input) : P (m.final s is) := by
  induction is generalizing s with
  | nil => exact h0
  | cons i is ih =>
    simp only [trace_cons, List.forall_mem_cons] at hC
    exact ih (h s i h0 hC.1) hC.2

/-- An invariant that speaks of the inputs so far. -/
theorem final_inputs_invariant (P : List ι → σ → Prop) (C : σ → ι → Prop) {s : σ} (h0 : P [] s)
    (h : ∀ is i, P is (m.final s is) → C (m.final s is) i →
      P (is ++ [i]) (m.step (m.final s is) i).2) (is : List ι)
    (hC : ∀ mv ∈ m.trace s is, C mv.pre mv.input) : P is (m.final s is) := by
  induction is using List.reverseRecOn with
  | nil => exact h0
  | append_singleton is i ih =>
    rw [trace_append] at hC
    rw [final_append]
    refine h is i (ih ?_) ?_
    · intro mv hmv
      exact hC mv (List.mem_append_left _ hmv)
    · exact hC _ (List.mem_append_right _ (List.mem_singleton_self _))

/-- The invariant in front of an input of a run, where the inputs meet `W`. -/
theorem split_inputs_invariant (P : List ι → σ → Prop) (C : σ → ι → Prop) (W : ι → Prop) {s : σ}
    (h0 : P [] s)
    (h : ∀ is i, P is (m.final s is) → C (m.final s is) i → W i →
      P (is ++ [i]) (m.step (m.final s is) i).2)
    {front back : List ι} {i : ι} (hW : ∀ j ∈ front ++ i :: back, W j)
    (hC : ∀ mv ∈ m.trace s (front ++ i :: back), C mv.pre mv.input) :
    P front (m.final s front) ∧ C (m.final s front) i ∧ W i := by
  rw [trace_append] at hC
  have hfront := m.final_inputs_invariant (fun is s => (∀ j ∈ is, W j) → P is s) C (fun _ => h0)
    (fun is i ih hCi hW => h is i (ih fun j hj => hW j (List.mem_append_left _ hj)) hCi
      (hW i (List.mem_append_right _ (List.mem_singleton_self i))))
    front (fun mv hmv => hC mv (List.mem_append_left _ hmv))
  exact ⟨hfront (fun j hj => hW j (List.mem_append_left _ hj)),
    hC _ (List.mem_append_right _ List.mem_cons_self), hW i (List.mem_append_right _ List.mem_cons_self)⟩

/-! ## Other inputs, and a history -/

/-- The machine, fed with what `f` makes of its inputs. -/
def comap (m : Machine σ κ ο) (f : ι → κ) : Machine σ ι ο where
  step s i := m.step s (f i)

/-- The machine beside what `note` writes down of each of its steps. -/
def withHistory (m : Machine σ ι ο) (note : σ → τ → ι → τ) : Machine (σ × τ) ι ο where
  step s i := ((m.step s.1 i).1, (m.step s.1 i).2, note s.1 s.2 i)

/-- The history does not change the run. -/
theorem fst_final_withHistory (note : σ → τ → ι → τ) (s : σ × τ) (is : List ι) :
    ((m.withHistory note).final s is).1 = m.final s.1 is := by
  induction is generalizing s with
  | nil => rfl
  | cons i is ih => exact ih _

/-- A property of the moves of the machine, told of those with a history. -/
theorem forall_trace_withHistory (note : σ → τ → ι → τ) (Q : Move σ ι ο → Prop) (s : σ × τ)
    (is : List ι) :
    (∀ mv ∈ (m.withHistory note).trace s is, Q ⟨mv.pre.1, mv.input, mv.output, mv.post.1⟩) ↔
      ∀ mv ∈ m.trace s.1 is, Q mv := by
  induction is generalizing s with
  | nil => simp
  | cons i is ih =>
    simp only [trace_cons, List.forall_mem_cons]
    exact and_congr_right fun _ => ih _

/-! ## Two machines side by side -/

/-- Two machines in related states, given corresponding inputs, keep giving
related outputs as long as each step meets `C`. -/
theorem simulation {m : Machine σ ι ο} {n : Machine τ κ π} (R : σ → τ → Prop)
    (C : σ → ι → Prop) (Q : ο → π → Prop) (enc : ι → κ)
    (h : ∀ s t i, R s t → C s i →
      Q (m.step s i).1 (n.step t (enc i)).1 ∧ R (m.step s i).2 (n.step t (enc i)).2)
    {s : σ} {t : τ} (hR : R s t) (is : List ι)
    (hC : ∀ mv ∈ m.trace s is, C mv.pre mv.input) :
    List.Forall₂ Q (m.outs s is) (n.outs t (is.map enc)) := by
  induction is generalizing s t with
  | nil => exact List.Forall₂.nil
  | cons i is ih =>
    simp only [trace_cons, List.forall_mem_cons] at hC
    obtain ⟨hQ, hR'⟩ := h s t i hR hC.1
    exact List.Forall₂.cons hQ (ih hR' hC.2)

end Machine

end NavigationServer.Lib
