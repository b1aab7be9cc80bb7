/-
NavigationServer.Lib.Keyed — machines whose state is one slot per key.

A `Keyed` system reads inputs that each carry a key. A step reads and writes
the slot of that key only, and its output is a function of that slot. So the
traffic of one key does not see the traffic of the others: in any
interleaving, the outputs given to the inputs of key `k` are those of the
one-slot machine fed with these inputs alone (`outs_filter`).
-/
import NavigationServer.Lib.Machine

namespace NavigationServer.Lib

/-- A machine with one slot of type `ν` for each key of type `κ`. -/
structure Keyed (σ κ ν ι ο : Type*) extends Machine σ ι ο where
  key : ι → κ
  slot : σ → κ → ν
  slotStep : κ → ν → ι → ο × ν
  step_output : ∀ s i, (step s i).1 = (slotStep (key i) (slot s (key i)) i).1
  step_same : ∀ s i, slot (step s i).2 (key i) = (slotStep (key i) (slot s (key i)) i).2
  step_other : ∀ s i k, k ≠ key i → slot (step s i).2 k = slot s k

namespace Keyed

variable {σ κ ν ι ο : Type*} [DecidableEq κ] (m : Keyed σ κ ν ι ο)

/-- The machine of one slot. -/
def slotMachine (k : κ) : Machine ν ι ο where
  step := m.slotStep k

/-- The inputs of one key. -/
def inputsOf (k : κ) (is : List ι) : List ι := is.filter (fun i => m.key i = k)

/-- The outputs that a run gives to the inputs of one key. -/
def outsOf (k : κ) (s : σ) (is : List ι) : List ο :=
  ((is.zip (m.outs s is)).filter (fun p => m.key p.1 = k)).map Prod.snd

theorem inputsOf_cons_same {k : κ} {i : ι} (h : m.key i = k) (is : List ι) :
    m.inputsOf k (i :: is) = i :: m.inputsOf k is := by
  simp [inputsOf, h]

theorem inputsOf_cons_other {k : κ} {i : ι} (h : m.key i ≠ k) (is : List ι) :
    m.inputsOf k (i :: is) = m.inputsOf k is := by
  simp [inputsOf, h]

/-- A run leaves the slot of a key as the one-slot machine does on the inputs
of that key. -/
theorem slot_final (k : κ) (s : σ) (is : List ι) :
    m.slot (m.final s is) k = (m.slotMachine k).final (m.slot s k) (m.inputsOf k is) := by
  induction is generalizing s with
  | nil => rfl
  | cons i is ih =>
    rw [Machine.final_cons, ih]
    by_cases hk : m.key i = k
    · rw [m.inputsOf_cons_same hk, Machine.final_cons]
      subst hk
      rw [m.step_same]
      rfl
    · rw [m.inputsOf_cons_other hk, m.step_other s i k (Ne.symm hk)]

/-- **The keys do not disturb each other.** The outputs a run gives to the
inputs of one key are those of the one-slot machine on these inputs alone. -/
theorem outs_filter (k : κ) (s : σ) (is : List ι) :
    m.outsOf k s is = (m.slotMachine k).outs (m.slot s k) (m.inputsOf k is) := by
  induction is generalizing s with
  | nil => rfl
  | cons i is ih =>
    by_cases hk : m.key i = k
    · have hcons : m.outsOf k s (i :: is) = (m.step s i).1 :: m.outsOf k (m.step s i).2 is := by
        simp [outsOf, hk]
      rw [hcons, ih, m.inputsOf_cons_same hk, Machine.outs_cons]
      subst hk
      rw [m.step_same, m.step_output]
      rfl
    · have hcons : m.outsOf k s (i :: is) = m.outsOf k (m.step s i).2 is := by
        simp [outsOf, hk]
      rw [hcons, ih, m.inputsOf_cons_other hk, m.step_other s i k (Ne.symm hk)]

omit [DecidableEq κ] in
/-- Inputs that all have the key `k` run as in the slot of `k`. -/
theorem outs_of_key {k : κ} {is : List ι} (hk : ∀ i ∈ is, m.key i = k) (s : σ) :
    m.outs s is = (m.slotMachine k).outs (m.slot s k) is := by
  induction is generalizing s with
  | nil => rfl
  | cons i is ih =>
    have hi : m.key i = k := hk i (by simp)
    rw [Machine.outs_cons, Machine.outs_cons, ih (fun j hj => hk j (by simp [hj]))]
    subst hi
    rw [m.step_output, m.step_same]
    rfl

theorem slot_final_of_key {k : κ} {is : List ι} (hk : ∀ i ∈ is, m.key i = k) (s : σ) :
    m.slot (m.final s is) k = (m.slotMachine k).final (m.slot s k) is := by
  have hall : m.inputsOf k is = is :=
    List.filter_eq_self.mpr (fun i hi => decide_eq_true (hk i hi))
  rw [m.slot_final, hall]

/-- Inputs with other keys leave the slot of `k` alone. -/
theorem slot_final_of_ne {k : κ} {is : List ι} (hk : ∀ i ∈ is, m.key i ≠ k) (s : σ) :
    m.slot (m.final s is) k = m.slot s k := by
  have hnil : m.inputsOf k is = [] :=
    List.filter_eq_nil_iff.mpr (fun i hi => by rw [decide_eq_true_eq]; exact hk i hi)
  rw [m.slot_final, hnil]
  rfl

/-- `outs_filter` for inputs that come with a tag: the tag picks the inputs of a key,
and the outputs picked by it are those of the one-slot machine. -/
theorem outs_tagged {α : Type*} (f : α → ι) (p : α → Bool) (k : κ) (s : σ) (as : List α)
    (h : ∀ a ∈ as, m.key (f a) = k ↔ p a = true) :
    ((as.zip (m.outs s (as.map f))).filter (fun x => p x.1)).map Prod.snd
      = (m.slotMachine k).outs (m.slot s k) ((as.filter p).map f) := by
  have hin : m.inputsOf k (as.map f) = (as.filter p).map f := by
    rw [inputsOf, List.filter_map]
    congr 1
    exact List.filter_congr
      (fun a ha => Bool.eq_iff_iff.mpr (decide_eq_true_iff.trans (h a ha)))
  have hout : m.outsOf k s (as.map f)
      = ((as.zip (m.outs s (as.map f))).filter (fun x => p x.1)).map Prod.snd := by
    rw [outsOf, List.zip_map_left, List.filter_map, List.map_map]
    have hfilter : (as.zip (m.outs s (as.map f))).filter
          ((fun x => decide (m.key x.1 = k)) ∘ Prod.map f id)
        = (as.zip (m.outs s (as.map f))).filter (fun x => p x.1) := by
      exact List.filter_congr (fun x hx =>
        Bool.eq_iff_iff.mpr (decide_eq_true_iff.trans (h x.1 (List.of_mem_zip hx).1)))
    rw [hfilter]
    rfl
  rw [← hout, outs_filter, hin]

end Keyed

end NavigationServer.Lib
