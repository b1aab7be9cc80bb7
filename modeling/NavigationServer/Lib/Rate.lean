/-
NavigationServer.Lib.Rate — how many times lie in a window.

`Limited P times`: a closed window of length `L` holds at most `⌊L / P⌋ + 1` of
the times. Of times in order that is the same as a gap of `P` between each two
neighbours (`limited_iff_isChain`), which a run can be asked for step by step.
-/
import Mathlib.Algebra.Order.Floor.Ring
import Mathlib.Data.List.Chain
import Mathlib.Tactic.Linarith
import Mathlib.Tactic.Ring

namespace NavigationServer.Lib

variable {K : Type*} [Field K] [LinearOrder K] [IsStrictOrderedRing K] [FloorRing K]

/-- The times in a window. -/
def inWindow (a L : K) (times : List K) : List K := times.filter (fun t => a ≤ t ∧ t ≤ a + L)

def Limited (P : K) (times : List K) : Prop :=
  ∀ a L : K, 0 ≤ L → ((inWindow a L times).length : Int) ≤ ⌊L / P⌋ + 1

omit [FloorRing K] in
/-- Of times with gaps, the last one is as many gaps behind the first. -/
theorem span_of_gaps {P : K} {times : List K} {first : K}
    (h : (first :: times).Pairwise (fun s t => s + P ≤ t)) :
    first + times.length * P ≤ (first :: times).getLast (List.cons_ne_nil _ _) := by
  induction times generalizing first with
  | nil => simp
  | cons t times ih =>
    have hgap : first + P ≤ t := (List.pairwise_cons.mp h).1 t List.mem_cons_self
    have htail := ih (List.pairwise_cons.mp h).2
    rw [List.getLast_cons (List.cons_ne_nil _ _)]
    calc first + ((t :: times).length : K) * P
        = first + P + times.length * P := by
          rw [List.length_cons, Nat.cast_succ]
          ring
      _ ≤ t + times.length * P := by linarith
      _ ≤ _ := htail

/-- **Times in order are limited exactly when neighbours are a period apart.** -/
theorem limited_iff_isChain {P : K} (hP : 0 < P) {times : List K} (h : times.Pairwise (· ≤ ·)) :
    Limited P times ↔ times.IsChain (fun s t => s + P ≤ t) := by
  constructor
  · intro hlimited
    refine List.isChain_iff_forall_rel_of_append_cons_cons.mpr ?_
    rintro s t front back rfl
    by_contra hgap
    have hle : s ≤ t := by
      have hpair := (List.pairwise_append.mp h).2.1
      exact (List.pairwise_cons.mp hpair).1 t List.mem_cons_self
    have hbound := hlimited s (t - s) (sub_nonneg.mpr hle)
    have hfloor : ⌊(t - s) / P⌋ = 0 := by
      rw [Int.floor_eq_zero_iff]
      refine ⟨div_nonneg (sub_nonneg.mpr hle) hP.le, ?_⟩
      rw [div_lt_one hP]
      linarith
    have hmany : 2 ≤ (inWindow s (t - s) (front ++ s :: t :: back)).length := by
      have hsub : [s, t].Sublist (front ++ s :: t :: back) :=
        ((List.nil_sublist back).cons_cons t |>.cons_cons s).trans (List.sublist_append_right _ _)
      have hkept : inWindow s (t - s) [s, t] = [s, t] := by
        simp [inWindow, hle]
      have hlen := (hsub.filter (fun u => decide (s ≤ u ∧ u ≤ s + (t - s)))).length_le
      rw [← inWindow, ← inWindow, hkept] at hlen
      exact hlen
    rw [hfloor] at hbound
    omega
  · intro hchain a L hL
    have htrans : IsTrans K (fun s t => s + P ≤ t) := ⟨fun s t u hst htu => by linarith⟩
    have hgaps : (inWindow a L times).Pairwise (fun s t => s + P ≤ t) :=
      (List.isChain_iff_pairwise.mp hchain).sublist List.filter_sublist
    cases hwindow : inWindow a L times with
    | nil =>
      have hfloor : 0 ≤ ⌊L / P⌋ := Int.floor_nonneg.mpr (div_nonneg hL hP.le)
      simp only [List.length_nil]
      omega
    | cons first rest =>
      rw [hwindow] at hgaps
      have hspan := span_of_gaps hgaps
      have hinside : ∀ t ∈ first :: rest, a ≤ t ∧ t ≤ a + L := by
        intro t ht
        rw [← hwindow] at ht
        simpa using (List.mem_filter.mp ht).2
      have hfirst := (hinside first List.mem_cons_self).1
      have hlast := (hinside _ (List.getLast_mem (List.cons_ne_nil first rest))).2
      have hfloor : (rest.length : Int) ≤ ⌊L / P⌋ := by
        rw [Int.le_floor, le_div_iff₀ hP]
        push_cast
        linarith
      rw [List.length_cons]
      push_cast
      omega

end NavigationServer.Lib
