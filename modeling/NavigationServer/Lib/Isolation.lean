/-
NavigationServer.Lib.Isolation — when a run on mixed inputs is, for some of
them, the run on these inputs alone.

`Isolated m R p` has the three conditions of an unwinding proof: an input
outside `p` leaves the state as it was up to `R`, an input inside gives the
same output from states that `R` relates, and leaves related states. Then the
inputs outside may be taken out of any run (`Isolated.final`,
`Isolated.outputs`).
-/
import NavigationServer.Lib.Machine

namespace NavigationServer.Lib

/-- The inputs outside `p` are not seen by those inside. -/
structure Isolated {σ ι ο : Type*} (m : Machine σ ι ο) (R : σ → σ → Prop) (p : ι → Bool) :
    Prop where
  outside : ∀ {s t i}, R s t → p i = false → R (m.step s i).2 t
  output : ∀ {s t i}, R s t → p i = true → (m.step s i).1 = (m.step t i).1
  inside : ∀ {s t i}, R s t → p i = true → R (m.step s i).2 (m.step t i).2

namespace Isolated

variable {σ ι ο : Type*} {m : Machine σ ι ο} {R : σ → σ → Prop} {p : ι → Bool} {s t : σ}

/-- **The run ends where the run on the inputs inside does.** -/
theorem final (h : Isolated m R p) (hR : R s t) (is : List ι) :
    R (m.final s is) (m.final t (is.filter p)) := by
  induction is generalizing s t with
  | nil => exact hR
  | cons i is ih =>
    cases hi : p i with
    | false =>
      rw [List.filter_cons_of_neg (by simp [hi])]
      exact ih (h.outside hR hi)
    | true =>
      rw [List.filter_cons_of_pos hi]
      exact ih (h.inside hR hi)

/-- **The inputs inside get the outputs they get alone.** -/
theorem outputs (h : Isolated m R p) (hR : R s t) (is : List ι) :
    ((is.zip (m.outs s is)).filter (fun x => p x.1)).map Prod.snd = m.outs t (is.filter p) := by
  induction is generalizing s t with
  | nil => rfl
  | cons i is ih =>
    rw [Machine.outs_cons, List.zip_cons_cons]
    cases hi : p i with
    | false =>
      rw [List.filter_cons_of_neg (by simp [hi]), List.filter_cons_of_neg (by simp [hi])]
      exact ih (h.outside hR hi)
    | true =>
      rw [List.filter_cons_of_pos (by simp [hi]), List.filter_cons_of_pos hi, List.map_cons,
        Machine.outs_cons, h.output hR hi, ih (h.inside hR hi)]

end Isolated

end NavigationServer.Lib
