/-
NavigationServer.Lib.Lines — the lines of a text file.

A file is read line by line, each with its line feed; a carriage return, alone
or with a line feed behind it, ends a line as well. Where a line feed ends a
part of the text, the lines of the part and of the rest follow each other
(`fileLines_append`). What is put in front of a text without a line end goes to
its first line (`fileLines_prefix`).
-/
import NavigationServer.Lib.Bytes

namespace NavigationServer.Lib

/-- The lines that are read; `line` is the beginning of the current one. -/
def linesFrom (line : Bytes) : Bytes → List Bytes
  | [] => if line = [] then [] else [line]
  | 13 :: 10 :: text => (line ++ [10]) :: linesFrom [] text
  | c :: text =>
      if c = 10 ∨ c = 13 then (line ++ [10]) :: linesFrom [] text else linesFrom (line ++ [c]) text

def fileLines (text : Bytes) : List Bytes := linesFrom [] text

/-- The characters that end no line. -/
def OneLine (text : Bytes) : Prop := ∀ c ∈ text, c ≠ 10 ∧ c ≠ 13

theorem linesFrom_cons {line text : Bytes} {c : UInt8} (hc : c ≠ 10 ∧ c ≠ 13) :
    linesFrom line (c :: text) = linesFrom (line ++ [c]) text := by
  rw [linesFrom]
  · rw [if_neg (by tauto)]
  · rintro text' rfl
    exact absurd rfl hc.2

theorem linesFrom_append {line text : Bytes} (rest : Bytes) (h : OneLine text) :
    linesFrom line (text ++ rest) = linesFrom (line ++ text) rest := by
  induction text generalizing line with
  | nil => rw [List.nil_append, List.append_nil]
  | cons c text ih =>
    rw [List.cons_append, linesFrom_cons (h c List.mem_cons_self),
      ih (fun x hx => h x (List.mem_cons_of_mem _ hx)), List.append_assoc, List.singleton_append]

theorem linesFrom_lf (line text : Bytes) :
    linesFrom line (10 :: text) = (line ++ [10]) :: linesFrom [] text := by
  rw [linesFrom, if_pos (Or.inl rfl)]
  intro text' heq
  cases heq

theorem linesFrom_cr {text : Bytes} (line : Bytes) (h : text.head? ≠ some 10) :
    linesFrom line (13 :: text) = (line ++ [10]) :: linesFrom [] text := by
  rw [linesFrom, if_pos (Or.inr rfl)]
  intro text' _ heq
  exact h (heq ▸ rfl)

/-- A line that is written is read back. -/
theorem fileLines_line {line : Bytes} (h : OneLine line) : fileLines (line ++ [10]) = [line ++ [10]] := by
  unfold fileLines
  rw [linesFrom_append _ h, List.nil_append, linesFrom_lf, linesFrom, if_pos rfl]

/-! ## Texts one behind the other -/

/-- A line feed ends what stands before it. -/
theorem linesFrom_lineFeed (line text rest : Bytes) :
    linesFrom line (text ++ 10 :: rest) = linesFrom line (text ++ [10]) ++ linesFrom [] rest := by
  fun_induction linesFrom line text with
  | case1 => rw [List.nil_append, List.nil_append, linesFrom_lf, linesFrom_lf]; rfl
  | case2 line _ => rw [List.nil_append, List.nil_append, linesFrom_lf, linesFrom_lf]; rfl
  | case3 line text ih =>
    simp only [List.cons_append] at ih ⊢
    rw [linesFrom, ih, linesFrom, List.cons_append]
  | case4 line c text hc hend ih =>
    rcases hend with rfl | rfl
    · rw [List.cons_append, List.cons_append, linesFrom_lf, linesFrom_lf, ih, List.cons_append]
    · cases text with
      | nil => simp [linesFrom]
      | cons d text =>
        have hd : d ≠ 10 := fun hd => hc text rfl (hd ▸ rfl)
        have hhead : ∀ tail : Bytes, (d :: text ++ tail).head? ≠ some 10 := by
          intro tail
          simpa using hd
        rw [List.cons_append, linesFrom_cr _ (hhead (10 :: rest)), List.cons_append (a := 13),
          linesFrom_cr _ (hhead [10]), ih, List.cons_append (a := line ++ [10])]
  | case5 line c text hc hend ih =>
    have hc : c ≠ 10 ∧ c ≠ 13 := not_or.mp hend
    rw [List.cons_append, List.cons_append, linesFrom_cons hc, linesFrom_cons hc, ih]

theorem fileLines_append (text rest : Bytes) :
    fileLines (text ++ 10 :: rest) = fileLines (text ++ [10]) ++ fileLines rest :=
  linesFrom_lineFeed [] text rest

/-- The beginning of a line goes to the first line only. -/
theorem linesFrom_first (text : Bytes) : ∃ (first : Bytes) (rest : List Bytes), ∀ line : Bytes,
    linesFrom line (text ++ [10]) = (line ++ first) :: rest := by
  induction text with
  | nil => exact ⟨[10], [], fun line => linesFrom_lf line []⟩
  | cons c text ih =>
    by_cases hlf : c = 10
    · subst hlf
      refine ⟨[10], fileLines (text ++ [10]), fun line => ?_⟩
      rw [List.cons_append, linesFrom_lf]
      rfl
    · by_cases hcr : c = 13
      · subst hcr
        by_cases hhead : (text ++ [10]).head? = some 10
        · obtain ⟨tail, htail⟩ := List.head?_eq_some_iff.mp hhead
          refine ⟨[10], fileLines tail, fun line => ?_⟩
          rw [List.cons_append, htail, linesFrom]
          rfl
        · refine ⟨[10], fileLines (text ++ [10]), fun line => ?_⟩
          rw [List.cons_append, linesFrom_cr line hhead]
          rfl
      · obtain ⟨first, rest, h⟩ := ih
        refine ⟨c :: first, rest, fun line => ?_⟩
        rw [List.cons_append, linesFrom_cons ⟨hlf, hcr⟩, h, List.append_assoc,
          List.singleton_append]

theorem fileLines_prefix {start : Bytes} (text : Bytes) (h : OneLine start) :
    fileLines (start ++ text ++ [10])
      = (start ++ (fileLines (text ++ [10])).headD []) :: (fileLines (text ++ [10])).tail := by
  obtain ⟨first, rest, hlines⟩ := linesFrom_first text
  unfold fileLines
  rw [List.append_assoc, linesFrom_append _ h, hlines, hlines]
  rfl

/-- No line is empty. -/
theorem ne_nil_of_mem_linesFrom {line text l : Bytes} (h : l ∈ linesFrom line text) : l ≠ [] := by
  fun_induction linesFrom line text with
  | case1 => cases h
  | case2 line hline => exact List.mem_singleton.mp h ▸ hline
  | case3 line text ih =>
    rcases List.mem_cons.mp h with rfl | h
    · simp
    · exact ih h
  | case4 line c text hc hend ih =>
    rcases List.mem_cons.mp h with rfl | h
    · simp
    · exact ih h
  | case5 line c text hc hend ih => exact ih h

end NavigationServer.Lib
