import Breadboard.Text.Lines

/-!
# Lines written out

Lines that hold no line end of their own, each with a newline behind it, are read back as the lines
of the text.
-/

namespace Breadboard.Text

/-- The text of lines, a newline behind each. -/
def unlines (ls : List (List Char)) : String := String.ofList (ls.flatMap (· ++ ['\n']))

theorem linesFrom_append {w : List Char} (hw : ∀ c ∈ w, endsLine c = false)
    (line rest : List Char) :
    linesFrom line (w ++ '\n' :: rest) = (line.reverse ++ w) :: linesFrom [] rest := by
  induction w generalizing line with
  | nil =>
    have hends : endsLine '\n' = true := by decide
    conv => lhs; unfold linesFrom
    simp [hends]
  | cons c w ih =>
    have hc := hw c List.mem_cons_self
    have hreturn : c ≠ '\r' := by
      rintro rfl
      exact absurd hc (by decide)
    have hrest := ih (fun d hd => hw d (List.mem_cons_of_mem c hd)) (c :: line)
    conv => lhs; unfold linesFrom
    simp [hreturn, hc, hrest]

theorem forall_endsLine {ls : List (List Char)} (h : ls.all fun l => l.all (! endsLine ·)) :
    ∀ l ∈ ls, ∀ c ∈ l, endsLine c = false := by
  simpa only [List.all_eq_true, Bool.not_eq_true'] using h

theorem lines_unlines {ls : List (List Char)} (h : ∀ l ∈ ls, ∀ c ∈ l, endsLine c = false) :
    lines (unlines ls) = ls := by
  unfold lines unlines
  rw [String.toList_ofList]
  induction ls with
  | nil => rfl
  | cons l ls ih =>
    rw [List.flatMap_cons, List.append_assoc, List.singleton_append,
      linesFrom_append (h l List.mem_cons_self), ih fun m hm => h m (List.mem_cons_of_mem l hm)]
    rfl

/-- A line that has begun is a line, even if nothing follows. -/
theorem exists_linesFrom {line : List Char} (hline : line ≠ []) (cs : List Char) :
    ∃ l ls, linesFrom line cs = l :: ls ∧ l ≠ [] := by
  induction cs generalizing line with
  | nil =>
    refine ⟨line.reverse, [], ?_, by simpa using hline⟩
    rw [linesFrom, List.isEmpty_eq_false_iff.mpr hline, if_neg Bool.false_ne_true]
  | cons c cs ih =>
    unfold linesFrom
    split
    · split <;> exact ⟨_, _, rfl, by simpa using hline⟩
    · split
      · exact ⟨_, _, rfl, by simpa using hline⟩
      · exact ih (List.cons_ne_nil c line)

theorem exists_lines {s : String} (h : s.toList.head?.any (! endsLine ·)) :
    ∃ l ls, lines s = l :: ls ∧ l ≠ [] := by
  unfold lines
  cases hs : s.toList with
  | nil => simp [hs] at h
  | cons c cs =>
    have hc : endsLine c = false := by simpa [hs] using h
    have hreturn : c ≠ '\r' := by
      rintro rfl
      exact absurd hc (by decide)
    unfold linesFrom
    simp only [hreturn, hc, if_false, Bool.false_eq_true]
    exact exists_linesFrom (List.cons_ne_nil c []) cs

/-! ## Line ends of text files -/

theorem linesFrom_newline (line cs : List Char) :
    linesFrom line ('\n' :: cs) = line.reverse :: linesFrom [] cs := by
  have hends : endsLine '\n' = true := by decide
  conv => lhs; unfold linesFrom
  simp [hends]

theorem unifyNewlines_of_not_mem {cs : List Char} (h : '\r' ∉ cs) : unifyNewlines cs = cs := by
  induction cs with
  | nil => rfl
  | cons c cs ih =>
    rw [List.mem_cons, not_or] at h
    rw [unifyNewlines.eq_def]
    simp only [Ne.symm h.1, if_false, ih h.2]

/-- The lines stay the same when every line end of a text file is read as a newline. -/
theorem linesFrom_unifyNewlines (line cs : List Char) :
    linesFrom line (unifyNewlines cs) = linesFrom line cs := by
  induction cs using unifyNewlines.induct generalizing line with
  | case1 => rfl
  | case2 rest ih =>
    rw [unifyNewlines.eq_def]
    simp only [if_true]
    rw [linesFrom_newline, ih]
    conv => rhs; unfold linesFrom
    simp
  | case3 rest hrest ih =>
    rw [unifyNewlines.eq_def]
    simp only [if_true]
    rw [linesFrom_newline, ih]
    conv => rhs; unfold linesFrom
    simp
  | case4 c cs hc ih =>
    have hunify : unifyNewlines (c :: cs) = c :: unifyNewlines cs := by
      rw [unifyNewlines.eq_def]
      simp only [hc, if_false]
    rw [hunify]
    conv => lhs; unfold linesFrom
    conv => rhs; unfold linesFrom
    simp only [hc, if_false, ih]

theorem lines_unifyNewlines (s : String) :
    lines (String.ofList (unifyNewlines s.toList)) = lines s := by
  unfold lines
  rw [String.toList_ofList, linesFrom_unifyNewlines]

end Breadboard.Text
