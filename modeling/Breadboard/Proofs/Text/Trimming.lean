import Breadboard.Proofs.Text.Words
import Mathlib.Data.List.DropRight

/-!
# Trimming

What trimming takes off is blank, and behind a text that is not blank nothing is taken off. So a
text is what is left of it between blanks, and it is trimmed once for all.
-/

namespace Breadboard.Text

variable {bs cs ds : List Char}

theorem trimEnd_append_blanks (h : ∀ c ∈ bs, isBlank c) (cs : List Char) :
    trimEnd (cs ++ bs) = trimEnd cs := by
  unfold trimEnd
  rw [List.reverse_append, List.dropWhile_append_of_pos fun c hc => h c (List.mem_reverse.mp hc)]

theorem exists_trimEnd_append (cs : List Char) :
    ∃ bs, (∀ c ∈ bs, isBlank c) ∧ cs = trimEnd cs ++ bs := by
  refine ⟨(cs.reverse.takeWhile isBlank).reverse, fun c hc => ?_, ?_⟩
  · exact List.all_eq_true.mp List.all_takeWhile c (List.mem_reverse.mp hc)
  · unfold trimEnd
    rw [← List.reverse_append, List.takeWhile_append_dropWhile, List.reverse_reverse]

/-- Behind a text that is not blank nothing is trimmed. -/
theorem trimEnd_append (h : trimEnd ds ≠ []) (cs : List Char) :
    trimEnd (cs ++ ds) = cs ++ trimEnd ds := by
  have hkept : (ds.reverse.dropWhile isBlank).isEmpty = false := by
    rw [List.isEmpty_eq_false_iff]
    exact fun hnil => h (by rw [trimEnd, hnil, List.reverse_nil])
  unfold trimEnd
  rw [List.reverse_append, List.dropWhile_append, hkept, if_neg Bool.false_ne_true,
    List.reverse_append, List.reverse_reverse]

theorem trimEnd_eq_nil_iff : trimEnd cs = [] ↔ allBlank cs = true := by
  unfold trimEnd allBlank
  rw [List.reverse_eq_nil_iff, List.dropWhile_eq_nil_iff, List.all_eq_true]
  simp only [List.mem_reverse]

theorem trimEnd_trimEnd (cs : List Char) : trimEnd (trimEnd cs) = trimEnd cs := by
  unfold trimEnd
  rw [List.reverse_reverse, List.dropWhile_idempotent]

/-- Trimming the end before or after the start is cut makes no difference. -/
theorem trimEnd_dropWhile_trimEnd (p : Char → Bool) (cs : List Char) :
    trimEnd ((trimEnd cs).dropWhile p) = trimEnd (cs.dropWhile p) := by
  obtain ⟨bs, hbs, heq⟩ := exists_trimEnd_append cs
  have hdropped : ∀ c ∈ bs.dropWhile p, isBlank c := fun c hc =>
    hbs c ((List.dropWhile_sublist p).subset hc)
  conv_rhs => rw [heq, List.dropWhile_append]
  split
  · next hnil =>
    rw [List.isEmpty_iff.mp hnil, ← List.nil_append (bs.dropWhile p),
      trimEnd_append_blanks hdropped]
  · rw [trimEnd_append_blanks hbs]

theorem trim_trimEnd (cs : List Char) : trim (trimEnd cs) = trim cs :=
  trimEnd_dropWhile_trimEnd isBlank cs

theorem exists_append_trim (cs : List Char) :
    ∃ before after, (∀ c ∈ before, isBlank c) ∧ (∀ c ∈ after, isBlank c) ∧
      cs = before ++ (trim cs ++ after) := by
  obtain ⟨after, hafter, heq⟩ := exists_trimEnd_append (trimStart cs)
  refine ⟨cs.takeWhile isBlank, after, List.all_eq_true.mp List.all_takeWhile, hafter, ?_⟩
  unfold trim
  rw [← heq, trimStart, List.takeWhile_append_dropWhile]

theorem trim_append {before w after : List Char} (hbefore : ∀ c ∈ before, isBlank c)
    (hw : IsWord w) (hafter : ∀ c ∈ after, isBlank c) : trim (before ++ (w ++ after)) = w := by
  have hstart := trimStart_append hw []
  have hword := trim_of_words_eq_singleton (words_of_isWord hw)
  rw [List.append_nil] at hstart
  rw [trim, hstart] at hword
  unfold trim trimStart
  rw [List.dropWhile_append_of_pos hbefore]
  show trimEnd (trimStart (w ++ after)) = w
  rw [trimStart_append hw, trimEnd_append_blanks hafter, hword]

end Breadboard.Text
