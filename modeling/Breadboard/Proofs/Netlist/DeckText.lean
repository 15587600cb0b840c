import Breadboard.Netlist.Deck

/-!
# The text of a deck

A deck ends with its control block and one end line. When it has a node besides ground, the block
asks for the time and the voltages of all such nodes.
-/

namespace Breadboard.Deck

open Text

/-- A text whose last character ends no end line is left as it is. -/
theorem dropEnds_cons {c : Char} {cs : List Char} (hb : isBlank c = false)
    (hd : foldsTo 'd' c = false) : dropEnds (c :: cs) = c :: cs := by
  have hdrop : (c :: cs).dropWhile isBlank = c :: cs := by
    rw [List.dropWhile_cons_of_neg (by simp [hb])]
  unfold dropEnds
  split
  · next d n e dot rest heq =>
    rw [hdrop] at heq
    obtain ⟨rfl, rfl⟩ := List.cons.inj heq
    simp [hd]
  · exact hdrop

theorem dropWhile_append_cons {α : Type} {p : α → Bool} {a : α} (ha : p a = false) (l m : List α) :
    (l ++ a :: m).dropWhile p = l.dropWhile p ++ a :: m := by
  induction l with
  | nil => simp [ha]
  | cons b l ih =>
    rw [List.cons_append, List.dropWhile_cons, List.dropWhile_cons]
    split
    · exact ih
    · rfl

theorem trimEnd_concat {c : Char} (hb : isBlank c = false) (cs : List Char) :
    trimEnd (cs ++ [c]) = cs ++ [c] := by
  unfold trimEnd
  rw [List.reverse_append, List.reverse_singleton, List.singleton_append,
    List.dropWhile_cons_of_neg (by simp [hb]), List.reverse_cons, List.reverse_reverse]

/-- What starts with a character other than a newline and does not end like an end line stays at
the end of a text. -/
theorem suffix_body {first last : Char} {tail : List Char} (before : List Char)
    (hf : first ≠ '\n') (hl : (first :: tail).getLast? = some last) (hb : isBlank last = false)
    (hd : foldsTo 'd' last = false) : first :: tail <:+ body (before ++ first :: tail) := by
  obtain ⟨middle, hmiddle⟩ := List.getLast?_eq_some_iff.mp hl
  have hfirst : (first == '\n') = false := by simpa using hf
  have hkept : (dropEnds ('\n' :: (before ++ first :: tail)).reverse).reverse =
      '\n' :: before ++ first :: tail := by
    rw [hmiddle, ← List.append_assoc, ← List.cons_append, List.reverse_append,
      List.reverse_singleton, List.singleton_append, dropEnds_cons hb hd, List.reverse_cons,
      List.reverse_reverse]
    simp
  unfold body
  rw [hkept, dropWhile_append_cons (p := (· == '\n')) hfirst, hmiddle, ← List.append_assoc,
    trimEnd_concat hb, List.append_assoc]
  exact List.suffix_append _ _

theorem lines_eq (s : Settings) (deviceLines : List String) {m : NodeMap} (h : vectors m ≠ []) :
    ∃ l, l ≠ [] ∧ lines s deviceLines m =
      l ++ [transientCommand s, "print time " ++ " ".intercalate (vectors m), ".endc"] := by
  refine ⟨[s.title, ""] ++ deviceLines
    ++ ["", "* --- Device models ---"] ++ DeviceModel.library.map (·.2)
    ++ ["", "* Solver options for convergence stability"] ++ solverOptions
    ++ ["", "* Analysis", ".control", "set filetype=ascii", "op", "print all"], by simp, ?_⟩
  have hne : (vectors m).isEmpty = false := by simpa using h
  unfold lines controlBlock
  rw [hne, if_neg Bool.false_ne_true]
  simp only [List.append_assoc, List.cons_append, List.nil_append]

/-- The end of the control block of a deck that prints vectors. -/
def printClause (m : NodeMap) : String :=
  "\nprint time " ++ " ".intercalate (vectors m) ++ "\n.endc"

theorem exists_transientCommand_eq (s : Settings) :
    ∃ rest, (transientCommand s).toList = 't' :: rest := by
  have hcommand : transientCommand s = "tran " ++ s.tranStep ++ " " ++ s.tranStop ++
      if s.useInitialConditions then " uic" else "" := rfl
  rw [hcommand, String.append_assoc, String.append_assoc, String.append_assoc, String.toList_append]
  exact ⟨_, rfl⟩

theorem printClause_suffix {components : List Component} {s : Settings} {deck : Deck}
    (h : ofComponents components s = .ok deck) (hne : deck.nodeMap.indices ≠ []) :
    (printClause deck.nodeMap ++ "\n.end\n").toList <:+ deck.text.toList := by
  unfold ofComponents at h
  split at h
  · cases h
  · next a deviceLines _ =>
    cases h
    generalize a.nodes.toNodeMap = m at hne ⊢
    obtain ⟨l, hl, hlines⟩ := lines_eq s (deviceLines.map DeviceLine.text)
      (fun hnil => hne (List.map_eq_nil_iff.mp hnil) : vectors m ≠ [])
    obtain ⟨rest, hrest⟩ := exists_transientCommand_eq s
    have hjoined : "\n".intercalate (lines s (deviceLines.map DeviceLine.text) m) =
        "\n".intercalate l ++ "\n" ++ (transientCommand s ++ printClause m) := by
      rw [hlines, String.intercalate_append_of_ne_nil hl (List.cons_ne_nil _ _)]
      rw [String.intercalate_cons_cons, String.intercalate_cons_cons, String.intercalate_singleton,
        printClause, show "\nprint time " = "\n" ++ "print time " from rfl,
        show "\n.endc" = "\n" ++ ".endc" from rfl]
      simp only [String.append_assoc]
    generalize "\n".intercalate l ++ "\n" = before at hjoined
    have hlast : ('t' :: (rest ++ (printClause m).toList)).getLast? = some 'c' := by
      unfold printClause
      rw [String.toList_append, ← List.cons_append, ← List.append_assoc, List.getLast?_append]
      rfl
    have hbody := suffix_body before.toList (by decide) hlast (by decide) (by decide)
    have htext : (endOnce ("\n".intercalate (lines s (deviceLines.map DeviceLine.text) m))).toList =
        body (before.toList ++ 't' :: (rest ++ (printClause m).toList)) ++ "\n.end\n".toList := by
      rw [endOnce, String.toList_append, String.toList_ofList, hjoined, String.toList_append,
        String.toList_append, hrest, List.cons_append]
    show _ <:+ (endOnce _).toList
    rw [htext, String.toList_append]
    obtain ⟨kept, hkept⟩ := (List.suffix_append ('t' :: rest) _).trans hbody
    exact ⟨kept, by rw [← List.append_assoc, hkept]⟩

end Breadboard.Deck
