import Breadboard.Proofs.Netlist.DeckLayout
import Breadboard.Proofs.Text.Letters
import Breadboard.Proofs.Text.Trimming
import Mathlib.Data.List.DropRight

/-!
# The end of a text

Closing a text takes the blank lines and end lines off its end and the empty lines off its start,
and puts one end line behind what is left. What is left is found line by line (`Deck.body_eq`), so
it ends in no end line, further end lines change nothing, and closing twice is closing once.
-/

namespace Breadboard

open Text

namespace Deck

/-! ## End lines -/

/-- An end line: `.end` in any case, with any blanks around it. -/
def isEndLine (line : List Char) : Bool := lowerAscii (trim line) == ".end".toList

/-- The lines that are taken off the end of a text. -/
def isClosing (line : List Char) : Bool := allBlank line || isEndLine line

/-- The lines of a text without the blank lines and end lines at its end and without the empty lines
at its start. -/
def innerLines (lines : List (List Char)) : List (List Char) :=
  (lines.rdropWhile isClosing).dropWhile List.isEmpty

variable {l : List Char}

theorem isEndLine_trimEnd (l : List Char) : isEndLine (trimEnd l) = isEndLine l := by
  unfold isEndLine
  rw [trim_trimEnd]

theorem isClosing_trimEnd (l : List Char) : isClosing (trimEnd l) = isClosing l := by
  have hblank : allBlank (trimEnd l) = allBlank l := by
    rw [Bool.eq_iff_iff, ← trimEnd_eq_nil_iff, ← trimEnd_eq_nil_iff, trimEnd_trimEnd]
  rw [isClosing, hblank, isEndLine_trimEnd, isClosing]

/-- The letters of an end line. -/
structure IsEnd (e n d : Char) : Prop where
  first : e.toLower = 'e'
  second : n.toLower = 'n'
  third : d.toLower = 'd'

theorem IsEnd.isWord {e n d : Char} (h : IsEnd e n d) : IsWord ['.', e, n, d] := by
  refine ⟨List.cons_ne_nil _ _, ?_⟩
  have hfirst := isBlank_toLower e
  have hsecond := isBlank_toLower n
  have hthird := isBlank_toLower d
  rw [h.first] at hfirst
  rw [h.second] at hsecond
  rw [h.third] at hthird
  simp only [List.forall_mem_cons, ← hfirst, ← hsecond, ← hthird]
  exact ⟨rfl, rfl, rfl, rfl, List.forall_mem_nil _⟩

theorem isEndLine_iff : isEndLine l = true ↔ ∃ before e n d after, (∀ c ∈ before, isBlank c) ∧
    (∀ c ∈ after, isBlank c) ∧ IsEnd e n d ∧ l = before ++ (['.', e, n, d] ++ after) := by
  unfold isEndLine
  rw [beq_iff_eq]
  constructor
  · intro h
    obtain ⟨before, after, hbefore, hafter, heq⟩ := exists_append_trim l
    obtain ⟨dot, tail, htrim, hdot, htail⟩ := List.map_eq_cons_iff.mp h
    obtain ⟨e, tail, rfl, he, htail⟩ := List.map_eq_cons_iff.mp htail
    obtain ⟨n, tail, rfl, hn, htail⟩ := List.map_eq_cons_iff.mp htail
    obtain ⟨d, tail, rfl, hd, htail⟩ := List.map_eq_cons_iff.mp htail
    obtain rfl := List.map_eq_nil_iff.mp htail
    obtain rfl : dot = '.' := eq_of_toLower_eq (by decide) hdot
    exact ⟨before, e, n, d, after, hbefore, hafter, ⟨he, hn, hd⟩, by rw [heq, htrim]⟩
  · rintro ⟨before, e, n, d, after, hbefore, hafter, hend, rfl⟩
    rw [trim_append hbefore hend.isWord hafter]
    simp [lowerAscii, hend.first, hend.second, hend.third]

/-! ## Taking end lines off -/

theorem dropEnds_append_blanks {bs : List Char} (h : ∀ c ∈ bs, isBlank c) (cs : List Char) :
    dropEnds (bs ++ cs) = dropEnds cs := by
  unfold dropEnds
  rw [List.dropWhile_append_of_pos h]

/-- What is taken off the end of a text: an end line that starts on a new line. -/
theorem dropEnds_cases (cs : List Char) :
    (∃ e n d rest, IsEnd e n d ∧ cs.dropWhile isBlank = d :: n :: e :: '.' :: rest ∧
        '\n' ∈ rest.takeWhile isBlank ∧ dropEnds cs = dropEnds rest) ∨
      ((¬ ∃ e n d rest, IsEnd e n d ∧ cs.dropWhile isBlank = d :: n :: e :: '.' :: rest ∧
        '\n' ∈ rest.takeWhile isBlank) ∧ dropEnds cs = cs.dropWhile isBlank) := by
  have hfolds {p c : Char} (hp : p ∈ ['d', 'n', 'e']) : foldsTo p c = true ↔ c.toLower = p := by
    simp only [List.mem_cons, List.not_mem_nil, or_false] at hp
    rcases hp with rfl | rfl | rfl <;> simp [foldsTo]
  have hend (d n e dot : Char) (rest : List Char) :
      (foldsTo 'd' d && foldsTo 'n' n && foldsTo 'e' e && dot == '.'
          && (rest.takeWhile isBlank).contains '\n') = true ↔
        IsEnd e n d ∧ dot = '.' ∧ '\n' ∈ rest.takeWhile isBlank := by
    simp only [Bool.and_eq_true, hfolds, List.mem_cons, true_or, or_true, beq_iff_eq,
      List.contains_iff_mem]
    constructor
    · rintro ⟨⟨⟨⟨hd, hn⟩, he⟩, hdot⟩, hline⟩
      exact ⟨⟨he, hn, hd⟩, hdot, hline⟩
    · rintro ⟨⟨he, hn, hd⟩, hdot, hline⟩
      exact ⟨⟨⟨⟨hd, hn⟩, he⟩, hdot⟩, hline⟩
  generalize hresult : dropEnds cs = result
  unfold dropEnds at hresult
  split at hresult
  · next d n e dot rest heq =>
    split at hresult
    · next h =>
      obtain ⟨hletters, rfl, hline⟩ := (hend d n e dot rest).mp h
      exact .inl ⟨e, n, d, rest, hletters, heq, hline, hresult.symm⟩
    · next h =>
      refine .inr ⟨?_, by rw [← hresult, heq]⟩
      rintro ⟨e', n', d', rest', hletters, heq', hline⟩
      rw [heq] at heq'
      obtain ⟨rfl, rfl, rfl, rfl, rfl⟩ : d = d' ∧ n = n' ∧ e = e' ∧ dot = '.' ∧ rest = rest' := by
        simpa using heq'
      exact h ((hend d n e '.' rest).mpr ⟨hletters, rfl, hline⟩)
  · next hne =>
    refine .inr ⟨?_, hresult.symm⟩
    rintro ⟨e, n, d, rest, -, heq, -⟩
    exact hne d n e '.' rest heq

theorem dropEnds_of_isClosing (h : isClosing l = true) (before : List Char) :
    dropEnds (before ++ '\n' :: l).reverse = dropEnds before.reverse := by
  have hnewline : isBlank '\n' = true := by decide
  rcases Bool.or_eq_true_iff.mp h with hblank | hend
  · have hblank : ∀ c ∈ ('\n' :: l).reverse, isBlank c := fun c hc =>
      (List.forall_mem_cons (p := (isBlank · = true))).mpr ⟨hnewline, List.all_eq_true.mp hblank⟩ c
        (List.mem_reverse.mp hc)
    rw [List.reverse_append, dropEnds_append_blanks hblank]
  · obtain ⟨lead, e, n, d, after, hlead, hafter, hletters, rfl⟩ := isEndLine_iff.mp hend
    have hd : isBlank d = false := hletters.isWord.2 d (by simp)
    have hlead : ∀ c ∈ lead.reverse ++ ['\n'], isBlank c := List.forall_mem_append.mpr
      ⟨fun c hc => hlead c (List.mem_reverse.mp hc), List.forall_mem_singleton.mpr hnewline⟩
    have hreverse : (before ++ '\n' :: (lead ++ (['.', e, n, d] ++ after))).reverse =
        after.reverse ++ d :: n :: e :: '.' :: (lead.reverse ++ ['\n'] ++ before.reverse) := by
      simp
    have hline : '\n' ∈ (lead.reverse ++ ['\n'] ++ before.reverse).takeWhile isBlank := by
      rw [List.takeWhile_append_of_pos hlead]
      simp
    have hkept : (d :: n :: e :: '.' :: (lead.reverse ++ ['\n'] ++ before.reverse)).dropWhile
        isBlank = d :: n :: e :: '.' :: (lead.reverse ++ ['\n'] ++ before.reverse) :=
      List.dropWhile_cons_of_neg (by simp [hd])
    rw [hreverse, dropEnds_append_blanks (by simpa using hafter)]
    rcases dropEnds_cases (d :: n :: e :: '.' :: (lead.reverse ++ ['\n'] ++ before.reverse)) with
      ⟨e', n', d', rest, -, heq, -, hdrop⟩ | ⟨hnone, -⟩
    · rw [hkept] at heq
      have hrest : lead.reverse ++ ['\n'] ++ before.reverse = rest := by
        simpa using (List.cons.inj (List.cons.inj (List.cons.inj (List.cons.inj heq).2).2).2).2
      rw [hdrop, ← hrest, dropEnds_append_blanks hlead]
    · exact absurd ⟨e, n, d, _, hletters, hkept, hline⟩ hnone

theorem all_of_mem_takeWhile {α : Type} {p : α → Bool} {a : α} {l m : List α} (ha : a ∉ l)
    (h : a ∈ (l ++ m).takeWhile p) : ∀ b ∈ l, p b = true := by
  rw [List.takeWhile_append] at h
  split at h
  · next hlength =>
    have hall := List.IsPrefix.eq_of_length (List.takeWhile_prefix p) hlength
    rw [← hall]
    exact List.all_eq_true.mp List.all_takeWhile
  · exact absurd ((List.takeWhile_prefix p).subset h) ha

/-- Of a line that is neither blank nor an end line only the blanks at its end are taken off. -/
theorem dropEnds_of_not_isClosing (hl : '\n' ∉ l) (h : isClosing l = false) (before : List Char) :
    dropEnds (before ++ '\n' :: l).reverse = (trimEnd (before ++ '\n' :: l)).reverse := by
  obtain ⟨hblank, hend⟩ := Bool.or_eq_false_iff.mp h
  have hkept : trimEnd l ≠ [] := by
    rw [ne_eq, trimEnd_eq_nil_iff, hblank]
    exact Bool.false_ne_true
  have htrim : trimEnd (before ++ '\n' :: l) = before ++ '\n' :: trimEnd l := by
    rw [List.append_cons, trimEnd_append hkept, ← List.append_cons]
  rcases dropEnds_cases (before ++ '\n' :: l).reverse with
    ⟨e, n, d, rest, hletters, heq, hline, -⟩ | ⟨-, hdrop⟩
  · exfalso
    have heq : before ++ '\n' :: trimEnd l = rest.reverse ++ ['.', e, n, d] := by
      rw [← htrim, trimEnd, heq]
      simp
    -- The four letters stand in the line itself, for a newline is none of them.
    obtain ⟨lead, hlead, hrest⟩ : ∃ lead, trimEnd l = lead ++ ['.', e, n, d] ∧
        rest.reverse = before ++ '\n' :: lead := by
      rcases List.append_eq_append_iff.mp heq with ⟨tail, hrest, htail⟩ | ⟨tail, -, htail⟩
      · cases tail with
        | nil => exact absurd (List.cons.inj htail).1 (by decide)
        | cons c lead =>
          obtain ⟨rfl, hlead⟩ := List.cons.inj htail
          exact ⟨lead, hlead, hrest⟩
      · have hmem : '\n' ∈ ['.', e, n, d] := by
          rw [htail]
          simp
        exact absurd (hletters.isWord.2 '\n' hmem) (by decide)
    have hlead' : '\n' ∉ lead.reverse := by
      intro hmem
      have hmem : '\n' ∈ trimEnd l := by
        rw [hlead]
        exact List.mem_append_left _ (List.mem_reverse.mp hmem)
      obtain ⟨bs, -, hbs⟩ := exists_trimEnd_append l
      exact hl (hbs ▸ List.mem_append_left bs hmem)
    have hrest : rest = lead.reverse ++ '\n' :: before.reverse := by
      rw [← List.reverse_reverse rest, hrest]
      simp
    rw [hrest] at hline
    have hblanks := all_of_mem_takeWhile hlead' hline
    have hclosed : isEndLine (trimEnd l) = true := isEndLine_iff.mpr
      ⟨lead, e, n, d, [], fun c hc => hblanks c (List.mem_reverse.mpr hc), by simp, hletters,
        by rw [hlead, List.append_nil]⟩
    rw [isEndLine_trimEnd, hend] at hclosed
    cases hclosed
  · rw [hdrop, trimEnd, List.reverse_reverse]

/-- Closing lines are taken off the end of a text line by line. -/
theorem dropEnds_lines {ls : List (List Char)} (h : ∀ l ∈ ls, '\n' ∉ l) :
    (dropEnds (ls.flatMap ('\n' :: ·)).reverse).reverse =
      trimEnd ((ls.rdropWhile isClosing).flatMap ('\n' :: ·)) := by
  induction ls using List.reverseRecOn with
  | nil =>
    rw [List.rdropWhile_nil]
    decide +kernel
  | append_singleton ls l ih =>
    obtain ⟨hls, hl⟩ := List.forall_mem_append.mp h
    have hl := List.forall_mem_singleton.mp hl
    rw [List.flatMap_append, List.flatMap_singleton]
    cases hclosing : isClosing l with
    | true =>
      rw [dropEnds_of_isClosing hclosing, ih hls, List.rdropWhile_concat_pos _ _ _ hclosing]
    | false =>
      rw [dropEnds_of_not_isClosing hl hclosing, List.reverse_reverse,
        List.rdropWhile_concat_neg _ _ _ (by simp [hclosing]), List.flatMap_append,
        List.flatMap_singleton]

theorem flatMap_newline {ls : List (List Char)} (h : ls ≠ []) :
    ls.flatMap ('\n' :: ·) = '\n' :: ['\n'].intercalate ls := by
  induction ls with
  | nil => exact absurd rfl h
  | cons l ls ih =>
    cases ls with
    | nil => simp
    | cons m ls =>
      rw [List.flatMap_cons, ih (List.cons_ne_nil m ls), List.intercalate_cons_cons]
      simp

theorem newline_not_mem_splitOn (cs : List Char) : ∀ l ∈ cs.splitOn '\n', '\n' ∉ l := by
  intro l hl hmem
  rw [List.splitOn_eq_splitOnP] at hl
  exact absurd (eq_false_of_mem_splitOnP hl '\n' hmem) (by decide)

theorem body_eq (cs : List Char) :
    body cs = trimEnd (['\n'].intercalate (innerLines (cs.splitOn '\n'))) := by
  have hlines : '\n' :: cs = (cs.splitOn '\n').flatMap ('\n' :: ·) := by
    rw [flatMap_newline (List.splitOn_ne_nil '\n' cs), List.intercalate_splitOn]
  have hnewline := newline_not_mem_splitOn cs
  unfold body innerLines
  rw [hlines, dropEnds_lines hnewline, trimEnd_dropWhile_trimEnd]
  have hkept : ∀ l ∈ (cs.splitOn '\n').rdropWhile isClosing, '\n' ∉ l := fun l hl =>
    hnewline l ((List.rdropWhile_prefix _ _).subset hl)
  generalize (cs.splitOn '\n').rdropWhile isClosing = ls at hkept
  by_cases hls : ls = []
  · rw [hls]
    rfl
  · rw [flatMap_newline hls, List.dropWhile_cons_of_pos (by rfl), dropWhile_intercalate hkept]

/-! ## What is left -/

theorem intercalate_concat (ls : List (List Char)) (l : List Char) :
    ['\n'].intercalate (ls ++ [l]) = ['\n'].intercalate (ls ++ [[]]) ++ l := by
  induction ls with
  | nil => simp
  | cons k ls ih =>
    have hne (m : List Char) : ls ++ [m] ≠ [] := by simp
    rw [List.cons_append, List.cons_append, List.intercalate_cons_of_ne_nil (hne l),
      List.intercalate_cons_of_ne_nil (hne []), ih]
    simp only [List.append_assoc]

/-- What is left is nothing, or lines that closing keeps, of which the last is no end line. -/
theorem body_cases (cs : List Char) :
    body cs = [] ∨ ∃ before last, body cs = ['\n'].intercalate (before ++ [last]) ∧
      (∀ l ∈ before ++ [last], '\n' ∉ l) ∧ innerLines (before ++ [last]) = before ++ [last] ∧
      isEndLine last = false ∧ trimEnd last = last ∧ last ≠ [] := by
  have hlines : ∀ l ∈ (cs.splitOn '\n').rdropWhile isClosing, '\n' ∉ l := fun l hl =>
    newline_not_mem_splitOn cs l ((List.rdropWhile_prefix _ _).subset hl)
  have hlast := List.rdropWhile_last_not isClosing (cs.splitOn '\n')
  rw [body_eq, innerLines]
  generalize (cs.splitOn '\n').rdropWhile isClosing = ls at hlines hlast
  rcases List.eq_nil_or_concat ls with rfl | ⟨before, last, rfl⟩
  · exact .inl rfl
  · rw [List.concat_eq_append] at hlines ⊢
    have hclosing : isClosing last = false := by simpa using hlast
    have hkept : trimEnd last ≠ [] := by
      rw [ne_eq, trimEnd_eq_nil_iff, (Bool.or_eq_false_iff.mp hclosing).1]
      exact Bool.false_ne_true
    have hinner (k : List Char) (hk : k ≠ []) : (before ++ [k]).dropWhile List.isEmpty =
        before.dropWhile List.isEmpty ++ [k] :=
      dropWhile_append_cons (List.isEmpty_eq_false_iff.mpr hk) before []
    have hne : last ≠ [] := fun hnil => hkept (by rw [hnil]; rfl)
    refine .inr ⟨before.dropWhile List.isEmpty, trimEnd last, ?_, ?_, ?_, ?_,
      trimEnd_trimEnd last, hkept⟩
    · rw [hinner last hne, intercalate_concat, trimEnd_append hkept, ← intercalate_concat]
    · obtain ⟨hbefore, hmem⟩ := List.forall_mem_append.mp hlines
      refine List.forall_mem_append.mpr
        ⟨fun l hl => hbefore l ((List.dropWhile_sublist _).subset hl), ?_⟩
      rw [List.forall_mem_singleton] at hmem ⊢
      obtain ⟨bs, -, hbs⟩ := exists_trimEnd_append last
      exact fun hnewline => hmem (hbs ▸ List.mem_append_left bs hnewline)
    · have hstays : ¬ isClosing (trimEnd last) = true := by
        rw [isClosing_trimEnd, hclosing]
        decide
      rw [innerLines, List.rdropWhile_concat_neg _ _ _ hstays,
        dropWhile_append_cons (List.isEmpty_eq_false_iff.mpr hkept), List.dropWhile_idempotent]
    · rw [isEndLine_trimEnd]
      exact (Bool.or_eq_false_iff.mp hclosing).2

theorem body_body (cs : List Char) : body (body cs) = body cs := by
  rcases body_cases cs with hnil | ⟨before, last, hbody, hlines, hinner, -, htrim, hlast⟩
  · rw [hnil]
    decide +kernel
  · have hne : before ++ [last] ≠ [] := by simp
    rw [hbody, body_eq, List.splitOn_intercalate '\n' hlines hne, hinner, intercalate_concat,
      trimEnd_append (by rwa [htrim]), htrim]

theorem body_append {ls : List (List Char)} (h : ∀ l ∈ ls, isClosing l = true) (cs : List Char) :
    body (cs ++ ls.flatMap ('\n' :: ·)) = body cs := by
  have hdrop : dropEnds ('\n' :: (cs ++ ls.flatMap ('\n' :: ·))).reverse =
      dropEnds ('\n' :: cs).reverse := by
    rw [← List.cons_append]
    induction ls using List.reverseRecOn with
    | nil => rw [List.flatMap_nil, List.append_nil]
    | append_singleton ls l ih =>
      rw [List.flatMap_append, List.flatMap_singleton, ← List.append_assoc,
        dropEnds_of_isClosing (h l (by simp)),
        ih fun k hk => h k (List.mem_append_left [l] hk)]
  unfold body
  rw [hdrop]

theorem toList_endOnce (t : String) : (endOnce t).toList = body t.toList ++ "\n.end\n".toList := by
  rw [endOnce, String.toList_append, String.toList_ofList]

theorem pieces_endOnce (t : String) :
    pieces (endOnce t) = ((body t.toList).splitOn '\n').map String.ofList ++ [".end", ""] := by
  have hnewline : "\n.end\n".toList = '\n' :: (".end".toList ++ '\n' :: []) := by decide
  unfold pieces
  rw [toList_endOnce, hnewline, List.splitOn_append_cons_self, List.splitOn_append_cons_self,
    List.map_append]
  rfl

/-- A text that ends in no end line keeps its pieces, without the empty ones it would start with. -/
theorem pieces_endOnce_of_getLast? {t : String} {last : Char} (hl : t.toList.getLast? = some last)
    (hb : isBlank last = false) (hd : foldsTo 'd' last = false) :
    pieces (endOnce t) = (pieces t).dropWhile (· == "") ++ [".end", ""] := by
  have hnewline := newline_not_mem_splitOn t.toList
  have hbody : body t.toList =
      ['\n'].intercalate ((t.toList.splitOn '\n').dropWhile List.isEmpty) := by
    rw [body_eq_dropWhile hl hb hd, ← dropWhile_intercalate hnewline, List.intercalate_splitOn]
  have hkept : (t.toList.splitOn '\n').dropWhile List.isEmpty ≠ [] := by
    intro hnil
    rw [body_eq_dropWhile hl hb hd, hnil] at hbody
    have hall := List.dropWhile_eq_nil_iff.mp hbody last (List.mem_of_getLast? hl)
    rw [beq_iff_eq.mp hall] at hb
    exact absurd hb (by decide)
  have hempty : (fun l : String => l == "") ∘ String.ofList = List.isEmpty := by
    funext cs
    rw [Function.comp_apply, Bool.eq_iff_iff, beq_iff_eq, List.isEmpty_iff,
      ← String.toList_eq_nil_iff, String.toList_ofList]
  rw [pieces_endOnce, hbody, List.splitOn_intercalate '\n'
    (fun l hmem => hnewline l ((List.dropWhile_sublist _).subset hmem)) hkept, pieces,
    List.dropWhile_map, hempty]

/-- **One end line.** A closed text is the inner lines of the text, trimmed at their end, and one
end line. The line before that is no end line, closing a closed text changes nothing, and neither do
further end lines behind the text. -/
theorem endOnce_normalises (t : String) :
    endOnce t = String.ofList (trimEnd (['\n'].intercalate
        (innerLines (t.toList.splitOn '\n')))) ++ "\n.end\n" ∧
      (∃ before last, pieces (endOnce t) = before ++ [last, ".end", ""] ∧
        isEndLine last.toList = false) ∧
      endOnce (endOnce t) = endOnce t ∧
      ∀ ls : List (List Char), (∀ l ∈ ls, isEndLine l = true) →
        endOnce (t ++ String.ofList (ls.flatMap ('\n' :: ·))) = endOnce t := by
  refine ⟨by rw [endOnce, body_eq], ?_, ?_, fun ls hls => ?_⟩
  · have hpieces := pieces_endOnce t
    rcases body_cases t.toList with hnil | ⟨before, last, hbody, hlines, -, hlast, -⟩
    · refine ⟨[], "", ?_, by decide⟩
      rw [hpieces, hnil]
      rfl
    · refine ⟨before.map String.ofList, String.ofList last, ?_, by rwa [String.toList_ofList]⟩
      rw [hpieces, hbody, List.splitOn_intercalate '\n' hlines (by simp), List.map_append,
        List.append_assoc]
      rfl
  · have hclosing : ∀ l ∈ [".end\n".toList], isClosing l = true := by decide
    have happend := body_append hclosing (body t.toList)
    rw [List.flatMap_singleton, body_body] at happend
    show String.ofList (body (endOnce t).toList) ++ _ = _
    rw [toList_endOnce]
    exact congrArg (String.ofList · ++ "\n.end\n") happend
  · have hclosing : ∀ l ∈ ls, isClosing l = true := fun l hl => by
      rw [isClosing, hls l hl, Bool.or_true]
    unfold endOnce
    rw [String.toList_append, String.toList_ofList, body_append hclosing]

theorem endOnce_normalises_messy :
    (∀ l ∈ [" .End\t".toList, ".END\r\n ".toList], isEndLine l = true) ∧
      endOnce ("\n\n.end of\n .END\n\n.end" ++ String.ofList
        ([" .End\t".toList, ".END\r\n ".toList].flatMap ('\n' :: ·))) = ".end of\n.end\n" := by
  have hends : ∀ l ∈ [" .End\t".toList, ".END\r\n ".toList], isEndLine l = true := by decide
  obtain ⟨hkept, -, -, hfurther⟩ := endOnce_normalises "\n\n.end of\n .END\n\n.end"
  refine ⟨hends, ?_⟩
  rw [hfurther _ hends, hkept]
  decide +kernel

end Deck

end Breadboard
