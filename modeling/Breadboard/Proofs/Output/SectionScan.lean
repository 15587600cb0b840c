import Breadboard.Output.RawFile
import Breadboard.Proofs.Text.Letters
import Breadboard.Proofs.Text.Trimming

/-!
# Scanning for sections

The sections of a raw file are found in one pass over its lines. The pass seeks a line that opens a
section, takes names of variables, and takes lines of values; the line that ends one of these is
looked at again by the next. Such a pass ends, since it has at most two steps for each line, and a
line that opens a section sets it back to where it starts: what stands before that line has no
bearing on what is found from there on.
-/

namespace Breadboard

open Text Numeral

namespace RawFile

/-! ## Lines that open a section -/

/-- The first of the lines opens a section. -/
def Opens (ls : List (List Char)) : Prop :=
  ∃ line rest, ls = line :: rest ∧ isMarker "variables:" line

variable {line : List Char}

theorem exists_of_isMarker (h : isMarker "variables:" line) :
    ∃ c cs, trimStart line = c :: cs ∧ c.toLower = 'v' := by
  obtain ⟨bs, -, heq⟩ := exists_trimEnd_append (trimStart line)
  have hlower : (trim line).map Char.toLower = "variables:".toList := eq_of_beq h
  obtain ⟨c, cs, htrim, hc, -⟩ := List.map_eq_cons_iff.mp hlower
  refine ⟨c, cs ++ bs, ?_, hc⟩
  rw [heq, ← trim, htrim, List.cons_append]

theorem isMarker_values_of_isMarker (h : isMarker "variables:" line) :
    isMarker "values:" line = false := by
  have hlower : lowerAscii (trim line) = "variables:".toList := eq_of_beq h
  rw [isMarker, hlower]
  decide

theorem isDecimal_of_toLower {c : Char} (h : c.toLower = 'v') : isDecimal c = false := by
  by_contra hdecimal
  rw [Bool.not_eq_false] at hdecimal
  rw [toLower_of_isDecimal hdecimal] at h
  rw [h] at hdecimal
  exact absurd hdecimal (by decide)

theorem variableName_of_isMarker (h : isMarker "variables:" line) : variableName line = none := by
  obtain ⟨c, cs, htrim, hc⟩ := exists_of_isMarker h
  have hstop : ¬ isDecimal c = true := Bool.eq_false_iff.mp (isDecimal_of_toLower hc)
  rw [variableName, htrim, digits, List.takeWhile_cons_of_neg hstop]
  rfl

theorem allBlank_of_isMarker (h : isMarker "variables:" line) : allBlank line = false := by
  obtain ⟨c, cs, htrim, -⟩ := exists_of_isMarker h
  have hhead : c ∈ (trimStart line).head? := by rw [htrim]; rfl
  have hmem : c ∈ line := (List.dropWhile_sublist isBlank).subset (by
    rw [← trimStart, htrim]
    exact List.mem_cons_self)
  rw [Bool.eq_false_iff, allBlank, ne_eq, List.all_eq_true]
  exact fun hall => Bool.eq_false_iff.mp (not_blank_of_head hhead) (hall c hmem)

theorem isValueLine_of_isMarker (h : isMarker "variables:" line) : isValueLine line = false := by
  obtain ⟨c, cs, htrim, hc⟩ := exists_of_isMarker h
  rw [isValueLine, htrim, Bool.eq_false_iff, ne_eq, List.contains_iff_mem]
  intro hmem
  have hsmall : ("0123456789+-.".toList.all fun d => d.toLower != 'v') = true := by decide
  have hne := List.all_eq_true.mp hsmall c hmem
  rw [hc] at hne
  cases hne

/-! ## What stands before a line that opens a section -/

variable {ls : List (List Char)}

/-- The sections found when these names have been taken and this is left. -/
def behindNames (names : List (List Char)) : List (List Char) → List Section
  | [] => []
  | marker :: tail =>
    if isMarker "values:" marker then
      ⟨names, (takeValues tail).1⟩ :: sections (takeValues tail).2
    else sections (marker :: tail)

theorem sections_of_isMarker (h : isMarker "variables:" line) (rest : List (List Char)) :
    sections (line :: rest) = behindNames (takeNames rest).1 (takeNames rest).2 := by
  rw [sections, if_pos h]
  generalize takeNames rest = names
  obtain ⟨names, left⟩ := names
  cases left <;> rfl

theorem sections_of_not_isMarker (h : isMarker "variables:" line = false)
    (rest : List (List Char)) : sections (line :: rest) = sections rest := by
  rw [sections, if_neg (Bool.eq_false_iff.mp h)]

theorem takeNames_append_of_opens (h : Opens ls) (before : List (List Char)) :
    takeNames (before ++ ls) = ((takeNames before).1, (takeNames before).2 ++ ls) := by
  induction before with
  | nil =>
    obtain ⟨line, rest, rfl, hmarker⟩ := h
    rw [List.nil_append]
    unfold takeNames
    rw [isMarker_values_of_isMarker hmarker, variableName_of_isMarker hmarker,
      allBlank_of_isMarker hmarker]
    rfl
  | cons line before ih =>
    rw [List.cons_append]
    unfold takeNames
    rw [ih]
    split
    · rfl
    · split
      · rfl
      · split <;> rfl

theorem takeValues_append_of_opens (h : Opens ls) (before : List (List Char)) :
    takeValues (before ++ ls) = ((takeValues before).1, (takeValues before).2 ++ ls) := by
  obtain ⟨line, rest, rfl, hmarker⟩ := h
  have hstop : ¬ isValueLine line = true := Bool.eq_false_iff.mp (isValueLine_of_isMarker hmarker)
  unfold takeValues
  induction before with
  | nil =>
    rw [List.nil_append, List.takeWhile_cons_of_neg hstop, List.dropWhile_cons_of_neg hstop]
    rfl
  | cons first before ih =>
    rw [Prod.mk.injEq] at ih ⊢
    rw [List.cons_append]
    by_cases hvalue : isValueLine first = true
    · rw [List.takeWhile_cons_of_pos hvalue, List.takeWhile_cons_of_pos hvalue,
        List.dropWhile_cons_of_pos hvalue, List.dropWhile_cons_of_pos hvalue, List.filter_cons,
        List.filter_cons, ih.1]
      exact ⟨rfl, ih.2⟩
    · rw [List.takeWhile_cons_of_neg hvalue, List.takeWhile_cons_of_neg hvalue,
        List.dropWhile_cons_of_neg hvalue, List.dropWhile_cons_of_neg hvalue, List.cons_append]
      exact ⟨rfl, rfl⟩

/-- Names that no values follow are dropped where the next section opens. -/
theorem behindNames_of_opens (h : Opens ls) (names : List (List Char)) :
    behindNames names ls = sections ls := by
  obtain ⟨line, rest, rfl, hmarker⟩ := h
  show (if isMarker "values:" line then _ else sections (line :: rest)) = _
  rw [isMarker_values_of_isMarker hmarker, if_neg Bool.false_ne_true]

theorem sections_append_of_opens (h : Opens ls) (before : List (List Char)) :
    sections (before ++ ls) = sections before ++ sections ls := by
  fun_induction sections before with
  | case1 => rfl
  | case2 line rest hmarker names hnil =>
    rw [List.cons_append, sections_of_isMarker hmarker, takeNames_append_of_opens h, hnil]
    exact behindNames_of_opens h names.1
  | case3 line rest hmarker names marker tail hnames hvalues values ih =>
    rw [List.cons_append, sections_of_isMarker hmarker, takeNames_append_of_opens h, hnames,
      List.cons_append, behindNames, if_pos hvalues, takeValues_append_of_opens h, ih,
      List.cons_append]
  | case4 line rest hmarker names marker tail hnames hvalues ih =>
    rw [List.cons_append, sections_of_isMarker hmarker, takeNames_append_of_opens h, hnames,
      List.cons_append, behindNames, if_neg hvalues]
    exact ih
  | case5 line rest hmarker ih =>
    rw [List.cons_append, sections_of_not_isMarker (Bool.eq_false_iff.mpr hmarker), ih]

/-! ## The pass -/

/-- What the pass is at: seeking a section, taking names, or taking values. -/
inductive Phase where
  | seeking
  | naming (names : List (List Char))
  | valuing (names values : List (List Char))
  deriving DecidableEq

/-- The pass over the lines: the lines that are left, what it is at, and what it has found. -/
structure Scan where
  rest : List (List Char)
  phase : Phase
  found : List Section
  deriving DecidableEq

namespace Scan

/-- The pass before its first step. -/
def start (ls : List (List Char)) : Scan := ⟨ls, .seeking, []⟩

/-- One step of the pass, which is over when it seeks a section and no line is left. A line that
neither names nor values can take is left for the search. -/
def next (s : Scan) : Option Scan :=
  match s.phase, s.rest with
  | .seeking, [] => none
  | .seeking, line :: rest =>
    if isMarker "variables:" line then some ⟨rest, .naming [], s.found⟩
    else some ⟨rest, .seeking, s.found⟩
  | .naming _, [] => some ⟨[], .seeking, s.found⟩
  | .naming names, line :: rest =>
    if isMarker "values:" line then some ⟨rest, .valuing names [], s.found⟩
    else
      match variableName line with
      | some name => some ⟨rest, .naming (names ++ [name]), s.found⟩
      | none =>
        if allBlank line then some ⟨rest, .naming names, s.found⟩
        else some ⟨line :: rest, .seeking, s.found⟩
  | .valuing names values, [] => some ⟨[], .seeking, s.found ++ [⟨names, values⟩]⟩
  | .valuing names values, line :: rest =>
    if isValueLine line then
      some ⟨rest, .valuing names (if allBlank line then values else values ++ [line]), s.found⟩
    else some ⟨line :: rest, .seeking, s.found ++ [⟨names, values⟩]⟩

/-- The pass after this many steps, or where it ended before. -/
def after : Nat → Scan → Scan
  | 0, s => s
  | n + 1, s =>
    match s.next with
    | none => s
    | some t => t.after n

/-- A bound on the steps that are left: two for each line, and one to go back to the search. -/
def remaining (s : Scan) : Nat :=
  2 * s.rest.length + if s.phase = .seeking then 0 else 1

/-- What the pass will have found when it is over. -/
def outcome (s : Scan) : List Section :=
  match s.phase with
  | .seeking => s.found ++ sections s.rest
  | .naming names =>
    s.found ++ behindNames (names ++ (takeNames s.rest).1) (takeNames s.rest).2
  | .valuing names values =>
    s.found ++ ⟨names, values ++ (takeValues s.rest).1⟩ :: sections (takeValues s.rest).2

variable {s t : Scan}

theorem next_eq_none_iff : s.next = none ↔ s.phase = .seeking ∧ s.rest = [] := by
  obtain ⟨rest, phase, found⟩ := s
  fun_cases next <;> simp_all

/-- Each step brings the end of the pass closer. -/
theorem remaining_lt_of_next (h : s.next = some t) : t.remaining < s.remaining := by
  obtain ⟨rest, phase, found⟩ := s
  revert h
  fun_cases next <;> intro h <;> cases h <;> simp_all [remaining]
  omega

/-- No step changes what the pass will have found. -/
theorem outcome_of_next (h : s.next = some t) : t.outcome = s.outcome := by
  revert h
  unfold outcome
  fun_cases next with
  | case1 => rintro ⟨⟩
  | case2 line rest hrest hphase hmarker =>
    rintro ⟨⟩
    simp only [hphase, hrest, sections_of_isMarker hmarker, List.nil_append]
  | case3 line rest hrest hphase hmarker =>
    rintro ⟨⟩
    simp only [hphase, hrest, sections_of_not_isMarker (Bool.eq_false_iff.mpr hmarker)]
  | case4 names hrest hphase =>
    rintro ⟨⟩
    simp only [hphase, hrest, sections, takeNames, behindNames]
  | case5 names line rest hrest hphase hmarker =>
    rintro ⟨⟩
    simp only [hphase, hrest, takeNames, if_pos hmarker, behindNames, List.append_nil,
      List.nil_append]
  | case6 names line rest hrest hphase hmarker name hname =>
    rintro ⟨⟩
    simp only [hphase, hrest, takeNames, if_neg hmarker, hname, List.append_assoc,
      List.singleton_append]
  | case7 names line rest hrest hphase hmarker hname hblank =>
    rintro ⟨⟩
    simp only [hphase, hrest, takeNames, if_neg hmarker, hname, if_pos hblank]
  | case8 names line rest hrest hphase hmarker hname hblank =>
    rintro ⟨⟩
    simp only [hphase, hrest, takeNames, if_neg hmarker, hname, if_neg hblank, behindNames]
  | case9 names values hrest hphase =>
    rintro ⟨⟩
    simp [hphase, hrest, takeValues, sections]
  | case10 names values line rest hrest hphase hvalue =>
    rintro ⟨⟩
    simp only [hphase, hrest, takeValues, List.takeWhile_cons_of_pos hvalue,
      List.dropWhile_cons_of_pos hvalue, List.filter_cons]
    cases allBlank line <;> simp
  | case11 names values line rest hrest hphase hvalue =>
    rintro ⟨⟩
    simp [hphase, hrest, takeValues, hvalue]

theorem found_of_next_eq_none (h : s.next = none) : s.found = s.outcome := by
  obtain ⟨hphase, hrest⟩ := next_eq_none_iff.mp h
  simp only [outcome, hphase, hrest, sections, List.append_nil]

/-- After enough steps the pass is over. -/
theorem next_after {n : Nat} (h : s.remaining ≤ n) :
    (s.after n).next = none ∧ (s.after n).found = s.outcome := by
  induction n generalizing s with
  | zero =>
    cases hnext : s.next with
    | none => exact ⟨hnext, found_of_next_eq_none hnext⟩
    | some t => exact absurd (remaining_lt_of_next hnext) (by omega)
  | succ n ih =>
    cases hnext : s.next with
    | none =>
      rw [after, hnext]
      exact ⟨hnext, found_of_next_eq_none hnext⟩
    | some t =>
      have hless := remaining_lt_of_next hnext
      rw [after, hnext, ← outcome_of_next hnext]
      exact ih (by omega)

theorem remaining_start (ls : List (List Char)) : (start ls).remaining = 2 * ls.length := rfl

theorem outcome_start (ls : List (List Char)) : (start ls).outcome = sections ls :=
  List.nil_append _

end Scan

/-- **Resynchronisation.** Whatever lines stand before a line that opens a section, a half-open
section included, the sections found are those before it and then those from it on. The pass that
finds them is over after at most two steps for each line, whatever the lines are. -/
theorem sections_resynchronise (h : Opens ls) (before : List (List Char)) :
    sections (before ++ ls) = sections before ++ sections ls ∧
      ∀ lines, ((Scan.start lines).after (2 * lines.length)).next = none ∧
        ((Scan.start lines).after (2 * lines.length)).found = sections lines := by
  refine ⟨sections_append_of_opens h before, fun lines => ?_⟩
  have hend := Scan.next_after (Scan.remaining_start lines).le
  rw [Scan.outcome_start] at hend
  exact hend

/-- The names of a second section break off at the line that opens a third. -/
theorem sections_resynchronise_half_open :
    Opens ([" VARIABLES:", "1 v(3)", "Values:", "7", "", "8", "end"].map String.toList) ∧
      sections (["Variables:", "0 time s", "values:", "0 1.0", "Variables:", "0 a v"].map
          String.toList ++
        [" VARIABLES:", "1 v(3)", "Values:", "7", "", "8", "end"].map String.toList) =
      [⟨["time".toList], ["0 1.0".toList]⟩, ⟨["v(3)".toList], ["7".toList, "8".toList]⟩] := by
  have hopens : Opens
      ([" VARIABLES:", "1 v(3)", "Values:", "7", "", "8", "end"].map String.toList) :=
    ⟨_, _, rfl, by decide⟩
  obtain ⟨happend, hpass⟩ := sections_resynchronise hopens
    (["Variables:", "0 time s", "values:", "0 1.0", "Variables:", "0 a v"].map String.toList)
  refine ⟨hopens, ?_⟩
  rw [happend, ← (hpass _).2, ← (hpass _).2]
  decide

end RawFile

end Breadboard
