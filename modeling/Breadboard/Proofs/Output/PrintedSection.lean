import Breadboard.Proofs.Decimal.Order
import Breadboard.Proofs.Output.PrintedPoints
import Breadboard.Proofs.Text.Lines
import Mathlib.Data.List.Chain
import Mathlib.Data.List.Range

/-!
# Printed raw file sections

A section declares its variables and then prints its points. It is read as the series of the points,
in whatever order it names its variables and however it lays out its points
(`RawFile.read_of_printsSection`).
-/

namespace Breadboard.RawFile

open Text Numeral

variable {count : Nat} {value : Nat → List Char → Written} {names ls : List (List Char)}

/-! ## Sections -/

/-- Points with a value for each of these names. -/
def grid (count : Nat) (value : Nat → List Char → Written) (names : List (List Char)) :
    List (List Written) :=
  (List.range count).map fun i => names.map (value i)

/-- Lines that print a section of these variables and points, with lines that open no section before
it, and behind it lines of which the first holds no values. -/
def PrintsSection (count : Nat) (value : Nat → List Char → Written) (names ls : List (List Char)) :
    Prop :=
  ∃ before head declared marker below after,
    ls = before ++ head :: (declared ++ marker :: (below ++ after)) ∧
    (∀ line ∈ before, isMarker "variables:" line = false) ∧ Marks "variables:" head ∧
    List.Forall₂ Declares names declared ∧ Marks "values:" marker ∧
    PrintsRows (grid count value names) below ∧
    ∀ line ∈ after.head?, isValueLine line = false

theorem sections_append_of_no_marker {before : List (List Char)}
    (hb : ∀ line ∈ before, isMarker "variables:" line = false) (rest : List (List Char)) :
    sections (before ++ rest) = sections rest := by
  induction before with
  | nil => rfl
  | cons line before ih =>
    obtain ⟨hline, hbefore⟩ := List.forall_mem_cons.mp hb
    rw [List.cons_append, sections, hline, if_neg Bool.false_ne_true, ih hbefore]

theorem takeValues_append {below after : List (List Char)}
    (hb : ∀ line ∈ below, isValueLine line)
    (ha : ∀ line ∈ after.head?, isValueLine line = false) :
    takeValues (below ++ after) = (below.filter (! allBlank ·), after) := by
  have hstop : after.takeWhile isValueLine = [] ∧ after.dropWhile isValueLine = after := by
    cases after with
    | nil => exact ⟨rfl, rfl⟩
    | cons line after =>
      have hline := ha line rfl
      exact ⟨List.takeWhile_cons_of_neg (by simp [hline]),
        List.dropWhile_cons_of_neg (by simp [hline])⟩
  rw [takeValues, List.takeWhile_append_of_pos hb, List.dropWhile_append_of_pos hb, hstop.1,
    hstop.2, List.append_nil]

/-- The first section of lines that print one holds its names and the lines of its points. -/
theorem sections_of_printsSection (h : PrintsSection count value names ls) :
    ∃ below rest, sections ls = ⟨names, below.filter (! allBlank ·)⟩ :: rest ∧
      PrintsRows (grid count value names) below := by
  obtain ⟨before, head, declared, marker, below, after, rfl, hbefore, hhead, hdeclared, hmarker,
    hrows, hafter⟩ := h
  have hnames := takeNames_of_declares hdeclared hmarker (below ++ after)
  have hvalues := takeValues_append hrows.isValueLine hafter
  refine ⟨below, sections after, ?_, hrows⟩
  rw [sections_append_of_no_marker hbefore, sections, if_pos (isMarker_of_marks hhead)]
  dsimp only
  split
  · next hnil =>
    rw [hnames] at hnil
    cases hnil
  · next line tail heq =>
    rw [hnames] at heq
    cases heq
    rw [if_pos (isMarker_of_marks hmarker), hnames, hvalues]

/-! ## The series of a section -/

/-- The values of a variable, point by point. -/
def column (count : Nat) (value : Nat → List Char → Written) (name : List Char) : List Float :=
  (List.range count).map fun i => (value i name).value

/-- A series of the variables of a section: its times are the column of the time, its nodes are
those that have a name, and each has the column of its name. -/
structure SeriesOf (count : Nat) (value : Nat → List Char → Written) (names : List (List Char))
    (s : Series) : Prop where
  time : s.time = column count value "time".toList
  distinct : (Assoc.keys s.voltages).Nodup
  nodes : ∀ k, k ∈ Assoc.keys s.voltages ↔ ∃ name ∈ names, IsVoltage name k
  columns : ∀ name ∈ names, ∀ k, IsVoltage name k →
    s.voltages.lookup k = some (column count value name)
  currents : s.currents = []

/-- The rows of the points, as they are read. -/
def gridRows (count : Nat) (value : Nat → List Char → Written) (names : List (List Char)) :
    List (List Float) :=
  (List.range count).map fun i => names.map fun name => (value i name).value

theorem readRows_grid {below : List (List Char)} (hne : names ≠ [])
    (hf : ∀ i < count, ∀ name ∈ names, (value i name).value.isFinite)
    (h : PrintsRows (grid count value names) below) :
    readRows names.length none (below.filter (! allBlank ·)) =
      .ok (gridRows count value names) := by
  have hmem : ∀ row ∈ grid count value names, ∃ i < count, row = names.map (value i) := by
    intro row hrow
    obtain ⟨i, hi, rfl⟩ := List.mem_map.mp hrow
    exact ⟨i, List.mem_range.mp hi, rfl⟩
  rw [readRows_of_printsRows h (List.length_pos_iff.mpr hne)]
  · rw [grid, gridRows, List.map_map]
    refine congrArg Except.ok (List.map_congr_left fun i _ => ?_)
    rw [Function.comp_apply, List.map_map]
    rfl
  · intro row hrow
    obtain ⟨i, -, rfl⟩ := hmem row hrow
    exact List.length_map _
  · intro row hrow t ht
    obtain ⟨i, hi, rfl⟩ := hmem row hrow
    obtain ⟨name, hname, rfl⟩ := List.mem_map.mp ht
    exact hf i hi name hname

theorem map_getD_gridRows {c : Nat} {name : List Char} (hc : names[c]? = some name) :
    (gridRows count value names).map (·.getD c 0.0) = column count value name := by
  rw [gridRows, column, List.map_map]
  refine List.map_congr_left fun i _ => ?_
  rw [Function.comp_apply, List.getD_eq_getElem?_getD, List.getElem?_map, hc]
  rfl

theorem exists_findIdx?_of_mem (h : "time".toList ∈ names) :
    ∃ c, names.findIdx? (· == "time".toList) = some c ∧ names[c]? = some "time".toList := by
  have hsome : (names.findIdx? (· == "time".toList)).isSome := by
    rw [List.findIdx?_isSome, List.any_eq_true]
    exact ⟨_, h, beq_self_eq_true _⟩
  obtain ⟨c, hc⟩ := Option.isSome_iff_exists.mp hsome
  obtain ⟨hlt, heq, -⟩ := List.findIdx?_eq_some_iff_getElem.mp hc
  exact ⟨c, hc, by rw [List.getElem?_eq_getElem hlt, beq_iff_eq.mp heq]⟩

/-- Rows whose times do not run back are kept. -/
theorem keepRows_eq_self {column : Nat} {kept : List (List Float)}
    (ht : kept.IsChain fun a b => ¬ b.getD column 0.0 < a.getD column 0.0) (last : Option Float)
    (hl : ∀ t ∈ last, ∀ row ∈ kept.head?, ¬ row.getD column 0.0 < t) :
    keepRows column last kept = kept := by
  induction kept generalizing last with
  | nil => rfl
  | cons row rest ih =>
    have hlast : ¬ (last.any (row.getD column 0.0 < ·)) = true := by
      cases last with
      | none => exact Bool.false_ne_true
      | some t => simpa using hl t rfl row rfl
    unfold keepRows
    dsimp only
    rw [if_neg hlast, ih ht.tail]
    intro t htime next hnext
    obtain rfl : row.getD column 0.0 = t := Option.some.inj htime
    cases rest with
    | nil => cases hnext
    | cons later rest =>
      obtain rfl : later = next := Option.some.inj hnext
      exact List.rel_of_isChain_cons_cons ht

theorem keepRows_gridRows {c : Nat} (hc : names[c]? = some "time".toList)
    (ht : ∀ i, i + 1 < count →
      (value i "time".toList).value ≤ (value (i + 1) "time".toList).value) :
    keepRows c none (gridRows count value names) = gridRows count value names := by
  have hcell : ∀ i, (names.map fun name => (value i name).value).getD c 0.0 =
      (value i "time".toList).value := by
    intro i
    rw [List.getD_eq_getElem?_getD, List.getElem?_map, hc]
    rfl
  refine keepRows_eq_self ?_ none fun _ h => nomatch h
  rw [gridRows, List.isChain_map, List.isChain_range]
  intro i hi
  rw [hcell, hcell]
  exact not_float_lt_of_le (ht i (by omega))

theorem exists_read_of_printsSection {out : String} (hn : WellNamed names) (hpos : 0 < count)
    (hf : ∀ i < count, ∀ name ∈ names, (value i name).value.isFinite)
    (ht : ∀ i, i + 1 < count →
      (value i "time".toList).value ≤ (value (i + 1) "time".toList).value)
    (h : PrintsSection count value names (lines out)) :
    ∃ s, read out = .ok (some s) ∧ SeriesOf count value names s := by
  obtain ⟨below, rest, hsections, hrows⟩ := sections_of_printsSection h
  obtain ⟨c, hindex, hc⟩ := exists_findIdx?_of_mem hn.time
  obtain ⟨columns, hcolumns, hdistinct, hnodes, hlookup⟩ := hn.exists_nodeColumns
  have hread := readRows_grid (List.ne_nil_of_mem hn.time) hf hrows
  have hkept := keepRows_gridRows hc ht
  have hne : (gridRows count value names).isEmpty = false := by
    rw [gridRows, List.isEmpty_map, List.isEmpty_eq_false_iff]
    exact List.range_ne_nil.mpr (by omega)
  have hsection : Section.read ⟨names, below.filter (! allBlank ·)⟩ =
      .ok (some ⟨(gridRows count value names).map (·.getD c 0.0),
        columns.map fun n => (n.1, (gridRows count value names).map (·.getD n.2 0.0)), []⟩) := by
    unfold Section.read
    simp only [hindex, hcolumns, hread, hkept, hne, Bool.false_eq_true, if_false]
  have hkeys : Assoc.keys (columns.map fun n =>
      (n.1, (gridRows count value names).map (·.getD n.2 0.0))) = Assoc.keys columns := by
    rw [Assoc.keys, List.map_map]
    rfl
  rw [← hkeys] at hdistinct hnodes
  refine ⟨_, by rw [read, hsections, readSections, hsection], ?_⟩
  refine ⟨map_getD_gridRows hc, hdistinct, hnodes, fun name hname k hk => ?_, rfl⟩
  obtain ⟨i, hi⟩ := List.mem_iff_getElem?.mp hname
  refine Assoc.lookup_of_mem hdistinct (List.mem_map.mpr ?_)
  exact ⟨(k, i), Assoc.mem_of_lookup (hlookup name k i hi hk), by rw [map_getD_gridRows hi]⟩

theorem WellNamed.perm {others : List (List Char)} (h : WellNamed names) (hp : others.Perm names) :
    WellNamed others where
  small name hname := h.small name (hp.mem_iff.mp hname)
  distinct := hp.nodup_iff.mpr h.distinct
  time := hp.mem_iff.mpr h.time
  short ds hds hmem := h.short ds hds (hp.mem_iff.mp hmem)
  nodes a ha b hb := h.nodes a (hp.mem_iff.mp ha) b (hp.mem_iff.mp hb)

/-- Series of the same variables have the same vectors, in whatever order the variables stand. -/
theorem SeriesOf.lookup_eq {others : List (List Char)} {s t : Series}
    (hs : SeriesOf count value names s) (ht : SeriesOf count value others t)
    (hp : others.Perm names) (k : Int) : t.voltages.lookup k = s.voltages.lookup k := by
  by_cases hk : ∃ name ∈ names, IsVoltage name k
  · obtain ⟨name, hname, hk⟩ := hk
    rw [hs.columns name hname k hk, ht.columns name (hp.mem_iff.mpr hname) k hk]
  · have hother : ¬ ∃ name ∈ others, IsVoltage name k := by
      rintro ⟨name, hname, hname'⟩
      exact hk ⟨name, hp.mem_iff.mp hname, hname'⟩
    rw [← hs.nodes] at hk
    rw [← ht.nodes] at hother
    rw [Assoc.lookup_eq_none_iff.mpr hk, Assoc.lookup_eq_none_iff.mpr hother]

theorem mapM_readFloat_column (name : List Char) :
    (((List.range count).map (value · name)).map Written.text).mapM readFloat =
      some (column count value name) := by
  rw [mapM_eq_some_iff, List.map_map, List.map_map, column, List.map_map]
  exact List.map_congr_left fun i _ => (value i name).readFloat_text

/-- **Sections are read back.** Let finite numbers be given at each point for distinct names, a time
among them that does not run back. A section that prints them, each point on one line or on several,
is read as the series with the printed times and, for exactly the nodes that are named, the printed
values; every other way of printing the points, and every order of the names, gives the same
series. -/
theorem read_of_printsSection {out : String} (hn : WellNamed names) (hpos : 0 < count)
    (hf : ∀ i < count, ∀ name ∈ names, (value i name).value.isFinite)
    (ht : ∀ i, i + 1 < count →
      (value i "time".toList).value ≤ (value (i + 1) "time".toList).value)
    (h : PrintsSection count value names (lines out)) :
    ∃ s, read out = .ok (some s) ∧
      (((List.range count).map (value · "time".toList)).map Written.text).mapM readFloat =
        some s.time ∧
      (Assoc.keys s.voltages).Nodup ∧
      (∀ k, k ∈ Assoc.keys s.voltages ↔ ∃ name ∈ names, IsVoltage name k) ∧
      (∀ name ∈ names, ∀ k, IsVoltage name k → ∃ column, s.voltages.lookup k = some column ∧
        (((List.range count).map (value · name)).map Written.text).mapM readFloat =
          some column) ∧
      s.currents = [] ∧
      ∀ other others, others.Perm names → PrintsSection count value others (lines other) →
        ∃ t, read other = .ok (some t) ∧ t.time = s.time ∧ t.currents = s.currents ∧
          ∀ k, t.voltages.lookup k = s.voltages.lookup k := by
  obtain ⟨s, hread, hs⟩ := exists_read_of_printsSection hn hpos hf ht h
  refine ⟨s, hread, ?_, hs.distinct, hs.nodes, ?_, hs.currents, ?_⟩
  · rw [hs.time, mapM_readFloat_column]
  · exact fun name hname k hk =>
      ⟨_, hs.columns name hname k hk, mapM_readFloat_column name⟩
  · intro other others hp hother
    have hfother : ∀ i < count, ∀ name ∈ others, (value i name).value.isFinite :=
      fun i hi name hname => hf i hi name (hp.mem_iff.mp hname)
    obtain ⟨t, hreadt, hst⟩ := exists_read_of_printsSection (hn.perm hp) hpos hfother ht hother
    exact ⟨t, hreadt, hst.time.trans hs.time.symm, hst.currents.trans hs.currents.symm,
      hs.lookup_eq hst hp⟩

theorem isCount_digitChar (n : Nat) : IsCount [Nat.digitChar (n % 10)] :=
  ⟨List.cons_ne_nil _ _, List.forall_mem_singleton.mpr (Written.isDigit_digitChar_mod n)⟩

/-- A voltage, the time and a current. -/
def quantities : List (List Char) := ["v(2)".toList, "time".toList, "i(r1)".toList]

/-- The time rises from 0 to 1, the voltage from a scaled number to 5, and the current stays. -/
def points (i : Nat) (name : List Char) : Written :=
  if name = "time".toList then .oneDigit (if i = 0 then 0 else 1)
  else if name = "v(2)".toList then (if i = 0 then .scaled else .oneDigit 5)
  else .oneDigit 7

/-- A section of two points, the first over several lines. -/
def twoPoints : List (List Char) :=
  ["Plotname: transient".toList, "Variables:".toList, "\t0\tV(2)\tvoltage".toList,
    "\t1\ttime\ttime".toList, "\t2\ti(r1)\tcurrent".toList, "Values:".toList,
    "0\t-4.5E-3".toList, "\t0".toList, "\t7".toList, [], "1 5 1 7".toList, "done".toList]

theorem wellNamed_quantities : WellNamed quantities where
  small := by decide
  distinct := by decide
  time := by decide
  short ds _ hmem := by
    have hlength : ∀ name ∈ quantities, name.length ≤ maxDigits := by decide
    have hle := hlength _ hmem
    simp only [List.length_cons, List.length_append, List.length_nil] at hle
    omega
  nodes a ha b hb k hka hkb := by
    have honly : ∀ name ∈ quantities, ∀ k, IsVoltage name k → name = "v(2)".toList := by
      rintro name hname k ⟨ds, n, -, -, rfl⟩
      simpa [quantities] using hname
    rw [honly a ha k hka, honly b hb k hkb]

theorem printsSection_twoPoints : PrintsSection 2 points quantities twoPoints := by
  have hdeclared : List.Forall₂ Declares quantities ["\t0\tV(2)\tvoltage".toList,
      "\t1\ttime\ttime".toList, "\t2\ti(r1)\tcurrent".toList] :=
    .cons ⟨_, "V(2)".toList, ["voltage".toList], by decide +kernel, isCount_digitChar 0, by decide⟩
      (.cons ⟨_, "time".toList, ["time".toList], by decide +kernel, isCount_digitChar 1, by decide⟩
        (.cons ⟨_, "i(r1)".toList, ["current".toList], by decide +kernel, isCount_digitChar 2,
          by decide⟩ .nil))
  have hbelow : List.Forall₂ HoldsValue [Written.oneDigit 0, Written.oneDigit 7]
      ["\t0".toList, "\t7".toList] :=
    .cons (by unfold HoldsValue; decide +kernel) (.cons (by unfold HoldsValue; decide +kernel) .nil)
  have hrows : PrintsRows (grid 2 points quantities) ["0\t-4.5E-3".toList, "\t0".toList,
      "\t7".toList, [], "1 5 1 7".toList] := by
    have hlast : words "1 5 1 7".toList =
        ['1'] :: (quantities.map (points 1)).map Written.text := by
      decide +kernel
    exact .point Written.scaled _ (isCount_digitChar 0) (by decide +kernel) hbelow
      (.blank (by decide) (.row _ (isCount_digitChar 1) hlast .nil))
  exact ⟨["Plotname: transient".toList], _, _, "Values:".toList, _, ["done".toList], rfl,
    by decide +kernel, ⟨"Variables:".toList, by decide +kernel, by decide⟩, hdeclared,
    ⟨"Values:".toList, by decide +kernel, by decide⟩, hrows, by decide +kernel⟩

theorem read_of_printsSection_twoPoints :
    ∃ s, read (unlines twoPoints) = .ok (some s) ∧
      (((List.range 2).map (points · "time".toList)).map Written.text).mapM readFloat =
        some s.time ∧
      (Assoc.keys s.voltages).Nodup ∧
      (∀ k, k ∈ Assoc.keys s.voltages ↔ ∃ name ∈ quantities, IsVoltage name k) ∧
      (∀ name ∈ quantities, ∀ k, IsVoltage name k → ∃ column, s.voltages.lookup k = some column ∧
        (((List.range 2).map (points · name)).map Written.text).mapM readFloat = some column) ∧
      s.currents = [] ∧
      ∀ other others, others.Perm quantities → PrintsSection 2 points others (lines other) →
        ∃ t, read other = .ok (some t) ∧ t.time = s.time ∧ t.currents = s.currents ∧
          ∀ k, t.voltages.lookup k = s.voltages.lookup k := by
  have hlines : lines (unlines twoPoints) = twoPoints :=
    lines_unlines (forall_endsLine (by decide))
  refine read_of_printsSection wellNamed_quantities (by decide) (by decide +kernel) ?_
    (hlines.symm ▸ printsSection_twoPoints)
  intro i hi
  obtain rfl : i = 0 := by omega
  decide +kernel

end Breadboard.RawFile
