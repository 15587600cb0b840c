import Breadboard.Proofs.Output.PrintedTable
import Breadboard.Proofs.Text.Lines

/-!
# Tables for groups of columns

Many columns are printed as several tables, one behind the other: each has the columns of one group,
and all have the same rows with the same times. Read back, the rows of one index are joined, so the
tables give one series over the columns of all groups (`Table.readWithDropped_of_printsTables`).
-/

namespace Breadboard.Table

open Text Numeral

variable {count : Nat} {time : Nat → Scientific} {value : Nat → Int → Scientific}
  {columns : List Int} {groups : List (List Int)} {ls : List (List Char)} {r : Reading}

/-- Tables one behind the other, one for each group of columns, with the same numbered rows. -/
inductive Tables (count : Nat) (time : Nat → Scientific) (value : Nat → Int → Scientific) :
    List (List Int) → List (List Char) → Prop
  | nil : Tables count time value [] []
  | table {columns groups head below rest} (hh : Heads (columns.map vectorName) head)
      (hb : Body (columns.map vectorName) (grid count columns time value) below)
      (h : Tables count time value groups rest) :
      Tables count time value (columns :: groups) (head :: (below ++ rest))

/-- Lines that print the tables of these groups, with any lines that are no headers before them. -/
def PrintsTables (count : Nat) (time : Nat → Scientific) (value : Nat → Int → Scientific)
    (groups : List (List Int)) (ls : List (List Char)) : Prop :=
  ∃ before tables, ls = before ++ tables ∧ (∀ line ∈ before, headerColumns line = none) ∧
    Tables count time value groups tables

theorem Tables.printsTables (h : Tables count time value groups ls) :
    PrintsTables count time value groups ls :=
  ⟨[], ls, rfl, by simp, h⟩

theorem PrintsTable.printsTables
    (h : PrintsTable (columns.map vectorName) (grid count columns time value) ls) :
    PrintsTables count time value [columns] ls := by
  obtain ⟨before, head, below, rfl, hbefore, hhead, hbody⟩ := h
  refine ⟨before, head :: below, rfl, hbefore, ?_⟩
  rw [← List.append_nil below]
  exact .table hhead hbody .nil

/-! ## Reading the tables -/

theorem run_append (r : Reading) (before after : List (List Char)) :
    r.run (before ++ after) = (r.run before).bind fun q => q.run after := by
  induction before generalizing r with
  | nil => rfl
  | cons line before ih =>
    rw [List.cons_append, Reading.run, Reading.run]
    cases r.step line with
    | error e => rfl
    | ok q => exact ih q

/-- The header of a further group adds its columns to the nodes. -/
theorem step_of_heads_new {line : List Char} (hn : ∀ k ∈ columns, IsNode k) (hne : columns ≠ [])
    (hd : (r.nodes ++ columns).Nodup) (h : Heads (columns.map vectorName) line) :
    r.step line = .ok { r with columns := some columns, nodes := r.nodes ++ columns } := by
  unfold Reading.step
  simp only [header_of_heads hn hne h, eraseDups_of_nodup hd]

/-- What the tables of these groups add to a reading. -/
structure Adds (r q : Reading) (count : Nat) (time : Nat → Scientific)
    (value : Nat → Int → Scientific) (groups : List (List Int)) : Prop where
  nodes : q.nodes = r.nodes ++ groups.flatten
  samples : q.samples.reverse = r.samples.reverse ++
    groups.flatMap fun g => (List.range count).map (gridSample g time value)
  dropped : q.dropped = r.dropped

/-- A table adds its columns and the samples of its rows. -/
theorem run_of_table {head : List Char} {below : List (List Char)} (hn : ∀ k ∈ columns, IsNode k)
    (hne : columns ≠ []) (hd : (r.nodes ++ columns).Nodup)
    (hf : ∀ e ∈ grid count columns time value, e.Fits columns.length)
    (hh : Heads (columns.map vectorName) head)
    (hb : Body (columns.map vectorName) (grid count columns time value) below) :
    ∃ q, r.run (head :: below) = .ok q ∧ Adds r q count time value [columns] := by
  have hcolumns := (List.nodup_append.mp hd).2.1
  have hbody := run_of_body hn hne hcolumns hb hf
    (r := { r with columns := some columns, nodes := r.nodes ++ columns }) rfl hd
    (List.subset_append_right _ _)
  have hstep : r.run (head :: below) =
      Reading.run { r with columns := some columns, nodes := r.nodes ++ columns } below := by
    rw [Reading.run, step_of_heads_new hn hne hd hh]
  refine ⟨_, hstep.trans hbody, ?_, ?_, rfl⟩
  · simp
  · simp [map_sample_grid]

theorem Adds.trans {s q : Reading} {others : List (List Int)}
    (h₁ : Adds r q count time value groups) (h₂ : Adds q s count time value others) :
    Adds r s count time value (groups ++ others) := by
  constructor
  · rw [h₂.nodes, h₁.nodes, List.flatten_append, List.append_assoc]
  · rw [h₂.samples, h₁.samples, List.flatMap_append, List.append_assoc]
  · rw [h₂.dropped, h₁.dropped]

theorem run_of_tables (hn : ∀ k ∈ groups.flatten, IsNode k) (hne : ∀ g ∈ groups, g ≠ [])
    (hd : (r.nodes ++ groups.flatten).Nodup)
    (hf : ∀ g ∈ groups, ∀ e ∈ grid count g time value, e.Fits g.length)
    (h : Tables count time value groups ls) :
    ∃ q, r.run ls = .ok q ∧ Adds r q count time value groups := by
  induction h generalizing r with
  | nil => exact ⟨r, rfl, by simp, by simp, rfl⟩
  | @table columns groups head below rest hh hb _ ih =>
    rw [List.flatten_cons] at hn hd
    rw [← List.append_assoc] at hd
    obtain ⟨q, hq, hadds⟩ := run_of_table (fun k hk => hn k (List.mem_append_left _ hk))
      (hne _ List.mem_cons_self) (List.nodup_append.mp hd).1 (hf _ List.mem_cons_self) hh hb
    have hnodes : q.nodes = r.nodes ++ columns := by simpa using hadds.nodes
    obtain ⟨s, hs, hrest⟩ := ih (r := q) (fun k hk => hn k (List.mem_append_right _ hk))
      (fun g hg => hne g (List.mem_cons_of_mem _ hg)) (hnodes ▸ hd)
      (fun g hg => hf g (List.mem_cons_of_mem _ hg))
    refine ⟨s, ?_, hadds.trans hrest⟩
    rw [← List.cons_append, run_append, hq]
    exact hs

/-! ## Joining the rows -/

/-- Two rows of one index and time, over columns that are all different, are joined to the row over
both. -/
theorem join_gridSample {others : List Int} (hd : (columns ++ others).Nodup) (i : Nat) :
    (gridSample columns time value i).join (gridSample others time value i) =
      gridSample (columns ++ others) time value i := by
  have hkeys : (Assoc.keys ((columns ++ others).map fun k => (k, (value i k).value))).Nodup := by
    rw [Assoc.keys, List.map_map]
    exact (List.map_id _).symm ▸ hd
  rw [List.map_append] at hkeys
  unfold Sample.join gridSample
  rw [Assoc.foldl_put _ _ hkeys, List.map_append]

theorem foldl_join_gridSample (hd : (columns ++ groups.flatten).Nodup) (i : Nat) :
    (groups.map fun g => gridSample g time value i).foldl Sample.join
        (gridSample columns time value i) =
      gridSample (columns ++ groups.flatten) time value i := by
  induction groups generalizing columns with
  | nil => simp
  | cons g groups ih =>
    rw [List.flatten_cons, ← List.append_assoc] at hd
    rw [List.map_cons, List.foldl_cons, join_gridSample (List.nodup_append.mp hd).1, ih hd,
      List.flatten_cons, List.append_assoc]

/-- Of numbered rows, one has a given number. -/
theorem filter_gridSample {i : Nat} (hi : i < count) :
    ((List.range count).map (gridSample columns time value)).filter (·.index == (i : Int)) =
      [gridSample columns time value i] := by
  have hkeep : (List.range count).filter ((·.index == (i : Int)) ∘ gridSample columns time value) =
      [i] := by
    rw [List.filter_congr (q := (· == i))]
    · rw [List.filter_beq, List.nodup_range.count, if_pos (List.mem_range.mpr hi)]
      rfl
    · intro j _
      rw [Bool.eq_iff_iff, beq_iff_eq, Function.comp_apply, beq_iff_eq]
      exact Int.ofNat_inj
  rw [List.filter_map, hkeep, List.map_singleton]

/-- The rows of all tables, sorted and joined, are the numbered rows over all columns. -/
theorem rows_of_samples (hne : groups ≠ []) (hd : groups.flatten.Nodup)
    (hs : r.samples.reverse =
      groups.flatMap fun g => (List.range count).map (gridSample g time value)) :
    r.rows = (List.range count).map (gridSample groups.flatten time value) := by
  obtain ⟨g, gs, rfl⟩ := List.exists_cons_of_ne_nil hne
  have hsorted : (r.samples.reverse.mergeSort fun a b => a.index ≤ b.index) =
      (List.range count).flatMap fun i =>
        gridSample g time value i :: gs.map fun h => gridSample h time value i := by
    rw [mergeSort_key_eq_flatMap (n := count)]
    · refine List.flatMap_congr fun i hi => ?_
      rw [hs, List.filter_flatMap]
      simp only [filter_gridSample (List.mem_range.mp hi)]
      rw [← List.map_cons (f := fun h => gridSample h time value i), ← List.map_eq_flatMap]
    · intro s hmem
      rw [hs, List.mem_flatMap] at hmem
      obtain ⟨h, -, hmem⟩ := hmem
      obtain ⟨i, hi, rfl⟩ := List.mem_map.mp hmem
      have hi := List.mem_range.mp hi
      show 0 ≤ (i : Int) ∧ (i : Int) < count
      omega
  unfold Reading.rows
  rw [hsorted, merge_flatMap]
  · refine List.map_congr_left fun i _ => ?_
    rw [foldl_join_gridSample hd, List.flatten_cons]
  · intro i _ s hmem
    obtain ⟨h, -, rfl⟩ := List.mem_map.mp hmem
    rfl
  · exact List.pairwise_lt_range.imp fun h => Int.ofNat_lt.mpr h

/-! ## The series of the tables -/

/-- A series of the numbered rows over these nodes: its times and the values of each node are what
the printed numbers read as. -/
structure SeriesOf (count : Nat) (time : Nat → Scientific) (value : Nat → Int → Scientific)
    (nodes : List Int) (s : Series) : Prop where
  times : (((List.range count).map time).map Scientific.text).mapM readFloat = some s.time
  keys : Assoc.keys s.voltages = nodes
  columns : ∀ k ∈ nodes, ∃ column, s.voltages.lookup k = some column ∧
    (((List.range count).map (value · k)).map Scientific.text).mapM readFloat = some column
  currents : s.currents = []

theorem seriesOf_gridSeries (nodes : List Int) :
    SeriesOf count time value nodes (gridSeries count time value nodes) := by
  refine ⟨?_, ?_, fun k hk => ⟨_, List.lookup_graph _ hk, ?_⟩, rfl⟩
  · rw [Row.mapM_readFloat_text, List.map_map]
    rfl
  · rw [Assoc.keys, gridSeries, List.map_map]
    exact List.map_id _
  · rw [Row.mapM_readFloat_text, List.map_map]
    rfl

/-- Rows that make up a series over groups of columns: there are some of each, the columns are
distinct nodes, all numbers are in the range of floats, and the times do not run back. -/
structure Printable (count : Nat) (time : Nat → Scientific) (value : Nat → Int → Scientific)
    (groups : List (List Int)) : Prop where
  groups_pos : groups ≠ []
  columns_pos : ∀ g ∈ groups, g ≠ []
  distinct : groups.flatten.Nodup
  nodes : ∀ k ∈ groups.flatten, IsNode k
  count_pos : 0 < count
  times_finite : ∀ i < count, (time i).value.isFinite
  values_finite : ∀ i < count, ∀ k ∈ groups.flatten, (value i k).value.isFinite
  times_ordered : ∀ i, i + 1 < count → (time i).value ≤ (time (i + 1)).value

theorem exists_run_of_printsTables (hp : Printable count time value groups)
    (h : PrintsTables count time value groups ls) :
    ∃ q, Reading.run ⟨none, [], [], 0⟩ ls = .ok q ∧
      q.series = (some (gridSeries count time value groups.flatten), 0) := by
  obtain ⟨before, tables, rfl, hbefore, htables⟩ := h
  have hfit : ∀ g ∈ groups, ∀ e ∈ grid count g time value, e.Fits g.length := by
    intro g hg
    apply fits_of_mem_grid hp.times_finite
    intro i hi k hk
    exact hp.values_finite i hi k (List.mem_flatten.mpr ⟨g, hg, hk⟩)
  obtain ⟨q, hq, hadds⟩ := run_of_tables (r := ⟨none, [], [], 0⟩) hp.nodes hp.columns_pos
    hp.distinct hfit htables
  have hnodes : q.nodes = groups.flatten := hadds.nodes
  have hrows := rows_of_samples hp.groups_pos hp.distinct hadds.samples
  rw [← hnodes] at hrows ⊢
  exact ⟨q, by rw [run_append_of_no_header rfl hbefore, hq],
    series_of_rows hp.count_pos hp.times_ordered hadds.dropped hrows⟩

theorem readWithDropped_of_printsTables {out : String} (hp : Printable count time value groups)
    (h : PrintsTables count time value groups (lines out)) :
    readWithDropped out = .ok (some (gridSeries count time value groups.flatten), 0) := by
  obtain ⟨q, hq, hseries⟩ := exists_run_of_printsTables hp h
  unfold readWithDropped
  rw [hq]
  exact congrArg Except.ok hseries

/-- **Tables are read back.** Let the numbered rows be printed as tables, one for each group of
distinct nodes, with the header, blank and dashed lines repeated anywhere and every row spaced or
run together. The tables are read as the series with the printed times and, for exactly these nodes,
the printed values in the order of the rows. -/
theorem read_of_printsTables {out : String} (hne : groups ≠ []) (hgroups : ∀ g ∈ groups, g ≠ [])
    (hd : groups.flatten.Nodup) (hn : ∀ k ∈ groups.flatten, IsNode k) (hpos : 0 < count)
    (htimes : ∀ i < count, (time i).value.isFinite)
    (hvalues : ∀ i < count, ∀ k ∈ groups.flatten, (value i k).value.isFinite)
    (ht : ∀ i, i + 1 < count → (time i).value ≤ (time (i + 1)).value)
    (h : PrintsTables count time value groups (lines out)) :
    ∃ s, Table.read out = .ok (some s) ∧
      (((List.range count).map time).map Scientific.text).mapM readFloat = some s.time ∧
      Assoc.keys s.voltages = groups.flatten ∧
      (∀ k ∈ groups.flatten, ∃ column, s.voltages.lookup k = some column ∧
        (((List.range count).map (value · k)).map Scientific.text).mapM readFloat = some column) ∧
      s.currents = [] := by
  have hread :=
    readWithDropped_of_printsTables ⟨hne, hgroups, hd, hn, hpos, htimes, hvalues, ht⟩ h
  have hseries : SeriesOf count time value groups.flatten _ := seriesOf_gridSeries _
  exact ⟨_, by rw [Table.read, hread]; rfl, hseries.times, hseries.keys, hseries.columns,
    hseries.currents⟩

/-- The number with this digit before its point and zeros behind it. -/
def wholeNumber (d : Fin 10) : Scientific where
  sign := none
  whole := Nat.digitChar d
  fraction := ['0', '0']
  exponentSign := .plus
  exponent := ['0', '0']
  whole_digit := by revert d; decide
  fraction_digits := List.all_eq_true.mp (by decide)
  fraction_pos := by decide
  exponent_digits := List.all_eq_true.mp (by decide)
  exponent_size := by decide

/-- The times 0 and 1. -/
def steps (i : Nat) : Scientific := wholeNumber (if i = 0 then 0 else 1)

/-- Node 1 rises, the others stay. -/
def signals (i : Nat) (k : Int) : Scientific :=
  wholeNumber (if k = 1 then (if i = 0 then 4 else 5) else if k = 2 then 2 else 3)

/-- The first row of node 1. -/
def firstRow : List Char := "0\t0.00e+00\t4.00e+00".toList

theorem printsRow_firstRow : PrintsRow 0 [steps 0, signals 0 1] firstRow := by
  have hzero : WritesIndex ['0'] 0 :=
    ⟨List.forall_mem_singleton.mpr (by decide), by decide, by decide +kernel, by decide⟩
  exact ⟨['0'], hzero, .field ['0'] (.blank (by decide) (.field "0.00e+00".toList
    (.blank (by decide) (.field "4.00e+00".toList .nil))))⟩

theorem tables_firstRow : Tables 1 steps signals [[1]] ["Index time v(1)".toList, firstRow] := by
  rw [show ["Index time v(1)".toList, firstRow] =
    "Index time v(1)".toList :: ([firstRow] ++ []) from rfl]
  exact .table (by unfold Heads; decide +kernel)
    (.row ⟨0, steps 0, [signals 0 1]⟩ printsRow_firstRow .nil) .nil

theorem printable_firstRow : Printable 1 steps signals [[1]] :=
  ⟨by decide, by decide, by decide, by decide, by decide, by decide +kernel, by decide +kernel,
    fun i hi => by omega⟩

/-- Two tables; the first goes on behind a blank line and its header, the second runs together. -/
def twoTables : List (List Char) :=
  ["Index time v(1)".toList, "---".toList, firstRow, [],
    "Index time v(1)".toList, "---".toList, "1\t1.00e+00\t5.00e+00".toList,
    "Index time v(3) v(2)".toList, "---".toList, "00.00e+003.00e+002.00e+00".toList,
    "11.00e+003.00e+002.00e+00".toList]

theorem tables_twoTables : Tables 2 steps signals [[1], [3, 2]] twoTables := by
  have hzero : WritesIndex ['0'] 0 :=
    ⟨List.forall_mem_singleton.mpr (by decide), by decide, by decide +kernel, by decide⟩
  have hone : WritesIndex ['1'] 1 :=
    ⟨List.forall_mem_singleton.mpr (by decide), by decide, by decide +kernel, by decide⟩
  have hsplit : twoTables = "Index time v(1)".toList :: ((twoTables.drop 1).take 6 ++
      "Index time v(3) v(2)".toList :: (twoTables.drop 8 ++ [])) := rfl
  rw [hsplit]
  refine .table (by unfold Heads; decide +kernel) ?_
    (.table (by unfold Heads; decide +kernel) ?_ .nil)
  · refine .rule (by decide) (.row ⟨0, steps 0, [signals 0 1]⟩ printsRow_firstRow
      (.rule (by decide) (.header (by unfold Heads; decide +kernel) (.rule (by decide)
        (.row ⟨1, steps 1, [signals 1 1]⟩ ⟨['1'], hone, ?_⟩ .nil)))))
    exact .field ['1'] (.blank (by decide) (.field "1.00e+00".toList
      (.blank (by decide) (.field "5.00e+00".toList .nil))))
  · refine .rule (by decide) (.row ⟨0, steps 0, [signals 0 3, signals 0 2]⟩ ⟨['0'], hzero, ?_⟩
      (.row ⟨1, steps 1, [signals 1 3, signals 1 2]⟩ ⟨['1'], hone, ?_⟩ .nil))
    · exact .field ['0'] (.field "0.00e+00".toList (.field "3.00e+00".toList
        (.field "2.00e+00".toList .nil)))
    · exact .field ['1'] (.field "1.00e+00".toList (.field "3.00e+00".toList
        (.field "2.00e+00".toList .nil)))

theorem printable_twoTables : Printable 2 steps signals [[1], [3, 2]] := by
  refine ⟨by decide, by decide, by decide, by decide, by decide, by decide +kernel,
    by decide +kernel, fun i hi => ?_⟩
  obtain rfl : i = 0 := by omega
  decide +kernel

theorem read_of_printsTables_twoTables :
    ∃ s, Table.read (unlines twoTables) = .ok (some s) ∧
      (((List.range 2).map steps).map Scientific.text).mapM readFloat = some s.time ∧
      Assoc.keys s.voltages = [[1], [3, 2]].flatten ∧
      (∀ k ∈ [[1], [3, 2]].flatten, ∃ column, s.voltages.lookup k = some column ∧
        (((List.range 2).map (signals · k)).map Scientific.text).mapM readFloat = some column) ∧
      s.currents = [] := by
  have hlines : lines (unlines twoTables) = twoTables :=
    lines_unlines (forall_endsLine (by decide))
  exact read_of_printsTables printable_twoTables.groups_pos printable_twoTables.columns_pos
    printable_twoTables.distinct printable_twoTables.nodes printable_twoTables.count_pos
    printable_twoTables.times_finite printable_twoTables.values_finite
    printable_twoTables.times_ordered (hlines.symm ▸ tables_twoTables.printsTables)

end Breadboard.Table
