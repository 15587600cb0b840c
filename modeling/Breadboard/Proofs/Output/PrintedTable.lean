import Breadboard.Proofs.Decimal.Order
import Breadboard.Proofs.Output.PrintedHeader
import Mathlib.Data.List.Chain
import Mathlib.Data.List.Range

/-!
# Printed tables

A printed table is a header and the lines below it: rows in order, and between them blank and
dashed lines and the header again. Its reading has a sample for each row, and the series of the
samples has every row when the indices rise and the times do not run back.
-/

namespace Breadboard.Table

open Text

/-- A row that a table prints: its index, its time and its values. -/
structure Entry where
  index : Nat
  time : Scientific
  values : List Scientific

namespace Entry

/-- The numbers of a row. -/
def tokens (e : Entry) : List Scientific := e.time :: e.values

/-- The sample that a row is read as. -/
def sample (columns : List Int) (e : Entry) : Sample :=
  ⟨e.index, e.time.value, columns.zip (e.values.map Scientific.value)⟩

/-- A row with a finite value for each of so many columns. -/
structure Fits (width : Nat) (e : Entry) : Prop where
  width : e.values.length = width
  finite : ∀ t ∈ e.tokens, t.value.isFinite

end Entry

/-- The lines below the header of a table of these vectors that print these rows. -/
inductive Body (vectors : List String) : List Entry → List (List Char) → Prop
  | nil : Body vectors [] []
  | rule {entries lines line} (hr : isRule line) (h : Body vectors entries lines) :
      Body vectors entries (line :: lines)
  | header {entries lines line} (hh : Heads vectors line) (h : Body vectors entries lines) :
      Body vectors entries (line :: lines)
  | row {entries lines line} (e : Entry) (hp : PrintsRow e.index e.tokens line)
      (h : Body vectors entries lines) : Body vectors (e :: entries) (line :: lines)

/-! ## Reading a table -/

section Reading

variable {columns : List Int} {entries : List Entry} {ls : List (List Char)} {line : List Char}
  {r : Reading}

theorem step_of_isRule (hc : r.columns = some columns) (h : isRule line) : r.step line = .ok r := by
  unfold Reading.step
  simp only [header_of_isRule h, hc, h, if_true]

theorem step_of_heads (hn : ∀ k ∈ columns, IsNode k) (hne : columns ≠ [])
    (hc : r.columns = some columns) (hd : r.nodes.Nodup) (hs : columns ⊆ r.nodes)
    (h : Heads (columns.map vectorName) line) : r.step line = .ok r := by
  unfold Reading.step
  simp only [header_of_heads hn hne h, eraseDups_append_of_subset hd hs]
  rw [← hc]

theorem keys_zip {values : List Float} (h : values.length = columns.length) :
    Assoc.keys (columns.zip values) = columns :=
  List.map_fst_zip (Nat.le_of_eq h.symm)

theorem sample_of_printsRow {e : Entry} (hd : columns.Nodup) (hf : e.Fits columns.length)
    (h : PrintsRow e.index e.tokens line) :
    Table.sample columns line = .ok (some (e.sample columns)) := by
  have hread := Row.read_of_printsRow h (List.cons_ne_nil _ _) hf.finite
  have hlen : (e.values.map Scientific.value).length = columns.length := by
    rw [List.length_map, hf.width]
  have hzip : Assoc.ofList (columns.zip (e.values.map Scientific.value)) =
      columns.zip (e.values.map Scientific.value) :=
    Assoc.ofList_of_nodup (by rw [keys_zip hlen]; exact hd)
  unfold Table.sample
  simp only [hread, Entry.tokens, List.map_cons, hlen, if_true, hzip]
  rfl

theorem step_of_printsRow {e : Entry} (hc : r.columns = some columns) (hd : columns.Nodup)
    (hf : e.Fits columns.length) (h : PrintsRow e.index e.tokens line) :
    r.step line = .ok { r with samples := e.sample columns :: r.samples } := by
  unfold Reading.step
  simp only [header_of_printsRow h, hc, isRule_of_printsRow h, sample_of_printsRow hd hf h,
    Bool.false_eq_true, if_false]

/-- The lines below a header add the samples of their rows. -/
theorem run_of_body (hn : ∀ k ∈ columns, IsNode k) (hne : columns ≠ []) (hd : columns.Nodup)
    (h : Body (columns.map vectorName) entries ls) (hf : ∀ e ∈ entries, e.Fits columns.length)
    {r : Reading} (hc : r.columns = some columns) (hnodes : r.nodes.Nodup)
    (hs : columns ⊆ r.nodes) :
    r.run ls = .ok
      { r with samples := (entries.map (Entry.sample columns)).reverse ++ r.samples } := by
  induction h generalizing r with
  | nil => rfl
  | rule hr _ ih =>
    unfold Reading.run
    rw [step_of_isRule hc hr]
    exact ih hf hc hnodes hs
  | header hh _ ih =>
    unfold Reading.run
    rw [step_of_heads hn hne hc hnodes hs hh]
    exact ih hf hc hnodes hs
  | row e hp _ ih =>
    unfold Reading.run
    rw [step_of_printsRow hc hd (hf e List.mem_cons_self) hp]
    have hrest := ih (fun e he => hf e (List.mem_cons_of_mem _ he))
      (r := { r with samples := e.sample columns :: r.samples }) hc hnodes hs
    simp only [hrest, List.map_cons, List.reverse_cons, List.append_assoc, List.singleton_append]

/-- Lines that are no headers say nothing before the first header. -/
theorem run_append_of_no_header (hc : r.columns = none) {before : List (List Char)}
    (hb : ∀ line ∈ before, headerColumns line = none) (more : List (List Char)) :
    r.run (before ++ more) = r.run more := by
  induction before with
  | nil => rfl
  | cons line before ih =>
    have hstep : r.step line = .ok r := by
      unfold Reading.step
      simp only [header_eq_none (hb line List.mem_cons_self), hc]
    rw [List.cons_append, Reading.run]
    simp only [hstep, ih fun l hl => hb l (List.mem_cons_of_mem line hl)]

end Reading

/-- Lines that print one table: a header, what stands before it without being one, and the lines
below it. -/
def PrintsTable (vectors : List String) (entries : List Entry) (ls : List (List Char)) : Prop :=
  ∃ before head below, ls = before ++ head :: below ∧
    (∀ line ∈ before, headerColumns line = none) ∧ Heads vectors head ∧ Body vectors entries below

variable {columns : List Int} {entries : List Entry} {ls : List (List Char)}

/-! ## The series of a table -/

/-- Rows of one index are joined in their order. -/
theorem mergeFrom_append {s : Sample} {ts : List Sample} (h : ∀ t ∈ ts, t.index = s.index)
    (rest : List Sample) :
    merge.mergeFrom s (ts ++ rest) = merge.mergeFrom (ts.foldl Sample.join s) rest := by
  induction ts generalizing s with
  | nil => rfl
  | cons t ts ih =>
    have ht := h t List.mem_cons_self
    rw [List.cons_append, merge.mergeFrom, if_pos ht.symm, List.foldl_cons]
    apply ih
    intro u hu
    exact h u (List.mem_cons_of_mem t hu)

theorem index_foldl_join (s : Sample) (ts : List Sample) :
    (ts.foldl Sample.join s).index = s.index := by
  induction ts generalizing s with
  | nil => rfl
  | cons t ts ih => exact ih (s.join t)

/-- Runs of rows, each of one index and the indices rising, are joined run by run. -/
theorem merge_flatMap {α : Type} {first : α → Sample} {others : α → List Sample} {l : List α}
    (hsame : ∀ a ∈ l, ∀ t ∈ others a, t.index = (first a).index)
    (hrise : l.Pairwise fun a b => (first a).index < (first b).index) :
    merge (l.flatMap fun a => first a :: others a) =
      l.map fun a => (others a).foldl Sample.join (first a) := by
  induction l with
  | nil => rfl
  | cons a l ih =>
    obtain ⟨ha, hl⟩ := List.pairwise_cons.mp hrise
    have hrest := ih (fun b hb => hsame b (List.mem_cons_of_mem a hb)) hl
    rw [List.flatMap_cons, List.cons_append, merge, List.map_cons,
      mergeFrom_append (hsame a List.mem_cons_self)]
    cases l with
    | nil => rfl
    | cons b l =>
      have hne : ((others a).foldl Sample.join (first a)).index ≠ (first b).index := by
        rw [index_foldl_join]
        exact Int.ne_of_lt (ha b List.mem_cons_self)
      rw [List.flatMap_cons, List.cons_append, merge] at hrest
      rw [List.flatMap_cons, List.cons_append, merge.mergeFrom, if_neg hne, hrest]

theorem keepRows_eq_self {width : Nat} {samples : List Sample}
    (hw : ∀ s ∈ samples, s.values.length = width)
    (ht : samples.IsChain fun a b => ¬ b.time < a.time) (last : Option Float)
    (hl : ∀ t ∈ last, ∀ s ∈ samples.head?, ¬ s.time < t) :
    keepRows width last samples = samples := by
  induction samples generalizing last with
  | nil => rfl
  | cons s rest ih =>
    have hlast : ¬ (last.any (s.time < ·)) = true := by
      cases last with
      | none => exact Bool.false_ne_true
      | some t => simpa using hl t rfl s rfl
    have hkeep : ¬ (s.values.length ≠ width ∨ (last.any (s.time < ·)) = true) := by
      rintro (hne | hback)
      · exact hne (hw s List.mem_cons_self)
      · exact hlast hback
    unfold keepRows
    rw [if_neg hkeep, ih (fun u hu => hw u (List.mem_cons_of_mem s hu)) ht.tail _ ?_]
    intro t htime u hu
    obtain rfl : s.time = t := Option.some.inj htime
    cases rest with
    | nil => cases hu
    | cons v rest =>
      obtain rfl : v = u := Option.some.inj hu
      exact List.rel_of_isChain_cons_cons ht

/-- The rows numbered from zero, with the time and the values that these tokens give. -/
def grid (count : Nat) (columns : List Int) (time : Nat → Scientific)
    (value : Nat → Int → Scientific) : List Entry :=
  (List.range count).map fun i => ⟨i, time i, columns.map (value i)⟩

variable {count : Nat} {time : Nat → Scientific} {value : Nat → Int → Scientific}

/-- The sample of a numbered row. -/
def gridSample (columns : List Int) (time : Nat → Scientific) (value : Nat → Int → Scientific)
    (i : Nat) : Sample :=
  ⟨i, (time i).value, columns.map fun k => (k, (value i k).value)⟩

/-- The series of the numbered rows over these nodes. -/
def gridSeries (count : Nat) (time : Nat → Scientific) (value : Nat → Int → Scientific)
    (nodes : List Int) : Series :=
  ⟨(List.range count).map fun i => (time i).value,
    nodes.map fun k => (k, (List.range count).map fun i => (value i k).value), []⟩

theorem map_sample_grid :
    (grid count columns time value).map (Entry.sample columns) =
      (List.range count).map (gridSample columns time value) := by
  rw [grid, List.map_map]
  refine List.map_congr_left fun i _ => ?_
  show Sample.mk _ _ _ = Sample.mk _ _ _
  rw [List.map_map, ← List.map_prod_left_eq_zip]
  rfl

theorem isChain_gridSample (ht : ∀ i, i + 1 < count → (time i).value ≤ (time (i + 1)).value) :
    ((List.range count).map (gridSample columns time value)).IsChain
      fun a b => ¬ b.time < a.time := by
  rw [List.isChain_map, List.isChain_range]
  intro i hi
  exact not_float_lt_of_le (ht i (by omega))

theorem columnOf_gridSample {k : Int} (hk : k ∈ columns) :
    columnOf ((List.range count).map (gridSample columns time value)) k =
      (List.range count).map fun i => (value i k).value := by
  unfold columnOf
  rw [List.filterMap_map, ← List.filterMap_eq_map]
  congr 1
  funext i
  exact List.lookup_graph (fun k => (value i k).value) hk

theorem fits_of_mem_grid (htimes : ∀ i < count, (time i).value.isFinite)
    (hvalues : ∀ i < count, ∀ k ∈ columns, (value i k).value.isFinite) :
    ∀ e ∈ grid count columns time value, e.Fits columns.length := by
  intro e he
  obtain ⟨i, hi, rfl⟩ := List.mem_map.mp he
  have hi := List.mem_range.mp hi
  refine ⟨List.length_map _, fun t ht => ?_⟩
  rcases List.mem_cons.mp ht with rfl | ht
  · exact htimes i hi
  · obtain ⟨k, hk, rfl⟩ := List.mem_map.mp ht
    exact hvalues i hi k hk

/-- Numbered rows with a value for each node give the series of the nodes, if the times do not run
back. -/
theorem series_of_rows {r : Reading} (hpos : 0 < count)
    (ht : ∀ i, i + 1 < count → (time i).value ≤ (time (i + 1)).value) (hdropped : r.dropped = 0)
    (hrows : r.rows = (List.range count).map (gridSample r.nodes time value)) :
    r.series = (some (gridSeries count time value r.nodes), 0) := by
  have hwidth : ∀ s ∈ (List.range count).map (gridSample r.nodes time value),
      s.values.length = r.nodes.length := by
    intro s hs
    obtain ⟨i, -, rfl⟩ := List.mem_map.mp hs
    exact List.length_map _
  have hkept := keepRows_eq_self hwidth (isChain_gridSample ht) none (by rintro _ ⟨⟩)
  have hne : ((List.range count).map (gridSample r.nodes time value)).isEmpty = false := by
    rw [List.isEmpty_map, List.isEmpty_eq_false_iff]
    exact List.range_ne_nil.mpr (by omega)
  have hcolumns : (r.nodes.map fun k =>
      (k, columnOf ((List.range count).map (gridSample r.nodes time value)) k)) =
      r.nodes.map fun k => (k, (List.range count).map fun i => (value i k).value) :=
    List.map_congr_left fun k hk => by rw [columnOf_gridSample hk]
  unfold Reading.series
  simp only [hrows, hkept, hne, hcolumns, hdropped, Bool.false_eq_true, if_false, Nat.sub_self,
    List.map_map]
  rfl

end Breadboard.Table
