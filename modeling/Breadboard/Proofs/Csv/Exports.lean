import Breadboard.Proofs.Csv.Records
import Mathlib.Data.List.Basic

/-!
# Exported results

The records of a labelled series and of an operating point are read back as the header lines, the
names in order, and for each time its value and those of every column under their names.
-/

namespace Breadboard.Csv

/-! ## Entries in order -/

/-- The entries by ascending key. -/
structure Ascending {α : Type} (sorted entries : List (String × α)) : Prop where
  perm : sorted.Perm entries
  pairwise : sorted.Pairwise fun a b => a.1 ≤ b.1

theorem ascending_sorted {α : Type} (entries : List (String × α)) :
    Ascending (sorted entries) entries where
  perm := List.mergeSort_perm entries _
  pairwise := by
    have htrans (a b c : String × α) (hab : decide (a.1 ≤ b.1)) (hbc : decide (b.1 ≤ c.1)) :
        decide (a.1 ≤ c.1) :=
      decide_eq_true (String.le_trans (of_decide_eq_true hab) (of_decide_eq_true hbc))
    have htotal (a b : String × α) : decide (a.1 ≤ b.1) || decide (b.1 ≤ a.1) := by
      simpa using String.le_total a.1 b.1
    exact (List.pairwise_mergeSort htrans htotal entries).imp of_decide_eq_true

theorem sorted_map {α β : Type} (f : α → β) (entries : List (String × α)) :
    sorted (entries.map fun e => (e.1, f e.2)) = (sorted entries).map fun e => (e.1, f e.2) := by
  unfold sorted
  rw [List.map_mergeSort]
  intro a _ b _
  rfl

/-! ## Rows of a table -/

variable {vectors : List (List String)}

/-- All vectors have a value at this place. -/
theorem exists_valuesAt {i : Nat} (h : ∀ v ∈ vectors, i < v.length) :
    ∃ values, valuesAt i vectors = .ok values ∧ vectors.map (·[i]?) = values.map some := by
  induction vectors with
  | nil => exact ⟨[], rfl, rfl⟩
  | cons v rest ih =>
    obtain ⟨values, hvalues, hmap⟩ := ih fun w hw => h w (List.mem_cons_of_mem v hw)
    have hi : i < v.length := h v List.mem_cons_self
    have hv := List.getElem?_eq_getElem hi
    refine ⟨v[i] :: values, ?_, ?_⟩
    · rw [valuesAt, hv, hvalues]
    · rw [List.map_cons, List.map_cons, hv, hmap]

/-- The record of each time holds the time and the value of every vector at its place. -/
theorem exists_timeRecords {times : List String} {i : Nat}
    (h : ∀ v ∈ vectors, i + times.length ≤ v.length) :
    ∃ records, timeRecords vectors i times = .ok records ∧ records.length = times.length ∧
      ∀ k t, times[k]? = some t → ∃ values,
        vectors.map (·[i + k]?) = values.map some ∧ records[k]? = some (t :: values) := by
  induction times generalizing i with
  | nil => exact ⟨[], rfl, rfl, fun k t hk => by cases hk⟩
  | cons t times ih =>
    have hshort : ∀ v ∈ vectors, i + 1 + times.length ≤ v.length := by
      intro v hv
      have := h v hv
      rw [List.length_cons] at this
      omega
    obtain ⟨values, hvalues, hmap⟩ := exists_valuesAt (i := i) fun v hv => by
      have := hshort v hv
      omega
    obtain ⟨records, hrecords, hlength, hrows⟩ := ih hshort
    refine ⟨(t :: values) :: records, ?_, congrArg Nat.succ hlength, fun k u hk => ?_⟩
    · rw [timeRecords, hvalues, hrecords]
    · cases k with
      | zero =>
        cases hk
        exact ⟨values, hmap, rfl⟩
      | succ k =>
        rw [Nat.add_succ, ← Nat.succ_add]
        exact hrows k u hk

/-- The rows of a labelled series under these columns: for each time its value and the value of
every column at its place. -/
structure Tabulates (l : NetSeries) (columns : List (String × List Float))
    (rows : List (List String)) : Prop where
  length : rows.length = l.time.length
  row : ∀ (i : Nat) t, l.time[i]? = some t → ∃ values : List Float,
    columns.map (·.2[i]?) = values.map some ∧ rows[i]? = some (Real.text t :: values.map Real.text)

/-- The values of texts are the texts of values. -/
theorem exists_values_of_texts {columns : List (List Float)} {i : Nat} {texts : List String}
    (h : (columns.map (List.map Real.text)).map (·[i]?) = texts.map some) :
    ∃ values : List Float, columns.map (·[i]?) = values.map some ∧
      texts = values.map Real.text := by
  induction columns generalizing texts with
  | nil =>
    rw [List.map_nil, List.map_nil, eq_comm, List.map_eq_nil_iff] at h
    exact ⟨[], rfl, h⟩
  | cons v columns ih =>
    cases texts with
    | nil => cases h
    | cons text texts =>
      rw [List.map_cons, List.map_cons, List.map_cons, List.cons.injEq, List.getElem?_map,
        Option.map_eq_some_iff] at h
      obtain ⟨⟨value, hvalue, rfl⟩, hrest⟩ := h
      obtain ⟨values, hvalues, rfl⟩ := ih hrest
      exact ⟨value :: values, by rw [List.map_cons, List.map_cons, hvalue, hvalues], rfl⟩

theorem exists_tabulates {l : NetSeries} {columns : List (String × List Float)}
    (h : ∀ v ∈ columns, v.2.length = l.time.length) :
    ∃ rows, timeRecords (columns.map fun v => v.2.map Real.text) 0 (l.time.map Real.text) =
      .ok rows ∧ Tabulates l columns rows := by
  have hlong : ∀ texts ∈ columns.map (fun v => v.2.map Real.text),
      0 + (l.time.map Real.text).length ≤ texts.length := by
    intro texts htexts
    obtain ⟨v, hv, rfl⟩ := List.mem_map.mp htexts
    rw [List.length_map, List.length_map, Nat.zero_add]
    exact Nat.le_of_eq (h v hv).symm
  obtain ⟨rows, hrows, hlength, hrow⟩ := exists_timeRecords hlong
  refine ⟨rows, hrows, by rw [hlength, List.length_map], fun i t hi => ?_⟩
  obtain ⟨texts, htexts, hrecord⟩ := hrow i (Real.text t) (by rw [List.getElem?_map, hi]; rfl)
  rw [Nat.zero_add] at htexts
  have hcolumns : ((columns.map (·.2)).map (List.map Real.text)).map (·[i]?) = texts.map some := by
    rw [← htexts, List.map_map, List.map_map, List.map_map]
    rfl
  obtain ⟨values, hvalues, rfl⟩ := exists_values_of_texts hcolumns
  exact ⟨values, by rw [← hvalues, List.map_map]; rfl, hrecord⟩

/-! ## Exports -/

/-- The lines before the data: the kind of analysis, the date, the circuit if it has a name, and an
empty line. -/
theorem preamble_append (analysis date circuit : String) (records : List (List String)) :
    preamble analysis date circuit ++ records =
      ["# Analysis Type", analysis] :: ["# Date", date] ::
        ((if circuit = "" then [] else [["# Circuit", circuit]]) ++ [] :: records) := by
  unfold preamble
  by_cases h : circuit = "" <;> simp [h]

/-- The text of a series from its rows, in which the columns are those of the header. -/
theorem ofSeries_eq {date circuit : String} {l : NetSeries} {rows : List (List String)}
    (htime : l.time ≠ [])
    (hrows : timeRecords ((sorted l.voltages ++ sorted l.currents).map fun v =>
      v.2.map Real.text) 0 (l.time.map Real.text) = .ok rows) :
    ofSeries date circuit l = .ok (render (preamble "Transient" date circuit ++
      ("time" :: ((sorted l.voltages).map fun v => s!"V({v.1})") ++
        (sorted l.currents).map fun v => s!"I({v.1})") :: rows)) := by
  have hempty : (l.time.map Real.text).isEmpty = false := by
    rw [List.isEmpty_eq_false_iff]
    exact fun h => htime (List.map_eq_nil_iff.mp h)
  have hvectors : (((sorted l.voltages).map fun v => (v.1, v.2.map Real.text)) ++
      (sorted l.currents).map fun v => (v.1, v.2.map Real.text)).map (·.2) =
      (sorted l.voltages ++ sorted l.currents).map fun v => v.2.map Real.text := by
    rw [← List.map_append, List.map_map]
    rfl
  rw [← hvectors] at hrows
  unfold ofSeries transientRecords
  simp only [hempty, Bool.false_eq_true, if_false, sorted_map, hrows]
  simp only [List.map_map]
  rfl

/-- **Exported results are read back.** For a series with at least one time and with vectors as
long as its times the reader finds the lines before the data, the header with the nets and the
currents in order, and for each time its value and the value of each column at its place; for an
operating point it finds its names in order with their values. The names may be any text. -/
theorem read_exports (date circuit : String) :
    (∀ l : NetSeries, l.time ≠ [] →
      (∀ v ∈ l.voltages ++ l.currents, v.2.length = l.time.length) →
      ∃ text nets currents rows, ofSeries date circuit l = .ok text ∧
        Ascending nets l.voltages ∧ Ascending currents l.currents ∧
        Tabulates l (nets ++ currents) rows ∧
        read text = some (["# Analysis Type", "Transient"] :: ["# Date", date] ::
          ((if circuit = "" then [] else [["# Circuit", circuit]]) ++ [] ::
            ("time" :: (nets.map fun v => s!"V({v.1})") ++ currents.map fun v => s!"I({v.1})") ::
            rows))) ∧
    ∀ point : List (String × Float), ∃ entries, Ascending entries point ∧
      read (ofOperatingPoint date circuit point) =
        some (["# Analysis Type", "Operating Point"] :: ["# Date", date] ::
          ((if circuit = "" then [] else [["# Circuit", circuit]]) ++ [] ::
            ["Quantity", "Value"] :: entries.map fun e => [e.1, Real.text e.2])) := by
  constructor
  · intro l htime hlength
    have hnets := ascending_sorted l.voltages
    have hcurrents := ascending_sorted l.currents
    have hcolumns : ∀ v ∈ sorted l.voltages ++ sorted l.currents, v.2.length = l.time.length :=
      fun v hv => hlength v ((hnets.perm.append hcurrents.perm).mem_iff.mp hv)
    obtain ⟨rows, hrows, htable⟩ := exists_tabulates hcolumns
    refine ⟨_, sorted l.voltages, sorted l.currents, rows, ofSeries_eq htime hrows, hnets,
      hcurrents, htable, ?_⟩
    rw [read_render, preamble_append]
  · intro point
    refine ⟨sorted point, ascending_sorted point, ?_⟩
    unfold ofOperatingPoint operatingPointRecords
    rw [read_render, preamble_append, sorted_map, List.map_map]
    rfl

/-- A net whose name holds a comma, quotes and a line end, and a current, over two times. -/
def awkwardNames : NetSeries where
  time := [0.0, 1e-3]
  voltages := [("a,\"b\"\r\nc", [5.0, 2.5])]
  currents := [("r1", [0.005, 0.0025])]

theorem read_exports_awkward :
    awkwardNames.time ≠ [] ∧
    (∀ v ∈ awkwardNames.voltages ++ awkwardNames.currents,
      v.2.length = awkwardNames.time.length) ∧
    ∃ text rows, ofSeries "2000-01-01 00:00:00" "\n" awkwardNames = .ok text ∧
      Tabulates awkwardNames (awkwardNames.voltages ++ awkwardNames.currents) rows ∧
      read text = some (["# Analysis Type", "Transient"] :: ["# Date", "2000-01-01 00:00:00"] ::
        ["# Circuit", "\n"] :: [] :: ["time", "V(a,\"b\"\r\nc)", "I(r1)"] :: rows) := by
  have htime : awkwardNames.time ≠ [] := nofun
  have hlength : ∀ v ∈ awkwardNames.voltages ++ awkwardNames.currents,
      v.2.length = awkwardNames.time.length := by
    simp [awkwardNames]
  obtain ⟨text, nets, currents, rows, htext, hnets, hcurrents, hrows, hread⟩ :=
    (read_exports "2000-01-01 00:00:00" "\n").1 awkwardNames htime hlength
  obtain rfl : nets = awkwardNames.voltages := List.perm_singleton.mp hnets.perm
  obtain rfl : currents = awkwardNames.currents := List.perm_singleton.mp hcurrents.perm
  exact ⟨htime, hlength, text, rows, htext, hrows, hread⟩

end Breadboard.Csv
