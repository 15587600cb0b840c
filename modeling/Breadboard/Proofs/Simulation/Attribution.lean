import Breadboard.Proofs.Netlist.Assembly
import Breadboard.Proofs.Netlist.DeckText
import Breadboard.Proofs.Output.Labelling
import Breadboard.Proofs.Output.Totality
import Breadboard.Proofs.Simulation.Totality

/-!
# Attribution

What the engine prints for a deck comes back under the names of the nets. A deck asks for the
voltages of all its nodes; when the engine prints them as one table with enough rows, every net but
ground carries the column of its node, and no other label appears.
-/

namespace Breadboard

open Text

namespace Simulation

/-! ## Decoding a table -/

variable {components : List Component} {s : Settings} {deck : Deck} {r : Runner} {e : Engine}
  {out : String} {count : Nat} {time : Nat → Scientific} {value : Nat → Int → Scientific}

/-- The engine prints a table over the nodes of a map: its numbers are in the range of floats, and
its times never go back. -/
structure Prints (m : NodeMap) (count : Nat) (time : Nat → Scientific)
    (value : Nat → Int → Scientific) (out : String) : Prop where
  table : Table.PrintsTable (Deck.vectors m) (Table.grid count m.indices time value) (lines out)
  times_finite : ∀ i < count, (time i).value.isFinite
  values_finite : ∀ i < count, ∀ k ∈ m.indices, (value i k).value.isFinite
  times_ordered : ∀ i, i + 1 < count → (time i).value ≤ (time (i + 1)).value

/-- The times in a table. -/
def times (count : Nat) (time : Nat → Scientific) : List Float :=
  (List.range count).map fun i => (time i).value

/-- The column of a node in a table. -/
def column (count : Nat) (value : Nat → Int → Scientific) (k : Int) : List Float :=
  (List.range count).map fun i => (value i k).value

theorem readWithDropped_of_prints {m : NodeMap} (hn : ∀ k ∈ m.indices, Table.IsNode k)
    (hne : m.indices ≠ []) (hpos : 0 < count) (h : Prints m count time value out) :
    Table.readWithDropped out =
      .ok (some (NetSeries.overNodes m (times count time) (column count value)), 0) := by
  have hflat : [m.indices].flatten = m.indices := by simp
  have hread := Table.readWithDropped_of_printsTables ⟨List.cons_ne_nil m.indices [],
    List.forall_mem_singleton.mpr hne, hflat.symm ▸ m.nodup_indices, hflat.symm ▸ hn, hpos,
    h.times_finite, hflat.symm ▸ h.values_finite, h.times_ordered⟩ h.table.printsTables
  rw [hread, hflat]
  rfl

/-! ## Simulating -/

/-- A labelled series that carries a printed table: its times, and for every net of the map but
ground, and for nothing else, the column of the node of the net. -/
structure Carries (m : NodeMap) (count : Nat) (time : Nat → Scientific)
    (value : Nat → Int → Scientific) (l : NetSeries) : Prop where
  times : l.time = times count time
  names : ∀ name, name ∈ Assoc.keys l.voltages ↔
    name ∈ Assoc.keys m.entries ∧ name ≠ Net.ground
  distinct : (Assoc.keys l.voltages).Nodup
  columns : ∀ name k, m.get? name = some k → name ≠ Net.ground →
    l.voltages.lookup name = some (column count value k)

theorem carries_ofSeries {t : NodeTable} (ht : t.Numbered) :
    Carries t.toNodeMap count time value (NetSeries.ofSeries
      (NetSeries.overNodes t.toNodeMap (times count time) (column count value)) t.toNodeMap) where
  times := rfl
  names := by
    intro name
    rw [NetSeries.mem_keys_ofSeries ht.distinct]
    constructor
    · rintro ⟨k, hk, he⟩
      exact ⟨List.mem_map_of_mem he, fun hg => hk ((ht.eq_zero_iff he).mpr hg)⟩
    · rintro ⟨hname, hg⟩
      obtain ⟨⟨n, k⟩, he, rfl⟩ := List.mem_map.mp hname
      exact ⟨k, fun h0 => hg ((ht.eq_zero_iff he).mp h0), he⟩
  distinct := by
    rw [NetSeries.voltages_ofSeries ht.distinct, NetSeries.keys_labelled]
    exact NodeMap.nodup_flatMap_netsOf ht.distinct
  columns := by
    intro name k hk hname
    have he := Assoc.mem_of_lookup hk
    exact NetSeries.lookup_ofSeries ht.distinct (fun h0 => hname ((ht.eq_zero_iff he).mp h0)) he

/-- The result for an output with a table over the nodes of the deck. -/
theorem decode_of_prints (hs : s.checked = .ok s)
    (hn : ∀ k ∈ deck.nodeMap.indices, Table.IsNode k) (hne : deck.nodeMap.indices ≠ [])
    (hcount : s.minPoints < count) (hprints : Prints deck.nodeMap count time value out) :
    decode components s deck (some out) = .ok (label components deck (some out) false
      (OperatingPoint.read out)
      (some (NetSeries.overNodes deck.nodeMap (times count time) (column count value)))) := by
  obtain ⟨-, -, hleast⟩ := Settings.checked_eq_ok_iff.mp hs
  have hpos : 0 < count := by omega
  have hread := readWithDropped_of_prints hn hne hpos hprints
  have hsize : s.minPoints <
      (NetSeries.overNodes deck.nodeMap (times count time) (column count value)).size := by
    unfold NetSeries.overNodes Series.size times
    rw [List.length_map, List.length_range]
    exact hcount
  unfold decode
  rw [Option.getD_some, Decoded.ofOutput_of_table hread hsize]
  rfl

/-- When the engine prints the vectors that a deck asks for as a table with more rows than are
required, the simulation succeeds with a series that carries the table. Labelling it gives no
notice: all warnings are those of the deck and those of probes on nets that were not simulated. -/
theorem simulate_carries (hs : s.checked = .ok s)
    (hdeck : Deck.ofComponents components s = .ok deck) (hne : deck.nodeMap.indices ≠ [])
    (hshort : ∀ k ∈ deck.nodeMap.indices, (toString k).length ≤ Numeral.maxDigits)
    (hcount : s.minPoints < count) (hrun : (r.run e deck.text).outcome = .ok (.exited 0 out))
    (hprints : Prints deck.nodeMap count time value out) :
    ∃ report l, (simulate components s r e).result = .ok report ∧ report.success = true ∧
      report.usedFallback = false ∧ report.transient = some l ∧
      Carries deck.nodeMap count time value l ∧
      report.warnings =
        deck.diagnostics ++ (Probe.notices components l).map LabelNotice.message ∧
      (Deck.printClause deck.nodeMap ++ "\n.end\n").toList <:+ deck.text.toList := by
  obtain ⟨t, ht, hmap⟩ := Deck.exists_numbered hdeck
  have hnodes : ∀ k ∈ deck.nodeMap.indices, Table.IsNode k := by
    intro k hk
    obtain ⟨-, name, he⟩ := NodeMap.mem_indices.mp hk
    rw [hmap] at he
    exact ⟨ht.nonneg he, hshort k hk⟩
  rw [result_of_exited hdeck hrun, decode_of_prints hs hnodes hne hcount hprints]
  refine ⟨_, _, rfl, rfl, rfl, rfl, ?_, ?_, Deck.printClause_suffix hdeck hne⟩
  · rw [hmap]
    exact carries_ofSeries ht
  · unfold label
    simp only [NetSeries.unnamed_overNodes, List.nil_append, List.append_nil, Bool.false_eq_true,
      if_false]

/-- A source and a resistor that a junction joins. -/
def joined : List Component :=
  [.wired "1" (.device .voltageSource) [("1", "a"), ("2", "0")],
    .wired "J" .junction [("1", "a"), ("2", "b")],
    .wired "1" (.device .resistor) [("1", "b"), ("2", "0")]]

/-- Settings that require more than one point. -/
def brief : Settings := { Settings.defaults with minPoints := 1 }

/-- A number with a zero behind its point and an exponent of one digit behind a zero. -/
def sampleNumber (sign : Option Sign) (whole : Char) (exponentSign : Sign) (last : Char)
    (hw : isDecimal whole) (hl : isDecimal last) : Scientific where
  sign := sign
  whole := whole
  fraction := ['0']
  exponentSign := exponentSign
  exponent := ['0', last]
  whole_digit := hw
  fraction_digits := List.forall_mem_singleton.mpr (by decide)
  fraction_pos := List.cons_ne_nil _ _
  exponent_digits := List.forall_mem_cons.mpr ⟨by decide, List.forall_mem_singleton.mpr hl⟩
  exponent_size := .inl rfl

/-- Two times. -/
def twoTimes : Nat → Scientific
  | 0 => sampleNumber none '0' .plus '0' (by decide) (by decide)
  | _ => sampleNumber none '1' .minus '7' (by decide) (by decide)

/-- Two values of one node. -/
def twoValues : Nat → Int → Scientific
  | 0, _ => sampleNumber none '5' .plus '0' (by decide) (by decide)
  | _, _ => sampleNumber (some .minus) '5' .plus '0' (by decide) (by decide)

/-- A table of two rows, the second with its numbers run together. -/
def twoRows : String := "Index time v(1)\n-----\n0 0.0e+00\t5.0e+00\n11.0e-07-5.0e+00\n"

theorem prints_twoRows {m : NodeMap} (hm : m.indices = [1]) :
    Prints m 2 twoTimes twoValues twoRows where
  table := by
    unfold Deck.vectors Table.grid
    rw [hm]
    refine ⟨[], "Index time v(1)".toList,
      ["-----".toList, "0 0.0e+00\t5.0e+00".toList, "11.0e-07-5.0e+00".toList], by decide +kernel,
      by simp, by unfold Table.Heads; decide +kernel, .rule (by decide +kernel) ?_⟩
    refine .row ⟨0, twoTimes 0, [twoValues 0 1]⟩ ⟨['0'], ?_, ?_⟩
      (.row ⟨1, twoTimes 1, [twoValues 1 1]⟩ ⟨['1'], ?_, ?_⟩ .nil)
    · exact ⟨List.forall_mem_singleton.mpr (by decide), by decide, by decide, by decide⟩
    · exact .field ['0'] (.blank (by decide) (.field "0.0e+00".toList
        (.blank (by decide) (.field "5.0e+00".toList .nil))))
    · exact ⟨List.forall_mem_singleton.mpr (by decide), by decide, by decide, by decide⟩
    · exact .field ['1'] (.field "1.0e-07".toList (.field "-5.0e+00".toList .nil))
  times_finite := by decide +kernel
  values_finite := by
    rw [hm]
    decide +kernel
  times_ordered := by
    intro i hi
    obtain rfl : i = 0 := by omega
    decide +kernel

theorem simulate_carries_joined :
    ∃ deck, Deck.ofComponents joined brief = .ok deck ∧
      Prints deck.nodeMap 2 twoTimes twoValues twoRows ∧
      ∃ report l, (simulate joined brief ⟨none, 60.0⟩
          { onPath := some "/usr/bin/ngspice",
            printed := encodeUtf8 twoRows.toList }).result = .ok report ∧
        report.success = true ∧ report.usedFallback = false ∧ report.transient = some l ∧
        Carries deck.nodeMap 2 twoTimes twoValues l ∧
        report.warnings =
          deck.diagnostics ++ (Probe.notices joined l).map LabelNotice.message ∧
        (Deck.printClause deck.nodeMap ++ "\n.end\n").toList <:+ deck.text.toList := by
  obtain ⟨deck, hdeck, -, hmap⟩ := Deck.exists_of_run joined brief
    ⟨⟨[("0", 0), ("a", 1), ("b", 1)]⟩, [], []⟩
    [⟨.voltageSource, "1", [0, 1], .source 5.0⟩, ⟨.resistor, "1", [1, 0], .value 1e3⟩]
    (by decide +kernel)
  have hindices : deck.nodeMap.indices = [1] := by
    rw [hmap]
    decide +kernel
  have hprints := prints_twoRows hindices
  have hlimit : ¬ ((60.0 : Float) ≤ 0.0) := by decide +kernel
  refine ⟨deck, hdeck, hprints, simulate_carries ?_ hdeck ?_ ?_ ?_ ?_ hprints⟩
  · simp [Settings.checked, brief, Settings.defaults, hlimit]
  · rw [hindices]
    exact List.cons_ne_nil _ _
  · rw [hindices]
    decide
  · decide
  · exact Runner.outcome_of_prompt rfl rfl rfl rfl rfl rfl (by decide +kernel) (by rfl)

end Simulation

end Breadboard
