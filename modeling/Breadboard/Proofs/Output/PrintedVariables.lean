import Breadboard.Proofs.Output.RawFileRows

/-!
# Printed variables

A raw file section declares its variables one to a line, by number and name. The names are read in
their order, in small letters, and each node among them gets the column of its name.
-/

namespace Breadboard

open Text Numeral

namespace RawFile

/-- A number that counts variables or points. -/
def IsCount (w : List Char) : Prop := w ≠ [] ∧ ∀ c ∈ w, c.isDigit

/-- A line that holds this word and nothing else, in letters of any size. -/
def Marks (marker : String) (line : List Char) : Prop :=
  ∃ w, words line = [w] ∧ lowerAscii w = marker.toList

/-- A line that declares a variable: a number, the name in letters of any size, and whatever else
there is. -/
def Declares (name line : List Char) : Prop :=
  ∃ k w more, words line = k :: w :: more ∧ IsCount k ∧ lowerAscii w = name

variable {name line : List Char} {names ls : List (List Char)}

theorem IsCount.isDecimal {w : List Char} (h : IsCount w) : ∀ c ∈ w, isDecimal c :=
  fun c hc => isDecimal_of_isDigit (h.2 c hc)

theorem isMarker_of_marks {marker : String} (h : Marks marker line) : isMarker marker line := by
  obtain ⟨w, hwords, hw⟩ := h
  rw [isMarker, trim_of_words_eq_singleton hwords, hw, beq_self_eq_true]

/-! ## Names -/

theorem isMarker_of_declares {marker : String} (h : Declares name line)
    (hm : ∀ c ∈ marker.toList, isDecimal c = false) : isMarker marker line = false := by
  obtain ⟨k, w, more, hwords, hk, -⟩ := h
  obtain ⟨rest, htrim, -, -, -⟩ := exists_of_words_eq_cons hwords
  obtain ⟨d, k, rfl⟩ := List.exists_cons_of_ne_nil hk.1
  have hd := hk.isDecimal d List.mem_cons_self
  have hmem : d ∈ trim line := mem_trim_of_head (by rw [htrim]; rfl)
  rw [isMarker, beq_eq_false_iff_ne]
  intro heq
  have hlow : d.toLower ∈ marker.toList := heq ▸ List.mem_map_of_mem hmem
  rw [toLower_of_isDecimal hd] at hlow
  exact absurd hd (by simp [hm d hlow])

theorem variableName_of_declares (h : Declares name line) : variableName line = some name := by
  obtain ⟨k, w, more, hwords, hk, rfl⟩ := h
  obtain ⟨rest, htrim, hrest, hmore, -⟩ := exists_of_words_eq_cons hwords
  obtain ⟨tail, hbehind, htail, -, hw⟩ := exists_of_words_eq_cons hmore
  have hends : EndsDigits rest := fun c hc => isDecimal_of_isBlank (hrest c hc)
  have hvalues := filterMap_digitValue?_ne_nil hk.isDecimal hk.1
  have hblank : rest.head?.any isBlank := by
    cases rest with
    | nil =>
      rw [words_nil] at hmore
      cases hmore
    | cons b rest => exact hrest b rfl
  have htake := takeWhile_word hw htail
  unfold variableName
  rw [htrim, digits_append hk.isDecimal hends]
  simp only [hblank, if_true, hbehind, htake]
  cases w with
  | nil => exact absurd rfl hw.1
  | cons c w => rfl

/-- The names are taken up to the marker of the values. -/
theorem takeNames_of_declares (h : List.Forall₂ Declares names ls) {marker : List Char}
    (hm : Marks "values:" marker) (rest : List (List Char)) :
    takeNames (ls ++ marker :: rest) = (names, marker :: rest) := by
  induction h with
  | nil =>
    rw [List.nil_append, takeNames, if_pos (isMarker_of_marks hm)]
  | @cons name line names ls hline _ ih =>
    have hno : isMarker "values:" line = false :=
      isMarker_of_declares hline (List.all_iff_forall_prop.mp (by decide))
    rw [List.cons_append, takeNames, hno, if_neg Bool.false_ne_true, variableName_of_declares hline]
    simp only [ih]

/-! ## Nodes -/

/-- The name of the voltage of a node. -/
def IsVoltage (name : List Char) (node : Int) : Prop :=
  ∃ ds n, WritesIndex ds n ∧ node = Int.ofNat n ∧ name = 'v' :: '(' :: (ds ++ [')'])

/-- A name with a node is a run of digits in brackets behind the letter v. -/
theorem exists_of_voltageNode_some {node : Int} (h : voltageNode name = .ok (some node)) :
    ∃ c run n, name = c :: '(' :: (run ++ [')']) ∧ foldsTo 'v' c ∧ WritesIndex run n ∧
      node = Int.ofNat n := by
  unfold voltageNode at h
  split at h
  · cases h
  · next cs hskip =>
    obtain ⟨c, hc, rfl⟩ := exists_of_skipWord_v hskip
    split at h
    · cases h
    · next ds hpos hdigits =>
      obtain ⟨run, rfl, hrun, rfl⟩ := exists_of_digits hdigits
      have hlength := length_filterMap_digitValue? hrun
      split at h
      · cases h
      · next n hnatural =>
        cases h
        have hshort : (run.filterMap digitValue?).length ≤ maxDigits := by
          refine Nat.not_lt.mp fun hlong => ?_
          rw [natural_eq_error_iff.mpr ⟨hlong, rfl⟩] at hnatural
          cases hnatural
        rw [natural_ok hshort] at hnatural
        refine ⟨c, run, n, rfl, hc, ⟨hrun, ?_, hlength ▸ hshort, Except.ok.inj hnatural⟩, rfl⟩
        rintro rfl
        exact hpos rfl
    · cases h

/-- Of the letters that are read as a small v, only that one is small. -/
theorem eq_of_foldsTo_v {c : Char} {cs : List Char} (hlow : lowerAscii (c :: cs) = c :: cs)
    (h : foldsTo 'v' c) : c = 'v' := by
  have hsmall : c.toLower = c := (List.cons.inj hlow).1
  simpa [foldsTo, hsmall] using h

theorem voltageNode_eq_some_iff (hlow : lowerAscii name = name) {node : Int} :
    voltageNode name = .ok (some node) ↔ IsVoltage name node := by
  constructor
  · intro h
    obtain ⟨c, run, n, rfl, hfolds, hrun, rfl⟩ := exists_of_voltageNode_some h
    exact ⟨run, n, hrun, rfl, by rw [eq_of_foldsTo_v hlow hfolds]⟩
  · rintro ⟨ds, n, hds, rfl, rfl⟩
    have hskip : skipWord "v(".toList ('v' :: '(' :: (ds ++ [')'])) = some (ds ++ [')']) := by
      simp [skipWord, foldsTo]
    have hends : EndsDigits [')'] := endsDigits_cons.mpr (by decide)
    have hrun := digits_append hds.digits hends
    obtain ⟨v, vs, hv⟩ :=
      List.exists_cons_of_ne_nil (filterMap_digitValue?_ne_nil hds.digits hds.pos)
    have hnatural := hds.natural_eq
    rw [hv] at hrun hnatural
    unfold voltageNode
    simp only [hskip, hrun, hnatural]
    rfl

theorem voltageNode_ok_of_short (hlow : lowerAscii name = name)
    (hshort : ∀ ds, (∀ c ∈ ds, isDecimal c) → name = 'v' :: '(' :: (ds ++ [')']) →
      ds.length ≤ maxDigits) : ∃ node, voltageNode name = .ok node := by
  cases hread : voltageNode name with
  | ok node => exact ⟨node, rfl⟩
  | error e =>
    obtain ⟨c, run, hfolds, rfl, hrun, hlong⟩ := exists_of_voltageNode hread
    have hlength := hshort run hrun (by rw [eq_of_foldsTo_v hlow hfolds])
    exact absurd hlong (Nat.not_lt.mpr hlength)

/-! ## Columns -/

section Columns

variable {column : Nat} {found columns : List (Int × Nat)} {k : Int}

theorem nodup_keys_nodeColumns (h : nodeColumns column found names = .ok columns)
    (hd : (Assoc.keys found).Nodup) : (Assoc.keys columns).Nodup := by
  induction names generalizing column found with
  | nil =>
    cases h
    exact hd
  | cons name names ih =>
    unfold nodeColumns at h
    split at h
    · cases h
    · exact ih h hd
    · exact ih h (Assoc.nodup_keys_put hd _ _)

/-- A node that none of the names has keeps its column. -/
theorem lookup_nodeColumns_of_forall_ne (h : nodeColumns column found names = .ok columns)
    (hk : ∀ name ∈ names, voltageNode name ≠ .ok (some k)) :
    columns.lookup k = found.lookup k := by
  induction names generalizing column found with
  | nil =>
    cases h
    rfl
  | cons name names ih =>
    obtain ⟨hname, hrest⟩ := List.forall_mem_cons.mp hk
    unfold nodeColumns at h
    split at h
    · cases h
    · exact ih h hrest
    · next node hnode =>
      have hne : (k == node) = false := by
        rw [beq_eq_false_iff_ne]
        rintro rfl
        exact hname hnode
      rw [ih h hrest, Assoc.lookup_put, hne, if_neg Bool.false_ne_true]

theorem lookup_nodeColumns (h : nodeColumns column found names = .ok columns) {i : Nat}
    (hi : names[i]? = some name) (hname : voltageNode name = .ok (some k))
    (honly : ∀ j other, names[j]? = some other → voltageNode other = .ok (some k) → j = i) :
    columns.lookup k = some (column + i) := by
  induction names generalizing column found i with
  | nil => cases hi
  | cons first names ih =>
    cases i with
    | zero =>
      obtain rfl : first = name := Option.some.inj hi
      have hrest : ∀ other ∈ names, voltageNode other ≠ .ok (some k) := by
        intro other hother hnode
        obtain ⟨j, hj⟩ := List.mem_iff_getElem?.mp hother
        exact absurd (honly (j + 1) other hj hnode) (Nat.succ_ne_zero j)
      unfold nodeColumns at h
      rw [hname] at h
      rw [lookup_nodeColumns_of_forall_ne h hrest, Assoc.lookup_put, beq_self_eq_true, if_pos rfl,
        Nat.add_zero]
    | succ i =>
      have honly' : ∀ j other, names[j]? = some other → voltageNode other = .ok (some k) → j = i :=
        fun j other hj hnode => Nat.succ.inj (honly (j + 1) other hj hnode)
      unfold nodeColumns at h
      split at h
      · cases h
      · rw [ih h hi honly']
        congr 1
        omega
      · rw [ih h hi honly']
        congr 1
        omega

end Columns

/-- Names of variables in small letters: none twice, a time among them, and no node under two names
or with a number that is too long to read. -/
structure WellNamed (names : List (List Char)) : Prop where
  small : ∀ name ∈ names, lowerAscii name = name
  distinct : names.Nodup
  time : "time".toList ∈ names
  short : ∀ ds, (∀ c ∈ ds, isDecimal c) → 'v' :: '(' :: (ds ++ [')']) ∈ names →
    ds.length ≤ maxDigits
  nodes : ∀ a ∈ names, ∀ b ∈ names, ∀ k, IsVoltage a k → IsVoltage b k → a = b

/-- The columns of the nodes are those of their names, and no other node has one. -/
theorem WellNamed.exists_nodeColumns (h : WellNamed names) :
    ∃ columns, nodeColumns 0 [] names = .ok columns ∧ (Assoc.keys columns).Nodup ∧
      (∀ k, k ∈ Assoc.keys columns ↔ ∃ name ∈ names, IsVoltage name k) ∧
      ∀ name k i, names[i]? = some name → IsVoltage name k → columns.lookup k = some i := by
  have hiff : ∀ name ∈ names, ∀ k, voltageNode name = .ok (some k) ↔ IsVoltage name k :=
    fun name hname k => voltageNode_eq_some_iff (h.small name hname)
  obtain ⟨columns, hcolumns⟩ := nodeColumns_ok (fun name hname => voltageNode_ok_of_short
    (h.small name hname) fun ds hds heq => h.short ds hds (heq ▸ hname)) 0 []
  have hlookup : ∀ name k i, names[i]? = some name → IsVoltage name k →
      columns.lookup k = some i := by
    intro name k i hi hk
    have hname := List.mem_of_getElem? hi
    rw [lookup_nodeColumns hcolumns hi ((hiff name hname k).mpr hk), Nat.zero_add]
    intro j other hj hnode
    have hother := List.mem_of_getElem? hj
    obtain rfl := h.nodes other hother name hname k ((hiff other hother k).mp hnode) hk
    exact (List.getElem?_inj (List.getElem?_eq_some_iff.mp hj).1 h.distinct).mp (hj.trans hi.symm)
  refine ⟨columns, hcolumns, nodup_keys_nodeColumns hcolumns List.nodup_nil, fun k => ?_, hlookup⟩
  constructor
  · intro hk
    by_contra hnone
    have hlookup : columns.lookup k = none := by
      rw [lookup_nodeColumns_of_forall_ne hcolumns, List.lookup_nil]
      exact fun name hname hnode => hnone ⟨name, hname, (hiff name hname k).mp hnode⟩
    exact Assoc.lookup_eq_none_iff.mp hlookup hk
  · rintro ⟨name, hname, hk⟩
    obtain ⟨i, hi⟩ := List.mem_iff_getElem?.mp hname
    exact List.mem_map_of_mem (Assoc.mem_of_lookup (hlookup name k i hi hk))

end RawFile

end Breadboard
