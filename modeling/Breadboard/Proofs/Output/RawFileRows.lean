import Breadboard.Proofs.Output.TableRows

/-!
# Raw files of any lines

A section holds names of variables and lines, and a row is complete when it has a value for each
variable. So every column of a section is in all of its rows, and their vectors make up a series.
-/

namespace Breadboard

open Text Numeral

namespace RawFile

/-! ## Sections -/

/-- A section that holds nothing but the names of variables in these lines, and lines of them. -/
structure Section.From (ls : List (List Char)) (s : Section) : Prop where
  names : ∀ name ∈ s.names, ∃ line ∈ ls, variableName line = some name
  values : s.values ⊆ ls

theorem Section.From.mono {ls more : List (List Char)} {s : Section} (h : s.From ls)
    (hm : ls ⊆ more) : s.From more where
  names name hname := by
    obtain ⟨line, hl, hvariable⟩ := h.names name hname
    exact ⟨line, hm hl, hvariable⟩
  values _ hl := hm (h.values hl)

theorem takeNames_suffix (ls : List (List Char)) : (takeNames ls).2 <:+ ls := by
  induction ls with
  | nil => exact List.suffix_rfl
  | cons line rest ih =>
    have hrest := ih.trans (List.suffix_cons line rest)
    unfold takeNames
    split
    · exact List.suffix_rfl
    · split
      · exact hrest
      · split
        · exact hrest
        · exact List.suffix_rfl

theorem variableName_of_mem_takeNames {ls : List (List Char)} {name : List Char}
    (h : name ∈ (takeNames ls).1) : ∃ line ∈ ls, variableName line = some name := by
  induction ls with
  | nil => cases h
  | cons line rest ih =>
    have hrest : name ∈ (takeNames rest).1 →
        ∃ l ∈ line :: rest, variableName l = some name := by
      intro hmem
      obtain ⟨l, hl, hvariable⟩ := ih hmem
      exact ⟨l, List.mem_cons_of_mem line hl, hvariable⟩
    unfold takeNames at h
    split at h
    · cases h
    · split at h
      · next found hfound =>
        rcases List.mem_cons.mp h with rfl | hmem
        · exact ⟨line, List.mem_cons_self, hfound⟩
        · exact hrest hmem
      · split at h
        · exact hrest h
        · cases h

theorem from_of_mem_sections {ls : List (List Char)} {s : Section} (h : s ∈ sections ls) :
    s.From ls := by
  fun_induction sections ls with
  | case1 => cases h
  | case2 line rest hmarker names hnil => cases h
  | case3 line rest hmarker names marker tail hnames hvalues values ih =>
    have htail : tail ⊆ line :: rest := by
      have hsuffix : marker :: tail <:+ rest := hnames ▸ takeNames_suffix rest
      exact fun l hl =>
        List.mem_cons_of_mem line (hsuffix.subset (List.mem_cons_of_mem marker hl))
    rcases List.mem_cons.mp h with rfl | hmem
    · constructor
      · intro name hname
        obtain ⟨l, hl, hvariable⟩ := variableName_of_mem_takeNames hname
        exact ⟨l, List.mem_cons_of_mem line hl, hvariable⟩
      · intro l hl
        exact htail ((List.takeWhile_sublist _).subset (List.mem_of_mem_filter hl))
    · exact (ih hmem).mono fun l hl => htail ((List.dropWhile_suffix _).subset hl)
  | case4 line rest hmarker names marker tail hnames hvalues ih =>
    have hsuffix : marker :: tail <:+ rest := hnames ▸ takeNames_suffix rest
    exact (ih h).mono fun l hl => List.mem_cons_of_mem line (hsuffix.subset hl)
  | case5 line rest hmarker ih =>
    exact (ih h).mono (List.subset_cons_self line rest)

/-! ## Values -/

theorem nodeColumns_ok {names : List (List Char)}
    (h : ∀ name ∈ names, ∃ node, voltageNode name = .ok node) (column : Nat)
    (found : List (Int × Nat)) : ∃ columns, nodeColumns column found names = .ok columns := by
  induction names generalizing column found with
  | nil => exact ⟨found, rfl⟩
  | cons name names ih =>
    have hrest := ih fun other hother => h other (List.mem_cons_of_mem name hother)
    obtain ⟨node, hnode⟩ := h name List.mem_cons_self
    unfold nodeColumns
    rw [hnode]
    cases node with
    | none => exact hrest _ _
    | some node => exact hrest _ _

/-- Columns are those of the names. -/
theorem lt_of_nodeColumns {names : List (List Char)} {column : Nat}
    {found columns : List (Int × Nat)} (h : nodeColumns column found names = .ok columns)
    (hf : ∀ c ∈ found, c.2 < column + names.length) :
    ∀ c ∈ columns, c.2 < column + names.length := by
  induction names generalizing column found with
  | nil =>
    cases h
    exact hf
  | cons name names ih =>
    have hshift : column + (name :: names).length = column + 1 + names.length := by
      rw [List.length_cons]
      omega
    rw [hshift] at hf ⊢
    unfold nodeColumns at h
    split at h
    · cases h
    · exact ih h hf
    · next node _ =>
      refine ih h fun c hc => ?_
      rcases Assoc.mem_put hc with rfl | hc
      · show column < column + 1 + names.length
        omega
      · exact hf c hc

theorem readRows_ok (width : Nat) {ls : List (List Char)} (h : ∀ line ∈ ls, ¬ Overlong line)
    (pending : Option (List (List Char))) : ∃ rows, readRows width pending ls = .ok rows := by
  induction ls generalizing pending with
  | nil => exact ⟨[], rfl⟩
  | cons line ls ih =>
    have hrest := ih fun l hl => h l (List.mem_cons_of_mem line hl)
    obtain ⟨row, hrow⟩ := Row.readJoined_ok (h line List.mem_cons_self)
    unfold readRows
    split
    · next tokens pending' _ =>
      obtain ⟨rows, hrows⟩ := hrest pending'
      rw [hrows]
      exact ⟨_, rfl⟩
    · exact hrest _
    · obtain ⟨rows, hrows⟩ := hrest none
      rw [hrow]
      dsimp only
      rw [hrows]
      exact ⟨_, rfl⟩

theorem length_of_lineEffect {width : Nat} {pending next : Option (List (List Char))}
    {found tokens : List (List Char)} (h : lineEffect width pending found = .row tokens next) :
    tokens.length = width := by
  have hpoint : ∀ point : List (List Char), LineEffect.ofPoint width point = .row tokens next →
      tokens.length = width := by
    intro point hp
    unfold LineEffect.ofPoint at hp
    split at hp
    · next hlength =>
      cases hp
      exact hlength
    · cases hp
  unfold lineEffect at h
  split at h
  · cases h
  · split at h
    · exact hpoint _ h
    · cases h
  · split at h
    · split at h
      · next hlength =>
        cases h
        exact hlength
      · split at h
        · exact hpoint _ h
        · cases h
    · cases h

theorem length_of_mem_readRows {width : Nat} {pending : Option (List (List Char))}
    {ls : List (List Char)} {rows : List (List Float)} (h : readRows width pending ls = .ok rows) :
    ∀ row ∈ rows, row.length = width := by
  induction ls generalizing pending rows with
  | nil =>
    cases h
    exact fun _ hrow => nomatch hrow
  | cons line ls ih =>
    unfold readRows at h
    split at h
    · next tokens next heffect =>
      split at h
      · cases h
      · next hrest =>
        cases h
        intro row hrow
        rcases List.mem_append.mp hrow with hrow | hrow
        · have hmap := mapM_eq_some_iff.mp (Option.mem_toList.mp hrow)
          have hlength := congrArg List.length hmap
          rw [List.length_map, List.length_map, length_of_lineEffect heffect] at hlength
          exact hlength.symm
        · exact ih hrest row hrow
    · exact ih h
    · split at h
      · cases h
      · split at h
        · cases h
        · next hrest =>
          cases h
          intro row hrow
          rcases List.mem_append.mp hrow with hrow | hrow
          · have hkept := (Option.filter_eq_some_iff.mp (Option.mem_toList.mp hrow)).2
            exact beq_iff_eq.mp hkept
          · exact ih hrest row hrow

/-- The times that are kept do not run back, also not behind the time before them. -/
theorem runsBack_keepRows (column : Nat) (last : Option Float) (rows : List (List Float)) :
    Series.runsBack (last.toList ++ (keepRows column last rows).map (·.getD column 0.0)) =
      false := by
  induction rows generalizing last with
  | nil => cases last <;> rfl
  | cons row rows ih =>
    unfold keepRows
    dsimp only
    split
    · exact ih last
    · next hkeep => exact Series.runsBack_append hkeep (ih (some (row.getD column 0.0)))

/-- A section whose rows all have the time, and a value for each node. -/
def Section.Complete (s : Section) : Prop :=
  ∀ time columns rows, s.names.findIdx? (· == "time".toList) = some time →
    nodeColumns 0 [] s.names = .ok columns →
    readRows s.names.length none s.values = .ok rows →
    ∀ row ∈ rows, time < row.length ∧ ∀ c ∈ columns, c.2 < row.length

theorem Section.complete (s : Section) : s.Complete := by
  intro time columns rows htime hcolumns hrows row hrow
  rw [length_of_mem_readRows hrows row hrow]
  constructor
  · exact (List.findIdx?_eq_some_iff_findIdx_eq.mp htime).1
  · have hbound := lt_of_nodeColumns hcolumns (fun c hc => nomatch hc)
    rwa [Nat.zero_add] at hbound

theorem Section.read_ok {ls : List (List Char)} {s : Section} (hs : s.From ls)
    (h : ∀ line ∈ ls, ¬ Overlong line) :
    ∃ found, s.read = .ok found ∧ ∀ series ∈ found, series.IsValid := by
  have hnodes : ∀ name ∈ s.names, ∃ node, voltageNode name = .ok node := by
    intro name hname
    obtain ⟨line, hl, hvariable⟩ := hs.names name hname
    exact voltageNode_ok (h line hl) hvariable
  obtain ⟨columns, hcolumns⟩ := nodeColumns_ok hnodes 0 []
  obtain ⟨rows, hrows⟩ := readRows_ok s.names.length
    (fun line hl => h line (hs.values hl)) none
  unfold Section.read
  split
  · exact ⟨none, rfl, fun _ hx => nomatch hx⟩
  · next time _ =>
    rw [hcolumns, hrows]
    dsimp only
    split
    · exact ⟨none, rfl, fun _ hx => nomatch hx⟩
    · refine ⟨_, rfl, ?_⟩
      rintro _ ⟨⟩
      refine Series.isValid_of_voltages ?_ (runsBack_keepRows time none rows)
      intro v hv
      obtain ⟨c, -, rfl⟩ := List.mem_map.mp hv
      rw [List.length_map, List.length_map]

theorem readSections_ok {ls : List (List Char)} {found : List Section}
    (hs : ∀ s ∈ found, s.From ls) (h : ∀ line ∈ ls, ¬ Overlong line) :
    ∃ series, readSections found = .ok series ∧ ∀ x ∈ series, x.IsValid := by
  induction found with
  | nil => exact ⟨none, rfl, fun _ hx => nomatch hx⟩
  | cons s found ih =>
    obtain ⟨hfirst, hrest⟩ := List.forall_mem_cons.mp hs
    obtain ⟨series, hread, hvalid⟩ := s.read_ok hfirst h
    unfold readSections
    rw [hread]
    cases series with
    | none => exact ih hrest
    | some series => exact ⟨some series, rfl, hvalid⟩

theorem read_ok {out : String} (h : ∀ line ∈ lines out, ¬ Overlong line) :
    ∃ found, read out = .ok found ∧ ∀ s ∈ found, s.IsValid :=
  readSections_ok (fun _ hs => from_of_mem_sections hs) h

end RawFile

end Breadboard
