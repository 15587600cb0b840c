import Breadboard.Output.Table
import Breadboard.Proofs.Output.PrintedRow
import Breadboard.Proofs.Text.Letters

/-!
# Printed headers

A printed table is headed by the words Index and time and the names of its vectors. The header is
read as the nodes of the vectors, and neither a row nor a blank or dashed line is taken for one.
-/

namespace Breadboard

open Text Numeral

/-! ## The decimal digits of a number -/

theorem ofDigits_eq_ofDigitChars {ds : List Char} (h : ∀ c ∈ ds, c.isDigit) :
    Decimal.ofDigits (ds.filterMap digitValue?) = Nat.ofDigitChars 10 ds 0 := by
  have hvalues : ds.filterMap digitValue? = ds.map fun c => c.toNat - '0'.toNat := by
    induction ds with
    | nil => rfl
    | cons d ds ih =>
      rw [List.filterMap_cons_some (digitValue?_ascii (h d List.mem_cons_self)), List.map_cons,
        ih fun c hc => h c (List.mem_cons_of_mem d hc)]
      rfl
  rw [hvalues, Decimal.ofDigits, List.foldl_map, Nat.ofDigitChars_eq_foldl]

theorem writesIndex_toDigits {n : Nat} (h : (Nat.toDigits 10 n).length ≤ maxDigits) :
    WritesIndex (Nat.toDigits 10 n) n := by
  have hdigits : ∀ c ∈ Nat.toDigits 10 n, c.isDigit :=
    fun c hc => Nat.isDigit_of_mem_toDigits (by decide) (by decide) hc
  refine ⟨fun c hc => isDecimal_of_isDigit (hdigits c hc), Nat.toDigits_ne_nil, h, ?_⟩
  rw [ofDigits_eq_ofDigitChars hdigits, Nat.ofDigitChars_ten_toDigits]

namespace Table

/-- A line that heads a table of these vectors. -/
def Heads (vectors : List String) (line : List Char) : Prop :=
  words line = "Index".toList :: "time".toList :: vectors.map String.toList

/-- The name of the voltage vector of a node. -/
def vectorName (node : Int) : String := s!"v({node})"

theorem toList_vectorName (n : Nat) :
    (vectorName n).toList = 'v' :: '(' :: (Nat.toDigits 10 n ++ [')']) := by
  have hrepr : (toString (n : Int)).toList = Nat.toDigits 10 n := Nat.toList_repr
  show (("v(" ++ toString (n : Int)) ++ ")").toList = _
  rw [String.toList_append, String.toList_append, hrepr]
  rfl

/-! ## Reading a header -/

theorem behindBlanks_eq {cs w rest : List Char} (hd : Detached cs) (ht : trimStart cs = w ++ rest)
    (hw : w ≠ []) : behindBlanks cs = some (w ++ rest) := by
  cases cs with
  | nil =>
    rw [trimStart, List.dropWhile_nil] at ht
    exact absurd (List.append_eq_nil_iff.mp ht.symm).1 hw
  | cons c cs =>
    unfold behindBlanks
    rw [List.head?_cons, Option.any_some, hd c rfl, if_pos rfl, ht]

/-- Without a further word there is no column and nothing but blanks. -/
theorem column_of_words_nil {cs : List Char} (h : words cs = []) :
    column cs = none ∧ allBlank cs = true := by
  have htrim := trimStart_of_words_nil h
  constructor
  · unfold column behindBlanks
    rw [htrim]
    split <;> rfl
  · unfold allBlank
    rw [List.all_eq_true]
    exact List.dropWhile_eq_nil_iff.mp htrim

theorem column_vectorName {cs rest : List Char} {n : Nat} (hd : Detached cs)
    (hn : (Nat.toDigits 10 n).length ≤ maxDigits)
    (ht : trimStart cs = (vectorName n).toList ++ rest) :
    column cs = some ((Nat.toDigits 10 n).filterMap digitValue?, rest) := by
  have hw := writesIndex_toDigits hn
  have hvalues := filterMap_digitValue?_ne_nil hw.digits hw.pos
  have hends : EndsDigits (')' :: rest) := endsDigits_cons.mpr (by decide)
  have hblanks := behindBlanks_eq hd ht (by rw [toList_vectorName]; exact List.cons_ne_nil _ _)
  have hopened : skipWord "v(".toList ((vectorName n).toList ++ rest) =
      some (Nat.toDigits 10 n ++ ')' :: rest) := by
    rw [toList_vectorName, List.cons_append, List.cons_append, List.append_assoc]
    simp [skipWord, foldsTo]
  have hclosing : trimStart (')' :: rest) = ')' :: rest := by
    rw [trimStart, List.dropWhile_cons_of_neg (by decide)]
  unfold column
  simp only [hblanks, hopened, Option.bind_eq_bind, Option.bind_some,
    trimStart_append hw.isWord, digits_append hw.digits hends, hclosing]

theorem columns_of_words {nodes : List Nat}
    (hn : ∀ n ∈ nodes, (Nat.toDigits 10 n).length ≤ maxDigits) {cs : List Char} (hd : Detached cs)
    (hw : words cs = nodes.map fun n : Nat => (vectorName n).toList) :
    columns cs = some (nodes.map fun n => (Nat.toDigits 10 n).filterMap digitValue?) := by
  induction nodes generalizing cs with
  | nil =>
    obtain ⟨hnone, hblank⟩ := column_of_words_nil hw
    rw [columns]
    split
    · rw [if_pos hblank]
      rfl
    · next heq => rw [hnone] at heq; cases heq
  | cons n nodes ih =>
    obtain ⟨rest, ht, hrest, hwords, -⟩ := exists_of_words_eq_cons hw
    have hcolumn := column_vectorName hd (hn n List.mem_cons_self) ht
    rw [columns]
    split
    · next heq => rw [hcolumn] at heq; cases heq
    · next ds after heq =>
      rw [hcolumn] at heq
      cases heq
      rw [ih (fun m hm => hn m (List.mem_cons_of_mem n hm)) hrest hwords]
      rfl

theorem mapM_natural_of_short {found : List (List Nat)} (h : ∀ ds ∈ found, ds.length ≤ maxDigits) :
    found.mapM natural = .ok (found.map Decimal.ofDigits) := by
  induction found with
  | nil => rfl
  | cons ds found ih =>
    rw [List.mapM_cons, natural_ok (h ds List.mem_cons_self),
      ih fun es hes => h es (List.mem_cons_of_mem ds hes)]
    rfl

theorem mapM_natural {nodes : List Nat}
    (hn : ∀ n ∈ nodes, (Nat.toDigits 10 n).length ≤ maxDigits) :
    (nodes.map fun n => (Nat.toDigits 10 n).filterMap digitValue?).mapM natural = .ok nodes := by
  rw [mapM_natural_of_short, List.map_map, List.map_congr_left (g := id), List.map_id]
  · intro n hmem
    exact (writesIndex_toDigits (hn n hmem)).value
  · intro ds hds
    obtain ⟨n, hmem, rfl⟩ := List.mem_map.mp hds
    have hw := writesIndex_toDigits (hn n hmem)
    rw [length_filterMap_digitValue? hw.digits]
    exact hw.short

theorem headerColumns_of_heads {nodes : List Nat} {line : List Char}
    (hn : ∀ n ∈ nodes, (Nat.toDigits 10 n).length ≤ maxDigits) (hne : nodes ≠ [])
    (h : Heads (nodes.map fun n : Nat => vectorName n) line) :
    headerColumns line =
      some (nodes.map fun n => (Nat.toDigits 10 n).filterMap digitValue?) := by
  unfold Heads at h
  rw [List.map_map] at h
  obtain ⟨behind, hindex, hdetached, htime, -⟩ := exists_of_words_eq_cons h
  obtain ⟨rest, htrim, hrest, hvectors, -⟩ := exists_of_words_eq_cons htime
  have hskipIndex : skipWord "index".toList ("Index".toList ++ behind) = some behind := by
    simp [skipWord, foldsTo]
  have hskipTime : skipWord "time".toList ("time".toList ++ rest) = some rest := by
    simp [skipWord, foldsTo]
  have hblanks := behindBlanks_eq hdetached htrim (by decide)
  have hcolumns := columns_of_words hn hrest hvectors
  have hfound : (nodes.map fun n => (Nat.toDigits 10 n).filterMap digitValue?).isEmpty = false := by
    simp [hne]
  unfold headerColumns
  simp only [hindex, hskipIndex, Option.bind_some, hblanks, Option.getD_some, hskipTime,
    Option.bind_eq_bind, hcolumns, hfound, Bool.false_eq_true, if_false]

/-- A node number that is not negative and can be read back. -/
def IsNode (k : Int) : Prop := 0 ≤ k ∧ (toString k).length ≤ maxDigits

instance (k : Int) : Decidable (IsNode k) :=
  inferInstanceAs (Decidable (0 ≤ k ∧ (toString k).length ≤ maxDigits))

theorem exists_nat_of_isNode {columns : List Int} (hn : ∀ k ∈ columns, IsNode k) :
    ∃ nodes : List Nat, columns = nodes.map Int.ofNat ∧
      ∀ n ∈ nodes, (Nat.toDigits 10 n).length ≤ maxDigits := by
  refine ⟨columns.map Int.toNat, ?_, ?_⟩
  · rw [List.map_map, List.map_congr_left (g := id) fun k hk => ?_, List.map_id]
    exact Int.toNat_of_nonneg (hn k hk).1
  · intro n hmem
    obtain ⟨k, hk, rfl⟩ := List.mem_map.mp hmem
    obtain ⟨hpos, hlen⟩ := hn k hk
    obtain ⟨n, rfl⟩ := Int.eq_ofNat_of_zero_le hpos
    rw [← Nat.toList_repr, String.length_toList]
    exact hlen

/-- A header is read as the nodes of its vectors. -/
theorem header_of_heads {columns : List Int} {line : List Char} (hn : ∀ k ∈ columns, IsNode k)
    (hne : columns ≠ []) (h : Heads (columns.map vectorName) line) :
    header line = .ok (some columns) := by
  obtain ⟨nodes, rfl, hlen⟩ := exists_nat_of_isNode hn
  rw [List.map_map] at h
  have hheader := headerColumns_of_heads hlen (fun hnil => hne (by rw [hnil]; rfl)) h
  unfold header
  simp only [hheader, mapM_natural hlen]
  rfl

/-! ## Lines that are no headers -/

/-- A digit is not taken for a letter. -/
theorem foldsTo_of_isDecimal {p c : Char} (hc : isDecimal c) (hp : isDecimal p = false) :
    foldsTo p c = false := by
  have hletter : c ≠ p := ne_of_isDecimal hc hp
  have hne : ∀ n, isDecimal (Char.ofNat n) = false → c.toNat ≠ n := by
    rintro n hn rfl
    rw [Char.ofNat_toNat, hc] at hn
    cases hn
  have h₁ := hne 0x130 (by decide)
  have h₂ := hne 0x131 (by decide)
  have h₃ := hne 0x17F (by decide)
  have h₄ := hne 0x212A (by decide)
  simp [foldsTo, toLower_of_isDecimal hc, hletter, h₁, h₂, h₃, h₄]

theorem skipWord_eq_none {p : Char} {ps cs : List Char} (h : ∀ c ∈ cs.head?, foldsTo p c = false) :
    skipWord (p :: ps) cs = none := by
  cases cs with
  | nil => rfl
  | cons c cs =>
    unfold skipWord
    rw [h c rfl, if_neg Bool.false_ne_true]

theorem headerColumns_of_skipWord {line : List Char}
    (hindex : skipWord "index".toList (trimStart line) = none)
    (htime : skipWord "time".toList (trimStart line) = none) : headerColumns line = none := by
  unfold headerColumns
  simp only [hindex, Option.bind_none, Option.getD_none, htime, Option.bind_eq_bind]

theorem headerColumns_eq_none {line : List Char}
    (h : ∀ c ∈ (trimStart line).head?, foldsTo 'i' c = false ∧ foldsTo 't' c = false) :
    headerColumns line = none :=
  headerColumns_of_skipWord (skipWord_eq_none fun c hc => (h c hc).1)
    (skipWord_eq_none fun c hc => (h c hc).2)

theorem header_eq_none {line : List Char} (h : headerColumns line = none) :
    header line = .ok none := by
  unfold header
  rw [h]

theorem exists_head_of_printsRow {index : Nat} {tokens : List Scientific} {line : List Char}
    (h : PrintsRow index tokens line) : ∃ d ∈ (trimStart line).head?, isDecimal d := by
  obtain ⟨ds, hds, hs⟩ := h
  obtain ⟨rest, htrim, -⟩ := hs.trimStart_eq hds.isWord
  obtain ⟨d, ds', rfl⟩ := List.exists_cons_of_ne_nil hds.pos
  exact ⟨d, by rw [htrim]; rfl, hds.digits d List.mem_cons_self⟩

/-- A row is no header. -/
theorem header_of_printsRow {index : Nat} {tokens : List Scientific} {line : List Char}
    (h : PrintsRow index tokens line) : header line = .ok none := by
  obtain ⟨d, hd, hdigit⟩ := exists_head_of_printsRow h
  refine header_eq_none (headerColumns_eq_none ?_)
  intro c hc
  obtain rfl : d = c := Option.some.inj (hd.symm.trans hc)
  exact ⟨foldsTo_of_isDecimal hdigit (by decide), foldsTo_of_isDecimal hdigit (by decide)⟩

theorem isRule_of_printsRow {index : Nat} {tokens : List Scientific} {line : List Char}
    (h : PrintsRow index tokens line) : isRule line = false := by
  obtain ⟨d, hd, hdigit⟩ := exists_head_of_printsRow h
  have hne : (d == '-') = false := by simpa using ne_of_isDecimal hdigit (by decide)
  rw [isRule, List.all_eq_false]
  exact ⟨d, mem_trim_of_head hd, by simp [hne]⟩

theorem header_of_isRule {line : List Char} (h : isRule line) : header line = .ok none := by
  refine header_eq_none (headerColumns_eq_none ?_)
  intro c hc
  have hdash := List.all_eq_true.mp h c (mem_trim_of_head hc)
  rw [beq_iff_eq.mp hdash]
  decide

end Table

end Breadboard
