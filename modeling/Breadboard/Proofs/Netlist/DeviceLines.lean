import Breadboard.Proofs.Decimal.Printed
import Breadboard.Proofs.Netlist.Reordering

/-!
# The words of device lines

A device line is its name, the nodes of its pins and its value or model, each a word of its own if
the designator holds no blank. The nodes are written in decimal digits, and the value is a finite
number.
-/

namespace Breadboard

open Text Numeral

/-- What holds of every line of a deck: it has a designator, a node for each required pin, and the
value or model of some component. -/
structure DeviceLine.Formed (l : DeviceLine) : Prop where
  designator : l.designator ≠ ""
  length_nodes : l.nodes.length = l.device.requiredPins.length
  nonneg : ∀ k ∈ l.nodes, 0 ≤ k
  tail : ∃ c, l.tail = l.device.tail c

theorem Component.designator_ne_empty (c : Component) : c.designator ≠ "" := by
  unfold designator
  split
  · intro h
    have hlist := congrArg String.toList h
    rw [String.toList_append, String.toList_empty, List.append_eq_nil_iff] at hlist
    exact c.kindName_ne_empty (String.toList_eq_nil_iff.mp hlist.1)
  · next href =>
    intro h
    exact href (by rw [h]; rfl)

theorem Deck.formed_of_mem {components : List Component} {s : Settings} {deck : Deck}
    (h : ofComponents components s = .ok deck) : ∀ l ∈ deck.deviceLines, l.Formed := by
  intro l hl
  obtain ⟨a, hrun, -, -⟩ := exists_run h
  have ht := (Assembly.run_grows hrun).numbered NodeTable.numbered_start
  obtain ⟨⟨d, c⟩, hp, hline⟩ := (mem_iff_of_mapM_eq_some (TwoPass.mapM_lineAt_of_run hrun)).mp hl
  obtain ⟨nodes, hnodes, rfl⟩ := Option.map_eq_some_iff.mp hline
  have hlength := congrArg List.length (mapM_eq_some_iff.mp hnodes)
  refine ⟨c.designator_ne_empty, ?_, ?_, c, rfl⟩
  · show nodes.length = d.requiredPins.length
    simpa using hlength.symm
  · intro k hk
    obtain ⟨net, -, hnet⟩ := (mem_iff_of_mapM_eq_some hnodes).mp hk
    exact ht.nonneg (Assoc.mem_of_lookup hnet)

/-! ## Words of a line -/

namespace Text

/-- Words with one blank between them and a detached text behind them. -/
theorem words_intercalate {ws : List (List Char)} (hw : ∀ w ∈ ws, IsWord w) {rest : List Char}
    (hr : Detached rest) : words ([' '].intercalate ws ++ rest) = ws ++ words rest := by
  induction ws with
  | nil => rfl
  | cons w ws ih =>
    obtain ⟨hfirst, hothers⟩ := List.forall_mem_cons.mp hw
    cases ws with
    | nil => rw [List.intercalate_singleton, words_append_detached hfirst hr, List.singleton_append]
    | cons v vs =>
      have hblank : isBlank ' ' = true := by decide
      rw [List.intercalate_cons_cons, List.append_assoc, List.append_assoc, List.singleton_append,
        words_append_detached hfirst (detached_cons hblank _), words_cons_blank hblank, ih hothers]
      rfl

end Text

namespace DeviceLine

variable {l : DeviceLine}

/-- The words that a device line ends in. -/
def tailWords : LineTail → List (List Char)
  | .value v => [(Quantity.forDeck v).toList]
  | .source v => ["DC".toList, (Quantity.forDeck v).toList]
  | .model name => words name.toList

theorem words_tailText (t : LineTail) : words (tailText t).toList = tailWords t := by
  have hvalue (v : Float) : words (Quantity.forDeck v).toList = [(Quantity.forDeck v).toList] := by
    obtain ⟨_, -, -, -, hword⟩ := Quantity.exists_read_forDeck v
    exact words_of_isWord hword
  cases t with
  | value v => exact hvalue v
  | source v =>
    have hword : IsWord "DC".toList := ⟨by decide, List.all_iff_forall_prop.mp (by decide)⟩
    have hblank : isBlank ' ' = true := by decide
    have htext : (tailText (.source v)).toList =
        "DC".toList ++ ' ' :: (Quantity.forDeck v).toList := by
      show ("DC " ++ Quantity.forDeck v).toList = _
      rw [String.toList_append]
      rfl
    rw [htext, words_append_detached hword (detached_cons hblank _), words_cons_blank hblank,
      hvalue]
    rfl
  | model name => rfl

/-- The letters of devices are capitals: no blanks, and nothing that opens a comment, a directive or
a continuation. -/
theorem exists_letter (d : Device) :
    ∃ c, d.letter.toList = [c] ∧ isBlank c = false ∧ "*.+;".toList.contains c = false ∧
      foldsTo '.' c = false := by
  cases d <;> exact ⟨_, rfl, by decide, by decide, by decide⟩

/-- The digits of a node. -/
def nodeChars (k : Int) : List Char := (toString k).toList

theorem nodeChars_eq {k : Int} (hk : 0 ≤ k) : nodeChars k = Nat.toDigits 10 k.toNat := by
  obtain ⟨n, rfl⟩ := Int.eq_ofNat_of_zero_le hk
  exact Nat.toList_repr

theorem isWord_nodeChars {k : Int} (hk : 0 ≤ k) : IsWord (nodeChars k) := by
  rw [nodeChars_eq hk]
  refine ⟨Nat.toDigits_ne_nil, fun c hc => isBlank_of_isDecimal (isDecimal_of_isDigit ?_)⟩
  exact Nat.isDigit_of_mem_toDigits (by decide) (by decide) hc

theorem toList_name (l : DeviceLine) :
    l.name.toList = l.device.letter.toList ++ l.designator.toList := String.toList_append

theorem isWord_name (hd : ∀ c ∈ l.designator.toList, isBlank c = false) : IsWord l.name.toList := by
  obtain ⟨c, hletter, hblank, -⟩ := exists_letter l.device
  rw [toList_name, hletter]
  exact ⟨List.cons_ne_nil _ _, List.forall_mem_cons.mpr ⟨hblank, hd⟩⟩

theorem toList_text (l : DeviceLine) :
    l.text.toList = l.name.toList ++
      ' ' :: ([' '].intercalate (l.nodes.map nodeChars) ++ ' ' :: (tailText l.tail).toList) := by
  show (l.name ++ " " ++ " ".intercalate (l.nodes.map toString) ++ " " ++
    tailText l.tail).toList = _
  simp only [String.toList_append, String.toList_intercalate, List.map_map, List.append_assoc]
  rfl

theorem words_text_eq (hn : ∀ k ∈ l.nodes, 0 ≤ k) :
    words l.text.toList = words l.name.toList ++ (l.nodes.map nodeChars ++ tailWords l.tail) := by
  have hblank : isBlank ' ' = true := by decide
  have hnodes : ∀ w ∈ l.nodes.map nodeChars, IsWord w := by
    rw [List.forall_mem_map]
    exact fun k hk => isWord_nodeChars (hn k hk)
  rw [toList_text, words_append_cons_blank hblank,
    words_intercalate hnodes (detached_cons hblank _), words_cons_blank hblank, words_tailText]

theorem words_text (hf : l.Formed) (hd : ∀ c ∈ l.designator.toList, isBlank c = false) :
    words l.text.toList = l.name.toList :: (l.nodes.map nodeChars ++ tailWords l.tail) := by
  rw [words_text_eq hf.nonneg, words_of_isWord (isWord_name hd), List.singleton_append]

end DeviceLine

end Breadboard
