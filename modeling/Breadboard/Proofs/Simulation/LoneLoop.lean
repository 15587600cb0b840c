import Breadboard.OhmsLaw
import Breadboard.Proofs.Decimal.Order
import Breadboard.Proofs.Netlist.DeckLayout
import Breadboard.Proofs.Netlist.DeviceLines
import Breadboard.Proofs.Text.Lines

/-!
# A source across a resistor

A deck is solved by Ohm's law exactly when its device lines are one voltage source and one resistor
across it, of a printed resistance above zero. All other lines of the deck are passed over, and the
nodes and numbers are read as they were printed.
-/

namespace Breadboard

open Text Numeral

/-! ## The lines of a deck -/

namespace Text

theorem intercalate_eq_unlines (ls : List String) :
    "\n".intercalate (ls ++ [""]) = unlines (ls.map String.toList) := by
  induction ls with
  | nil => rfl
  | cons l ls ih =>
    have hne : ls ++ [""] ≠ [] := by simp
    rw [List.cons_append, String.intercalate_cons_of_ne_nil hne, ih]
    unfold unlines
    rw [List.map_cons, List.flatMap_cons, String.ofList_append, String.ofList_append,
      String.ofList_toList]

end Text

namespace Deck

variable {components : List Component} {s : Settings} {deck : Deck}

theorem endsLine_of_isPrintableAscii {c : Char} (h : IsPrintableAscii c) : endsLine c = false := by
  obtain ⟨hlow, hhigh⟩ := h
  simp only [endsLine, Bool.or_eq_false_iff, Bool.and_eq_false_iff, decide_eq_false_iff_not,
    beq_eq_false_iff_ne]
  omega

theorem HoldsNo.mono {p q : Char → Bool} (h : HoldsNo p s deck)
    (hpq : ∀ c, p c = false → q c = false) : HoldsNo q s deck :=
  ⟨fun c hc => hpq c (h.title c hc), fun c hc => hpq c (h.step c hc),
    fun c hc => hpq c (h.stop c hc), fun l hl c hc => hpq c (h.deviceLines l hl c hc)⟩

/-- The lines that are read from a deck with a title are those that it was made of. -/
theorem lines_text (h : ofComponents components s = .ok deck) (htitle : s.title ≠ "")
    (hn : HoldsNo endsLine s deck) :
    Text.lines deck.text =
      (lines s (deck.deviceLines.map DeviceLine.text) deck.nodeMap ++ [".end"]).map
        String.toList := by
  have hnewline (c : Char) (hc : endsLine c = false) : (c == '\n') = false := by
    rw [beq_eq_false_iff_ne]
    rintro rfl
    exact absurd hc (by decide)
  have hfirst : (s.title == "") = false := beq_eq_false_iff_ne.mpr htitle
  have hkept : (lines s (deck.deviceLines.map DeviceLine.text) deck.nodeMap).dropWhile (· == "") =
      lines s (deck.deviceLines.map DeviceLine.text) deck.nodeMap := by
    simp [lines, hfirst]
  have hall := forall_mem_lines (fun c => endsLine_of_isPrintableAscii) h hn
  rw [text_eq_intercalate h (hn.mono hnewline), hkept,
    show [".end", ""] = [".end"] ++ [""] from rfl, ← List.append_assoc, intercalate_eq_unlines]
  refine lines_unlines ?_
  rw [List.forall_mem_map, List.forall_mem_append]
  exact ⟨hall, List.forall_mem_singleton.mpr (List.all_iff_forall_prop.mp (by decide))⟩

end Deck

/-! ## Element lines -/

namespace OhmsLaw

/-- Whether a line is passed over, inside a control block or outside. -/
def isPassed (inControl : Bool) (line : List Char) : Bool :=
  (skipWord ".control".toList (trim line)).isNone && (skipWord ".endc".toList (trim line)).isNone &&
    match trim line with
    | [] => true
    | c :: _ => inControl || "*.+;".toList.contains c

theorem elementLines_append {inControl : Bool} {ls : List (List Char)}
    (h : ls.all (isPassed inControl)) (rest : List (List Char)) :
    elementLines inControl (ls ++ rest) = elementLines inControl rest := by
  induction ls with
  | nil => rfl
  | cons l ls ih =>
    rw [List.all_cons, Bool.and_eq_true] at h
    obtain ⟨hl, hls⟩ := h
    have hrest := ih hls
    unfold isPassed at hl
    rw [Bool.and_eq_true, Bool.and_eq_true, Option.isNone_iff_eq_none,
      Option.isNone_iff_eq_none] at hl
    obtain ⟨⟨hcontrol, hendc⟩, hpassed⟩ := hl
    rw [List.cons_append, elementLines]
    simp only [hcontrol, hendc, Option.isSome_none, Bool.false_eq_true, if_false]
    split
    · exact hrest
    · next heq =>
      rw [heq] at hpassed
      rw [if_pos hpassed, hrest]

theorem skipWord_of_not_point {c : Char} (hdot : foldsTo '.' c = false) (cs : List Char) :
    skipWord ".control".toList (c :: cs) = none ∧ skipWord ".endc".toList (c :: cs) = none := by
  have hskip (p : List Char) : skipWord ('.' :: p) (c :: cs) = none := by
    unfold skipWord
    rw [hdot, if_neg Bool.false_ne_true]
  exact ⟨hskip "control".toList, hskip "endc".toList⟩

theorem elementLines_cons {c : Char} {line ds : List Char} (htrim : trim line = c :: ds)
    (hc : "*.+;".toList.contains c = false) (hdot : foldsTo '.' c = false)
    (rest : List (List Char)) :
    elementLines false (line :: rest) = trim line :: elementLines false rest := by
  obtain ⟨hcontrol, hendc⟩ := skipWord_of_not_point hdot ds
  rw [elementLines]
  simp only [htrim, hcontrol, hendc, Option.isSome_none, Bool.false_eq_true, if_false,
    Bool.false_or]
  rw [hc, if_neg Bool.false_ne_true]

theorem isPassed_fixedLines :
    ((Deck.fixedLines.take 16).map String.toList).all (isPassed false) := by
  have hchars {l : String} {cs : List Char} (hl : l.toList = cs) (h : isPassed false cs) :
      isPassed false l.toList := by rwa [hl]
  simp only [Deck.fixedLines, DeviceModel.library, Deck.solverOptions, List.map_cons, List.map_nil,
    List.cons_append, List.nil_append, List.take_succ_cons, List.take_zero, List.all_cons,
    List.all_nil, Bool.and_eq_true, and_true]
  and_intros
  all_goals
    first
    | exact hchars (Deck.toList_of_literal rfl) (by decide +kernel)
    | exact hchars (Deck.toList_append_of_literal rfl rfl) (by decide +kernel)

/-- What follows the device lines up to the transient run holds no element. -/
theorem elementLines_fixedLines (rest : List (List Char)) :
    elementLines false (Deck.fixedLines.map String.toList ++ rest) = elementLines true rest := by
  -- The control block opens behind the sixteenth line.
  have hsplit : Deck.fixedLines.map String.toList = (Deck.fixedLines.take 16).map String.toList ++
      (".control".toList :: ["set filetype=ascii", "op", "print all"].map String.toList) := rfl
  have hcontrol (ls : List (List Char)) :
      elementLines false (".control".toList :: ls) = elementLines true ls := rfl
  rw [hsplit, List.append_assoc, elementLines_append isPassed_fixedLines, List.cons_append,
    hcontrol, elementLines_append (by decide +kernel)]

theorem isPassed_of_not_point {c : Char} (hb : isBlank c = false) (hdot : foldsTo '.' c = false)
    (cs : List Char) : isPassed true (c :: cs) := by
  obtain ⟨ds, htrim⟩ := exists_trim_cons hb cs
  obtain ⟨hcontrol, hendc⟩ := skipWord_of_not_point hdot ds
  unfold isPassed
  rw [htrim, hcontrol, hendc]
  rfl

theorem elementLines_tail (s : Settings) (m : NodeMap) :
    elementLines true ((Deck.transientCommand s :: Deck.printLines m ++ [".endc", ".end"]).map
      String.toList) = [] := by
  have hpassed : ((Deck.transientCommand s :: Deck.printLines m).map String.toList).all
      (isPassed true) := by
    rw [List.map_cons, List.all_cons, Bool.and_eq_true]
    constructor
    · obtain ⟨rest, hrest⟩ := Deck.exists_transientCommand_eq s
      rw [hrest]
      exact isPassed_of_not_point (by decide) (by decide) rest
    · unfold Deck.printLines
      split
      · rfl
      · rw [List.map_singleton, List.all_cons, List.all_nil, Bool.and_true, String.toList_append]
        exact isPassed_of_not_point (by decide) (by decide) _
  rw [List.map_append, elementLines_append hpassed]
  decide +kernel

/-- The element lines of a deck are its device lines. -/
theorem elementLines_text {components : List Component} {s : Settings} {deck : Deck}
    (h : Deck.ofComponents components s = .ok deck) (htitle : s.title ≠ "")
    (hn : Deck.HoldsNo endsLine s deck) :
    elementLines false (Text.lines deck.text).tail =
      deck.deviceLines.map fun l => trim l.text.toList := by
  have hblank (ls : List (List Char)) : elementLines false ([] :: ls) = elementLines false ls := rfl
  rw [Deck.lines_text h htitle hn, Deck.lines_eq_append]
  simp only [List.map_append, List.map_cons, List.cons_append, List.append_assoc, List.tail_cons,
    String.toList_empty, hblank]
  induction deck.deviceLines with
  | nil =>
    rw [List.map_nil, List.map_nil, List.nil_append, elementLines_fixedLines]
    have htail := elementLines_tail s deck.nodeMap
    rw [List.map_append, List.map_cons] at htail
    exact htail
  | cons l ls ih =>
    obtain ⟨c, hletter, hc, hdot, hpoint⟩ := DeviceLine.exists_letter l.device
    obtain ⟨ds, htrim⟩ : ∃ ds, trim l.text.toList = c :: ds := by
      rw [DeviceLine.toList_text, DeviceLine.toList_name, hletter]
      exact exists_trim_cons hc _
    rw [List.map_cons, List.map_cons, List.cons_append, elementLines_cons htrim hdot hpoint, ih,
      List.map_cons]

/-! ## Elements of device lines -/

section Elements

variable {l : DeviceLine}

theorem isNamed_name (hf : l.Formed) (letter : Char) :
    isNamed letter l.name.toList = l.device.letter.toList.any (foldsTo letter) := by
  obtain ⟨c, hletter, -⟩ := DeviceLine.exists_letter l.device
  obtain ⟨d, ds, hd⟩ := List.exists_cons_of_ne_nil (mt String.toList_eq_nil_iff.mp hf.designator)
  rw [DeviceLine.toList_name, hletter, hd]
  exact (Bool.or_false _).symm

theorem isNode_nodeChars {k : Int} (hk : 0 ≤ k) : isNode (DeviceLine.nodeChars k) := by
  rw [DeviceLine.nodeChars_eq hk, isNode, Bool.and_eq_true, Bool.not_eq_true', List.all_eq_true]
  refine ⟨?_, fun c hc => isDecimal_of_isDigit
    (Nat.isDigit_of_mem_toDigits (by decide) (by decide) hc)⟩
  rw [List.isEmpty_eq_false_iff]
  exact Nat.toDigits_ne_nil

/-- The two nodes of a line with two pins. -/
theorem exists_nodes (hf : l.Formed) (hpins : l.device.requiredPins.length = 2) :
    ∃ p n, l.nodes = [p, n] ∧ 0 ≤ p ∧ 0 ≤ n := by
  obtain ⟨p, n, hnodes⟩ := List.length_eq_two.mp (hf.length_nodes.trans hpins)
  have hnonneg := hf.nonneg
  rw [hnodes, List.forall_mem_cons, List.forall_mem_singleton] at hnonneg
  exact ⟨p, n, hnodes, hnonneg⟩

theorem source?_of_voltageSource (hf : l.Formed)
    (hd : ∀ c ∈ l.designator.toList, isBlank c = false) (hdevice : l.device = .voltageSource) :
    ∃ v p n, l.tail = .source v ∧ l.nodes = [p, n] ∧ source? (trim l.text.toList) =
      some ⟨l.name.toList, DeviceLine.nodeChars p, DeviceLine.nodeChars n,
        (Quantity.forDeck v).toList⟩ := by
  obtain ⟨c, htail⟩ := hf.tail
  rw [hdevice] at htail
  obtain ⟨p, n, hnodes, hp, hn⟩ := exists_nodes hf (by rw [hdevice]; rfl)
  have hnamed : isNamed 'v' l.name.toList = true := by
    rw [isNamed_name hf, hdevice]
    decide
  have hword : (lowerAscii "DC".toList == "dc".toList) = true := by decide
  refine ⟨_, p, n, htail, hnodes, ?_⟩
  unfold source?
  rw [words_trim, DeviceLine.words_text hf hd, hnodes, htail]
  simp only [Device.tail, DeviceLine.tailWords, List.map_cons, List.map_nil, List.cons_append,
    List.nil_append, hnamed, isNode_nodeChars hp, isNode_nodeChars hn, hword, Bool.and_self,
    if_true]

theorem resistor?_of_resistor (hf : l.Formed)
    (hd : ∀ c ∈ l.designator.toList, isBlank c = false) (hdevice : l.device = .resistor) :
    ∃ v p n, l.tail = .value v ∧ l.nodes = [p, n] ∧ resistor? (trim l.text.toList) =
      some ⟨l.name.toList, DeviceLine.nodeChars p, DeviceLine.nodeChars n,
        (Quantity.forDeck v).toList⟩ := by
  obtain ⟨c, htail⟩ := hf.tail
  rw [hdevice] at htail
  obtain ⟨p, n, hnodes, hp, hn⟩ := exists_nodes hf (by rw [hdevice]; rfl)
  have hnamed : isNamed 'r' l.name.toList = true := by
    rw [isNamed_name hf, hdevice]
    decide
  refine ⟨_, p, n, htail, hnodes, ?_⟩
  unfold resistor?
  rw [words_trim, DeviceLine.words_text hf hd, hnodes, htail]
  simp only [Device.tail, DeviceLine.tailWords, List.map_cons, List.map_nil, List.cons_append,
    List.nil_append, hnamed, isNode_nodeChars hp, isNode_nodeChars hn, Bool.and_self, if_true]

/-- No other line is read as a source. -/
theorem source?_eq_none (hf : l.Formed) (hd : ∀ c ∈ l.designator.toList, isBlank c = false)
    (hdevice : l.device ≠ .voltageSource) : source? (trim l.text.toList) = none := by
  have hnamed : isNamed 'v' l.name.toList = false := by
    rw [isNamed_name hf]
    revert hdevice
    cases l.device <;> decide
  unfold source?
  rw [words_trim, DeviceLine.words_text hf hd]
  split
  · next heq =>
    obtain ⟨rfl, -⟩ := List.cons.inj heq
    rw [hnamed]
    rfl
  · rfl

theorem resistor?_eq_none (hf : l.Formed) (hd : ∀ c ∈ l.designator.toList, isBlank c = false)
    (hdevice : l.device ≠ .resistor) : resistor? (trim l.text.toList) = none := by
  have hnamed : isNamed 'r' l.name.toList = false := by
    rw [isNamed_name hf]
    revert hdevice
    cases l.device <;> decide
  unfold resistor?
  rw [words_trim, DeviceLine.words_text hf hd]
  split
  · next heq =>
    obtain ⟨rfl, -⟩ := List.cons.inj heq
    rw [hnamed]
    rfl
  · rfl

end Elements

/-! ## The loop -/

theorem natural_nodeChars {k : Int} (hk : 0 ≤ k) (hlen : (toString k).length ≤ maxDigits) :
    natural ((DeviceLine.nodeChars k).filterMap digitValue?) = .ok k.toNat := by
  have hchars := DeviceLine.nodeChars_eq hk
  rw [← String.length_toList, show (toString k).toList = DeviceLine.nodeChars k from rfl, hchars]
    at hlen
  rw [hchars]
  exact (writesIndex_toDigits hlen).natural_eq

/-- The element of a line between two nodes. -/
def elementOf (l : DeviceLine) (p n : Int) (v : Float) : Element :=
  ⟨l.name.toList, DeviceLine.nodeChars p, DeviceLine.nodeChars n, (Quantity.forDeck v).toList⟩

theorem nodes_elementOf {l : DeviceLine} {p n : Int} {v : Float} (hp : 0 ≤ p) (hn : 0 ≤ n)
    (hp' : (toString p).length ≤ maxDigits) (hn' : (toString n).length ≤ maxDigits) :
    (elementOf l p n v).nodes = .ok (p.toNat, n.toNat) := by
  unfold Element.nodes elementOf
  rw [natural_nodeChars hp hp', natural_nodeChars hn hn']
  rfl

/-- Where a loop is found: the source across the resistor, between different nodes, and a printed
resistance above zero. -/
theorem loopOf_eq_ok_iff {source resistor : DeviceLine} {p n a b : Int} {v r volts ohms : Float}
    {loop : Loop} (hnonneg : ∀ k ∈ [p, n, a, b], 0 ≤ k)
    (hlen : ∀ k ∈ [p, n, a, b], (toString k).length ≤ maxDigits)
    (hvolts : Quantity.read (Quantity.forDeck v) = some volts)
    (hohms : Quantity.read (Quantity.forDeck r) = some ohms) :
    loopOf (elementOf source p n v) (elementOf resistor a b r) = .ok loop ↔
      p ≠ n ∧ (a = p ∧ b = n ∨ a = n ∧ b = p) ∧ 0.0 < ohms ∧
        loop = ⟨lower source.name, p.toNat, n.toNat, volts, ohms⟩ := by
  simp only [List.forall_mem_cons, List.not_mem_nil, false_imp_iff, implies_true, and_true]
    at hnonneg hlen
  obtain ⟨hp, hn, ha, hb⟩ := hnonneg
  obtain ⟨hp', hn', ha', hb'⟩ := hlen
  have hvolts' : Quantity.read (String.ofList (elementOf source p n v).value) = some volts := by
    rw [elementOf, String.ofList_toList, hvolts]
  have hohms' : Quantity.read (String.ofList (elementOf resistor a b r).value) = some ohms := by
    rw [elementOf, String.ofList_toList, hohms]
  have hname : String.ofList (elementOf source p n v).name = source.name := String.ofList_toList
  have hpositive := not_le_zero_iff (Quantity.isFinite_of_read hohms)
  unfold loopOf
  rw [nodes_elementOf hp hn hp' hn', nodes_elementOf ha hb ha' hb']
  simp only [hvolts', hohms', hname]
  by_cases hnodes : p.toNat = n.toNat ∨ ¬(a.toNat = p.toNat ∧ b.toNat = n.toNat ∨
      a.toNat = n.toNat ∧ b.toNat = p.toNat)
  · rw [if_pos hnodes]
    constructor
    · intro h
      cases h
    · rintro ⟨hne, hacross, -⟩
      omega
  · rw [if_neg hnodes]
    have hacross : p ≠ n ∧ (a = p ∧ b = n ∨ a = n ∧ b = p) := by omega
    by_cases hle : ohms ≤ 0.0
    · rw [if_pos hle]
      constructor
      · intro h
        cases h
      · rintro ⟨-, -, hlt, -⟩
        exact absurd hle (hpositive.mpr hlt)
    · rw [if_neg hle, Except.ok.injEq, eq_comm]
      constructor
      · exact fun h => ⟨hacross.1, hacross.2, hpositive.mp hle, h⟩
      · exact fun h => h.2.2.2

/-- A loop is found in two lines, in either order, of which one is a source and the other a
resistor. -/
theorem solve_eq_ok_iff {text : String} {ls : List DeviceLine} {loop : Loop}
    (hread : elementLines false (Text.lines text).tail = ls.map fun l => trim l.text.toList)
    (hf : ∀ l ∈ ls, l.Formed) (hd : ∀ l ∈ ls, ∀ c ∈ l.designator.toList, isBlank c = false) :
    solve text = .ok loop ↔ ∃ source resistor,
      (ls = [source, resistor] ∨ ls = [resistor, source]) ∧ source.device = .voltageSource ∧
        resistor.device = .resistor ∧ ∃ e f, source? (trim source.text.toList) = some e ∧
          resistor? (trim resistor.text.toList) = some f ∧ loopOf e f = .ok loop := by
  have hsource (l : DeviceLine) (hl : l ∈ ls) {e : Element}
      (h : source? (trim l.text.toList) = some e) : l.device = .voltageSource := by
    by_contra hne
    rw [source?_eq_none (hf l hl) (hd l hl) hne] at h
    cases h
  have hresistor (l : DeviceLine) (hl : l ∈ ls) {e : Element}
      (h : resistor? (trim l.text.toList) = some e) : l.device = .resistor := by
    by_contra hne
    rw [resistor?_eq_none (hf l hl) (hd l hl) hne] at h
    cases h
  unfold solve
  rw [hread]
  constructor
  · intro h
    split at h
    · next ta tb heq =>
      obtain ⟨a, more, rfl, rfl, hmore⟩ := List.map_eq_cons_iff.mp heq
      obtain ⟨b, none, rfl, rfl, hnone⟩ := List.map_eq_cons_iff.mp hmore
      obtain rfl := List.map_eq_nil_iff.mp hnone
      have hamem : a ∈ [a, b] := List.mem_cons_self
      have hbmem : b ∈ [a, b] := List.mem_cons_of_mem a List.mem_cons_self
      split at h
      · next e f he hf' =>
        -- The letter of a line makes it a source or a resistor, so no line is both.
        rcases Option.or_eq_some_iff.mp he with ha | ⟨-, hb⟩ <;>
          rcases Option.or_eq_some_iff.mp hf' with ha' | ⟨-, hb'⟩
        · have hdevice := hsource a hamem ha
          rw [hresistor a hamem ha'] at hdevice
          cases hdevice
        · exact ⟨a, b, .inl rfl, hsource a hamem ha, hresistor b hbmem hb', e, f, ha, hb', h⟩
        · exact ⟨b, a, .inr rfl, hsource b hbmem hb, hresistor a hamem ha', e, f, hb, ha', h⟩
        · have hdevice := hsource b hbmem hb
          rw [hresistor b hbmem hb'] at hdevice
          cases hdevice
      · cases h
    · cases h
  · rintro ⟨source, resistor, hls, hs, hr, e, f, he, hf', h⟩
    have hmem : source ∈ ls ∧ resistor ∈ ls := by rcases hls with rfl | rfl <;> simp
    have hne : source.device ≠ .resistor := by
      rw [hs]
      decide
    have hne' : resistor.device ≠ .voltageSource := by
      rw [hr]
      decide
    have hno := resistor?_eq_none (hf source hmem.1) (hd source hmem.1) hne
    have hno' := source?_eq_none (hf resistor hmem.2) (hd resistor hmem.2) hne'
    rcases hls with rfl | rfl
    · simp only [List.map_cons, List.map_nil, he, hno, hf', Option.some_or, Option.none_or, h]
    · simp only [List.map_cons, List.map_nil, he, hno', hf', Option.some_or, Option.none_or, h]

end OhmsLaw

/-! ## Decks -/

/-- The number that stands in a deck for the value of a line. -/
def DeviceLine.printed? (l : DeviceLine) : Option Float :=
  match l.tail with
  | .value v => readFloat (Quantity.forDeck v).toList
  | .source v => readFloat (Quantity.forDeck v).toList
  | .model _ => none

/-- A voltage source across a resistor, between two different nodes, with the numbers that are
printed for them. -/
structure DeviceLine.Across (source resistor : DeviceLine) (p n : Int) (volts ohms : Float) :
    Prop where
  isSource : source.device = .voltageSource
  isResistor : resistor.device = .resistor
  ends : source.nodes = [p, n]
  sameEnds : resistor.nodes = [p, n] ∨ resistor.nodes = [n, p]
  apart : p ≠ n
  printedVolts : source.printed? = some volts
  printedOhms : resistor.printed? = some ohms
  positive : 0.0 < ohms

/-- The device lines are one voltage source across one resistor. -/
structure LoneLoop (ls : List DeviceLine) (source resistor : DeviceLine) (p n : Int)
    (volts ohms : Float) : Prop extends source.Across resistor p n volts ohms where
  lone : ls = [source, resistor] ∨ ls = [resistor, source]

namespace OhmsLaw

theorem exists_loopOf {source resistor : DeviceLine} (hf : ∀ l ∈ [source, resistor], l.Formed)
    (hd : ∀ l ∈ [source, resistor], ∀ c ∈ l.designator.toList, isBlank c = false)
    (hk : ∀ l ∈ [source, resistor], ∀ k ∈ l.nodes, (toString k).length ≤ maxDigits)
    (hs : source.device = .voltageSource) (hr : resistor.device = .resistor) :
    ∃ e f, source? (trim source.text.toList) = some e ∧
      resistor? (trim resistor.text.toList) = some f ∧
      ∀ loop, loopOf e f = .ok loop ↔ ∃ p n volts ohms,
        source.Across resistor p n volts ohms ∧
          loop = ⟨lower source.name, p.toNat, n.toNat, volts, ohms⟩ := by
  simp only [List.forall_mem_cons, List.not_mem_nil, false_imp_iff, implies_true, and_true]
    at hf hd hk
  obtain ⟨v, p, n, hv, hpn, he⟩ := source?_of_voltageSource hf.1 hd.1 hs
  obtain ⟨r, a, b, hr', hab, hf'⟩ := resistor?_of_resistor hf.2 hd.2 hr
  obtain ⟨volts, hvolts, hvolts', -⟩ := Quantity.exists_read_forDeck v
  obtain ⟨ohms, hohms, hohms', -⟩ := Quantity.exists_read_forDeck r
  have hnonneg : ∀ k ∈ [p, n] ++ [a, b], 0 ≤ k := by
    rw [← hpn, ← hab, List.forall_mem_append]
    exact ⟨hf.1.nonneg, hf.2.nonneg⟩
  have hlen : ∀ k ∈ [p, n] ++ [a, b], (toString k).length ≤ maxDigits := by
    rw [← hpn, ← hab, List.forall_mem_append]
    exact hk
  have hprinted : source.printed? = some volts := by
    rw [DeviceLine.printed?, hv]
    exact hvolts
  have hprinted' : resistor.printed? = some ohms := by
    rw [DeviceLine.printed?, hr']
    exact hohms
  refine ⟨elementOf source p n v, elementOf resistor a b r, he, hf', fun loop => ?_⟩
  rw [loopOf_eq_ok_iff hnonneg hlen hvolts' hohms']
  constructor
  · rintro ⟨hne, hacross, hpositive, hloop⟩
    refine ⟨p, n, volts, ohms, ⟨hs, hr, hpn, ?_, hne, hprinted, hprinted', hpositive⟩, hloop⟩
    rw [hab]
    rcases hacross with ⟨rfl, rfl⟩ | ⟨rfl, rfl⟩
    · exact .inl rfl
    · exact .inr rfl
  · rintro ⟨p', n', volts', ohms', h, hloop⟩
    have hends := h.ends
    rw [hpn, List.cons.injEq, List.cons.injEq] at hends
    obtain ⟨rfl, rfl, -⟩ := hends
    obtain rfl := Option.some.inj (hprinted.symm.trans h.printedVolts)
    obtain rfl := Option.some.inj (hprinted'.symm.trans h.printedOhms)
    have hsame := h.sameEnds
    rw [hab] at hsame
    exact ⟨h.apart, by simpa using hsame, h.positive, hloop⟩

end OhmsLaw

namespace Deck

variable {components : List Component} {s : Settings} {deck : Deck}

open OhmsLaw

section Solved

variable (h : ofComponents components s = .ok deck) (htitle : s.title ≠ "")
  (hn : HoldsNo endsLine s deck)
  (hd : ∀ l ∈ deck.deviceLines, ∀ c ∈ l.designator.toList, isBlank c = false)
  (hk : ∀ l ∈ deck.deviceLines, ∀ k ∈ l.nodes, (toString k).length ≤ maxDigits)

include h htitle hn hd hk

/-- A deck is solved exactly when its device lines are a lone loop. -/
theorem solve_eq_ok_iff (loop : Loop) :
    solve deck.text = .ok loop ↔ ∃ source resistor p n volts ohms,
      LoneLoop deck.deviceLines source resistor p n volts ohms ∧
        loop = ⟨lower source.name, p.toNat, n.toNat, volts, ohms⟩ := by
  have hf := formed_of_mem h
  have hsub {source resistor : DeviceLine}
      (hls : deck.deviceLines = [source, resistor] ∨ deck.deviceLines = [resistor, source]) :
      [source, resistor] ⊆ deck.deviceLines := by
    rcases hls with hls | hls <;> rw [hls] <;> simp
  rw [OhmsLaw.solve_eq_ok_iff (elementLines_text h htitle hn) hf hd]
  constructor
  · rintro ⟨source, resistor, hls, hs, hr, e, f, he, hf', hloop⟩
    obtain ⟨e', f', he', hf'', hiff⟩ := exists_loopOf (fun l hl => hf l (hsub hls hl))
      (fun l hl => hd l (hsub hls hl)) (fun l hl => hk l (hsub hls hl)) hs hr
    obtain rfl := Option.some.inj (he.symm.trans he')
    obtain rfl := Option.some.inj (hf'.symm.trans hf'')
    obtain ⟨p, n, volts, ohms, hacross, hloop'⟩ := (hiff loop).mp hloop
    exact ⟨source, resistor, p, n, volts, ohms, ⟨hacross, hls⟩, hloop'⟩
  · rintro ⟨source, resistor, p, n, volts, ohms, ⟨hacross, hls⟩, hloop⟩
    obtain ⟨e, f, he, hf', hiff⟩ := exists_loopOf (fun l hl => hf l (hsub hls hl))
      (fun l hl => hd l (hsub hls hl)) (fun l hl => hk l (hsub hls hl)) hacross.isSource
      hacross.isResistor
    exact ⟨source, resistor, hls, hacross.isSource, hacross.isResistor, e, f, he, hf',
      (hiff loop).mpr ⟨p, n, volts, ohms, hacross, hloop⟩⟩

/-- **A deck is solved by Ohm's law exactly when it is a lone loop.** Its operating point is then
the voltages of the two nodes and the current through the source, which is V/R; the negative node is
at zero, unless the positive node is ground. The series holds these values at the times 0 and
1 ms. -/
theorem solve_text :
    ((∃ loop, solve deck.text = .ok loop) ↔ ∃ source resistor p n volts ohms,
      LoneLoop deck.deviceLines source resistor p n volts ohms) ∧
    ∀ source resistor p n volts ohms, LoneLoop deck.deviceLines source resistor p n volts ohms →
      ∃ loop, solve deck.text = .ok loop ∧ ∃ atP atN,
        (p ≠ 0 → atP = volts ∧ atN = 0.0) ∧ (p = 0 → atP = 0.0 ∧ atN = -volts) ∧
        loop.operatingPoint =
          [(s!"v_{p}", atP), (s!"v_{n}", atN), (s!"i_{lower source.name}", volts / ohms)] ∧
        loop.series = ⟨[0.0, 1e-3], [(p, [atP, atP]), (n, [atN, atN])],
          [(lower source.name, [volts / ohms, volts / ohms])]⟩ := by
  have hiff := solve_eq_ok_iff h htitle hn hd hk
  refine ⟨⟨?_, ?_⟩, ?_⟩
  · rintro ⟨loop, hloop⟩
    obtain ⟨source, resistor, p, n, volts, ohms, hl, -⟩ := (hiff _).mp hloop
    exact ⟨source, resistor, p, n, volts, ohms, hl⟩
  · rintro ⟨source, resistor, p, n, volts, ohms, hl⟩
    exact ⟨_, (hiff _).mpr ⟨source, resistor, p, n, volts, ohms, hl, rfl⟩⟩
  · intro source resistor p n volts ohms hl
    have hmem : source ∈ deck.deviceLines := by rcases hl.lone with hls | hls <;> rw [hls] <;> simp
    have hnonneg := (formed_of_mem h source hmem).nonneg
    rw [hl.ends, List.forall_mem_cons, List.forall_mem_singleton] at hnonneg
    have hp : ((p.toNat : Nat) : Int) = p := Int.toNat_of_nonneg hnonneg.1
    have hn' : ((n.toNat : Nat) : Int) = n := Int.toNat_of_nonneg hnonneg.2
    refine ⟨_, (hiff _).mpr ⟨source, resistor, p, n, volts, ohms, hl, rfl⟩, ?_⟩
    by_cases hground : p = 0
    · refine ⟨0.0, -volts, fun hne => absurd hground hne, fun _ => ⟨rfl, rfl⟩, ?_⟩
      simp [Loop.operatingPoint, Loop.series, Loop.voltages, Loop.current, Loop.times, hground, hn']
    · have hpositive : p.toNat ≠ 0 := by omega
      refine ⟨volts, 0.0, fun _ => ⟨rfl, rfl⟩, fun hzero => absurd hzero hground, ?_⟩
      simp [Loop.operatingPoint, Loop.series, Loop.voltages, Loop.current, Loop.times, hpositive,
        hp, hn']

end Solved

/-- A source across a resistor, both to ground. -/
def loaded : List Component :=
  [.wired "1" (.device .voltageSource) [("1", "0"), ("2", "a")],
    .wired "1" (.device .resistor) [("1", "a"), ("2", "0")]]

/-- The lines of the source and the resistor. -/
def loadedLines : List DeviceLine :=
  [⟨.voltageSource, "1", [1, 0], .source 5.0⟩, ⟨.resistor, "1", [1, 0], .value 1e3⟩]

theorem readable_of_loadedLines (h : deck.deviceLines = loadedLines) :
    HoldsNo endsLine Settings.defaults deck ∧
      ∀ l ∈ deck.deviceLines, (∀ c ∈ l.designator.toList, isBlank c = false) ∧
        ∀ k ∈ l.nodes, (toString k).length ≤ maxDigits := by
  rw [h]
  refine ⟨⟨List.all_iff_forall_prop.mp (by decide), List.all_iff_forall_prop.mp (by decide),
    List.all_iff_forall_prop.mp (by decide), ?_⟩, ?_⟩
  · rw [h, loadedLines, List.forall_mem_cons, List.forall_mem_singleton]
    exact ⟨List.all_iff_forall_prop.mp (by decide +kernel),
      List.all_iff_forall_prop.mp (by decide +kernel)⟩
  · rw [loadedLines, List.forall_mem_cons, List.forall_mem_singleton]
    exact ⟨⟨List.all_iff_forall_prop.mp (by decide), by decide +kernel⟩,
      List.all_iff_forall_prop.mp (by decide), by decide +kernel⟩

theorem solve_text_loaded :
    ∃ deck, ofComponents loaded Settings.defaults = .ok deck ∧
      ∃ loop, solve deck.text = .ok loop ∧
        loop.operatingPoint = [("v_1", 5.0), ("v_0", 0.0), ("i_v1", 5.0 / 1e3)] ∧
        loop.series = ⟨[0.0, 1e-3], [(1, [5.0, 5.0]), (0, [0.0, 0.0])],
          [("v1", [5.0 / 1e3, 5.0 / 1e3])]⟩ := by
  obtain ⟨deck, h, hlines, -⟩ := exists_of_run loaded Settings.defaults
    ⟨⟨[("0", 0), ("a", 1)]⟩, [], []⟩ loadedLines (by decide +kernel)
  obtain ⟨hn, hread⟩ := readable_of_loadedLines hlines
  obtain ⟨loop, hloop, vp, vn, hfloating, -, hpoint, hseries⟩ :=
    (solve_text h (by decide) hn (fun l hl => (hread l hl).1) (fun l hl => (hread l hl).2)).2
      ⟨.voltageSource, "1", [1, 0], .source 5.0⟩ ⟨.resistor, "1", [1, 0], .value 1e3⟩ 1 0 5.0 1e3
      { isSource := rfl
        isResistor := rfl
        ends := rfl
        sameEnds := .inl rfl
        apart := by decide
        printedVolts := by decide +kernel
        printedOhms := by decide +kernel
        positive := by decide +kernel
        lone := .inl hlines }
  obtain ⟨rfl, rfl⟩ := hfloating (by decide)
  have hname : lower (DeviceLine.mk .voltageSource "1" [1, 0] (.source 5.0)).name = "v1" := by
    decide +kernel
  rw [hname] at hpoint hseries
  exact ⟨deck, h, loop, hloop, hpoint.trans (by decide +kernel), hseries⟩

end Deck

end Breadboard
