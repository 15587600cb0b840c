import Breadboard.Proofs.Netlist.Assembly
import Breadboard.Proofs.Netlist.DeckText
import Breadboard.Proofs.Output.Labelling
import Breadboard.Proofs.Output.PrintedHeader

/-!
# The layout of a deck

The title, the device lines, the model library, the solver options and the control block stand in a
deck line by line as they were put together, and one end line closes it. A deck without a title
loses the empty lines that it would start with, so a device line takes the place of the title.
-/

namespace Breadboard

open Text

namespace Text

/-- The pieces of a text between its newlines. -/
def pieces (s : String) : List String := (s.toList.splitOn '\n').map String.ofList

theorem pieces_intercalate {ls : List String} (hne : ls ≠ []) (h : ∀ l ∈ ls, '\n' ∉ l.toList) :
    pieces ("\n".intercalate ls) = ls := by
  have hsplit : (['\n'].intercalate (ls.map String.toList)).splitOn '\n' = ls.map String.toList :=
    List.splitOn_intercalate '\n' (by simpa using h) (by simpa using hne)
  unfold pieces
  rw [String.toList_intercalate]
  show ((['\n'].intercalate (ls.map String.toList)).splitOn '\n').map String.ofList = ls
  rw [hsplit, List.map_map]
  simp [Function.comp_def]

/-- The pieces of a text of lines are the pieces of the lines. -/
theorem pieces_intercalate_eq_flatMap {ls : List String} (h : ls ≠ []) :
    pieces ("\n".intercalate ls) = ls.flatMap pieces := by
  induction ls with
  | nil => exact absurd rfl h
  | cons l ls ih =>
    cases ls with
    | nil => rw [String.intercalate_singleton, List.flatMap_singleton]
    | cons k ls =>
      have htext : (l ++ "\n" ++ "\n".intercalate (k :: ls)).toList =
          l.toList ++ '\n' :: ("\n".intercalate (k :: ls)).toList := by
        rw [String.append_assoc, String.toList_append, String.toList_append]
        rfl
      rw [String.intercalate_cons_cons, List.flatMap_cons, ← ih (List.cons_ne_nil k ls), pieces,
        htext, List.splitOn_append_cons_self, List.map_append]
      rfl

/-- The newlines at the start of a text stand behind its empty first lines. -/
theorem dropWhile_intercalate {ls : List (List Char)} (h : ∀ l ∈ ls, '\n' ∉ l) :
    (['\n'].intercalate ls).dropWhile (· == '\n') =
      ['\n'].intercalate (ls.dropWhile List.isEmpty) := by
  induction ls with
  | nil => rfl
  | cons l ls ih =>
    cases l with
    | nil =>
      have hrest := ih fun m hm => h m (List.mem_cons_of_mem _ hm)
      rw [List.dropWhile_cons_of_pos (by rfl), ← hrest]
      cases ls with
      | nil => rfl
      | cons m ls => rw [List.intercalate_cons_cons]; rfl
    | cons c l =>
      have hc : (c == '\n') = false := by
        rw [beq_eq_false_iff_ne]
        rintro rfl
        exact h _ List.mem_cons_self List.mem_cons_self
      rw [List.dropWhile_cons_of_neg (by simp)]
      cases ls with
      | nil => rw [List.intercalate_singleton, List.dropWhile_cons_of_neg (by simp [hc])]
      | cons m ls =>
        rw [List.intercalate_cons_cons, List.cons_append, List.cons_append,
          List.dropWhile_cons_of_neg (by simp [hc])]

theorem forall_mem_intercalate {P : Char → Prop} {separator : String} {ls : List String}
    (hs : ∀ c ∈ separator.toList, P c) (h : ∀ l ∈ ls, ∀ c ∈ l.toList, P c) :
    ∀ c ∈ (separator.intercalate ls).toList, P c := by
  induction ls with
  | nil => exact fun c hc => nomatch hc
  | cons l ls ih =>
    obtain ⟨hl, hls⟩ := List.forall_mem_cons.mp h
    cases ls with
    | nil => rwa [String.intercalate_singleton]
    | cons k ls =>
      rw [String.intercalate_cons_cons, String.toList_append, String.toList_append]
      simp only [List.forall_mem_append]
      exact ⟨⟨hl, hs⟩, ih hls⟩

theorem getLast?_intercalate (separator : String) (ls : List String) {l : String} {last : Char}
    (hl : l.toList.getLast? = some last) :
    (separator.intercalate (ls ++ [l])).toList.getLast? = some last := by
  by_cases hls : ls = []
  · rw [hls, List.nil_append, String.intercalate_singleton, hl]
  · rw [String.intercalate_append_of_ne_nil hls (List.cons_ne_nil l []),
      String.intercalate_singleton, String.toList_append, List.getLast?_append, hl]
    rfl

end Text

namespace Deck

variable {components : List Component} {s : Settings} {deck : Deck} {m : NodeMap}

/-! ## Closing a text -/

/-- A text whose last character ends no end line only loses the newlines it starts with. -/
theorem body_eq_dropWhile {cs : List Char} {last : Char} (hl : cs.getLast? = some last)
    (hb : isBlank last = false) (hd : foldsTo 'd' last = false) :
    body cs = cs.dropWhile (· == '\n') := by
  obtain ⟨before, rfl⟩ := List.getLast?_eq_some_iff.mp hl
  have hnewline : (last == '\n') = false := by
    rw [beq_eq_false_iff_ne]
    rintro rfl
    exact absurd hb (by decide)
  have hkept : (dropEnds ('\n' :: (before ++ [last])).reverse).reverse =
      '\n' :: (before ++ [last]) := by
    rw [← List.cons_append, List.reverse_append, List.reverse_singleton, List.singleton_append,
      dropEnds_cons hb hd, List.reverse_cons, List.reverse_reverse]
  unfold body
  rw [hkept, List.dropWhile_cons_of_pos (by decide),
    dropWhile_append_cons (p := (· == '\n')) hnewline, trimEnd_concat hb]

/-- A text of lines, of which the last is no end line, loses the empty lines it would start with and
gets one end line. -/
theorem endOnce_intercalate {ls : List String} {l : String} {last : Char}
    (hn : ∀ k ∈ ls ++ [l], '\n' ∉ k.toList) (hl : l.toList.getLast? = some last)
    (hb : isBlank last = false) (hd : foldsTo 'd' last = false) :
    endOnce ("\n".intercalate (ls ++ [l])) =
      "\n".intercalate ((ls ++ [l]).dropWhile (· == "") ++ [".end", ""]) := by
  have hlast := getLast?_intercalate "\n" ls hl
  have hkept : (ls ++ [l]).dropWhile (· == "") ≠ [] := by
    intro hnil
    have hempty := List.dropWhile_eq_nil_iff.mp hnil l (by simp)
    rw [beq_iff_eq.mp hempty] at hl
    cases hl
  have hdrop : ((ls ++ [l]).map String.toList).dropWhile List.isEmpty =
      ((ls ++ [l]).dropWhile (· == "")).map String.toList := by
    rw [List.dropWhile_map]
    congr 2
    funext k
    rw [Function.comp_apply, Bool.eq_iff_iff, List.isEmpty_iff, String.toList_eq_nil_iff,
      beq_iff_eq]
  have htext : body ("\n".intercalate (ls ++ [l])).toList =
      ("\n".intercalate ((ls ++ [l]).dropWhile (· == ""))).toList := by
    rw [body_eq_dropWhile hlast hb hd, String.toList_intercalate, String.toList_intercalate,
      ← hdrop]
    exact dropWhile_intercalate (List.forall_mem_map.mpr hn)
  unfold endOnce
  rw [htext, String.ofList_toList, String.intercalate_append_of_ne_nil hkept (List.cons_ne_nil _ _),
    String.append_assoc]
  rfl

/-! ## The lines of a deck -/

/-- The lines that every deck has between its device lines and its transient run. -/
def fixedLines : List String :=
  ["", "* --- Device models ---"] ++ DeviceModel.library.map (·.2)
    ++ ["", "* Solver options for convergence stability"] ++ solverOptions
    ++ ["", "* Analysis", ".control", "set filetype=ascii", "op", "print all"]

/-- The line that asks for the vectors, if there are any. -/
def printLines (m : NodeMap) : List String :=
  if (vectors m).isEmpty then [] else ["print time " ++ " ".intercalate (vectors m)]

theorem lines_eq_append (s : Settings) (deviceLines : List String) (m : NodeMap) :
    lines s deviceLines m = (s.title :: "" :: deviceLines) ++
      (fixedLines ++ transientCommand s :: printLines m) ++ [".endc"] := by
  simp [lines, controlBlock, fixedLines, printLines]

/-- Printable characters of ASCII. -/
def IsPrintableAscii (c : Char) : Prop := 32 ≤ c.toNat ∧ c.toNat < 127

instance : DecidablePred IsPrintableAscii :=
  fun c => inferInstanceAs (Decidable (32 ≤ c.toNat ∧ c.toNat < 127))

theorem isPrintableAscii_of_isDigit {c : Char} (h : c.isDigit) : IsPrintableAscii c := by
  obtain ⟨hlow, hhigh⟩ := Char.isDigit_iff_toNat.mp h
  have hzero : '0'.toNat = 48 := rfl
  have hnine : '9'.toNat = 57 := rfl
  exact ⟨by omega, by omega⟩

/-- The characters of a literal. They are found by unification, while evaluating the literal takes
its bytes apart. -/
theorem toList_of_literal {s : String} {cs : List Char} (h : s = String.ofList cs) :
    s.toList = cs := by
  rw [h, String.toList_ofList]

theorem toList_append_of_literal {s t : String} {cs ds : List Char} (hs : s = String.ofList cs)
    (ht : t = String.ofList ds) : (s ++ t).toList = cs ++ ds := by
  rw [String.toList_append, toList_of_literal hs, toList_of_literal ht]

theorem isPrintableAscii_fixedLines : ∀ l ∈ fixedLines, ∀ c ∈ l.toList, IsPrintableAscii c := by
  have hliteral {l : String} {cs : List Char} (hl : l = String.ofList cs)
      (h : cs.all fun c => decide (IsPrintableAscii c)) : ∀ c ∈ l.toList, IsPrintableAscii c := by
    rw [toList_of_literal hl]
    exact List.all_iff_forall_prop.mp h
  simp only [fixedLines, DeviceModel.library, solverOptions, List.map_cons, List.map_nil,
    List.cons_append, List.nil_append, List.forall_mem_cons, List.forall_mem_append,
    String.toList_append, List.not_mem_nil, false_imp_iff, implies_true, and_true]
  and_intros
  all_goals
    refine hliteral rfl ?_
    decide +kernel

theorem isPrintableAscii_vectors {t : NodeTable} (ht : t.Numbered) :
    ∀ v ∈ vectors t.toNodeMap, ∀ c ∈ v.toList, IsPrintableAscii c := by
  intro v hv c hc
  obtain ⟨k, hk, rfl⟩ := List.mem_map.mp hv
  obtain ⟨-, name, he⟩ := NodeMap.mem_indices.mp hk
  obtain ⟨n, rfl⟩ := Int.eq_ofNat_of_zero_le (ht.nonneg he)
  have htext : (Table.vectorName n).toList = 'v' :: '(' :: (Nat.toDigits 10 n ++ [')']) :=
    Table.toList_vectorName n
  rw [show s!"v({(n : Int)})" = Table.vectorName n from rfl, htext] at hc
  simp only [List.mem_cons, List.mem_append, List.not_mem_nil, or_false] at hc
  rcases hc with rfl | rfl | hdigit | rfl
  · decide
  · decide
  · exact isPrintableAscii_of_isDigit (Nat.isDigit_of_mem_toDigits (by decide) (by decide) hdigit)
  · decide

theorem isPrintableAscii_printLines {t : NodeTable} (ht : t.Numbered) :
    ∀ l ∈ printLines t.toNodeMap, ∀ c ∈ l.toList, IsPrintableAscii c := by
  unfold printLines
  split
  · exact fun l hl => nomatch hl
  · rw [List.forall_mem_singleton, String.toList_append]
    exact List.forall_mem_append.mpr
      ⟨List.all_iff_forall_prop.mp (by decide),
        forall_mem_intercalate (List.all_iff_forall_prop.mp (by decide))
          (isPrintableAscii_vectors ht)⟩

/-- What a deck takes over from settings and components holds no character of this kind. -/
structure HoldsNo (p : Char → Bool) (s : Settings) (deck : Deck) : Prop where
  title : ∀ c ∈ s.title.toList, p c = false
  step : ∀ c ∈ s.tranStep.toList, p c = false
  stop : ∀ c ∈ s.tranStop.toList, p c = false
  deviceLines : ∀ l ∈ deck.deviceLines, ∀ c ∈ l.text.toList, p c = false

section Characters

variable {p : Char → Bool} (hp : ∀ c, IsPrintableAscii c → p c = false)

include hp

theorem forall_mem_transientCommand (hn : HoldsNo p s deck) :
    ∀ c ∈ (transientCommand s).toList, p c = false := by
  have hall : ["tran ", " ", " uic"].all fun w =>
      w.toList.all fun c => decide (IsPrintableAscii c) := by decide
  have hword : ∀ w ∈ ["tran ", " ", " uic"], ∀ c ∈ w.toList, IsPrintableAscii c :=
    fun w hw => List.all_iff_forall_prop.mp (List.all_eq_true.mp hall w hw)
  have hwords : ∀ w ∈ ["tran ", " ", " uic"], ∀ c ∈ w.toList, p c = false :=
    fun w hw c hc => hp c (hword w hw c hc)
  have huic : ∀ c ∈ (if s.useInitialConditions then " uic" else "").toList, p c = false := by
    split
    · exact hwords " uic" (by simp)
    · exact fun c hc => nomatch hc
  have htext : transientCommand s = "tran " ++ s.tranStep ++ " " ++ s.tranStop ++
      if s.useInitialConditions then " uic" else "" := rfl
  rw [htext]
  simp only [String.toList_append, List.forall_mem_append]
  exact ⟨⟨⟨⟨hwords "tran " (by simp), hn.step⟩, hwords " " (by simp)⟩, hn.stop⟩, huic⟩

/-- A kind of characters that is not printable stands in no line of a deck, unless the deck takes it
over. -/
theorem forall_mem_lines (h : ofComponents components s = .ok deck) (hn : HoldsNo p s deck) :
    ∀ l ∈ lines s (deck.deviceLines.map DeviceLine.text) deck.nodeMap,
      ∀ c ∈ l.toList, p c = false := by
  obtain ⟨t, ht, hmap⟩ := exists_numbered h
  have hprintable : ∀ l : String, (∀ c ∈ l.toList, IsPrintableAscii c) →
      ∀ c ∈ l.toList, p c = false := fun l h c hc => hp c (h c hc)
  rw [lines_eq_append, hmap]
  simp only [List.forall_mem_append, List.forall_mem_cons]
  refine ⟨⟨⟨hn.title, (fun c hc => nomatch hc), ?_⟩, ?_, ?_, ?_⟩, ?_, fun l hl => nomatch hl⟩
  · exact List.forall_mem_map.mpr hn.deviceLines
  · exact fun l hl => hprintable l (isPrintableAscii_fixedLines l hl)
  · exact forall_mem_transientCommand hp hn
  · exact fun l hl => hprintable l (isPrintableAscii_printLines ht l hl)
  · exact hprintable _ (List.all_iff_forall_prop.mp (by decide))

end Characters

/-! ## The pieces of a deck -/

theorem text_eq_endOnce (h : ofComponents components s = .ok deck) :
    deck.text =
      endOnce ("\n".intercalate (lines s (deck.deviceLines.map DeviceLine.text) deck.nodeMap)) := by
  unfold ofComponents at h
  split at h
  · cases h
  · cases h
    rfl

theorem newline_not_mem (h : ofComponents components s = .ok deck)
    (hn : HoldsNo (· == '\n') s deck) :
    ∀ l ∈ lines s (deck.deviceLines.map DeviceLine.text) deck.nodeMap, '\n' ∉ l.toList := by
  have hprintable : ∀ c, IsPrintableAscii c → (c == '\n') = false := by
    intro c hc
    rw [beq_eq_false_iff_ne]
    rintro rfl
    exact absurd hc (by decide)
  intro l hl hc
  exact absurd (forall_mem_lines hprintable h hn l hl '\n' hc) (by decide)

/-- A deck whose lines hold no newline is made up of them, without the empty lines it would start
with, and of one end line. -/
theorem text_eq_intercalate (h : ofComponents components s = .ok deck)
    (hn : HoldsNo (· == '\n') s deck) :
    deck.text = "\n".intercalate
      ((lines s (deck.deviceLines.map DeviceLine.text) deck.nodeMap).dropWhile (· == "")
        ++ [".end", ""]) := by
  have hall := newline_not_mem h hn
  rw [text_eq_endOnce h, lines_eq_append]
  rw [lines_eq_append] at hall
  exact endOnce_intercalate hall rfl (by decide) (by decide)

theorem pieces_text_eq_dropWhile (h : ofComponents components s = .ok deck)
    (hn : HoldsNo (· == '\n') s deck) :
    pieces deck.text =
      (lines s (deck.deviceLines.map DeviceLine.text) deck.nodeMap).dropWhile (· == "")
        ++ [".end", ""] := by
  rw [text_eq_intercalate h hn]
  refine pieces_intercalate (List.append_ne_nil_of_right_ne_nil _ (List.cons_ne_nil _ _)) ?_
  rw [List.forall_mem_append]
  exact ⟨fun l hl => newline_not_mem h hn l (List.dropWhile_sublist _ |>.subset hl), by decide⟩

theorem text_ne_empty (l : DeviceLine) : l.text ≠ "" := by
  intro h
  have hlist := congrArg String.toList h
  simp [DeviceLine.text] at hlist

/-- The pieces of a deck with a title are, in this order and with nothing between: the title, the
device lines, the models, the options, the control block and the end line. In a deck without a title
they are not, and its first device line takes the place of the title. -/
theorem pieces_text_iff (h : ofComponents components s = .ok deck)
    (hn : HoldsNo (· == '\n') s deck) :
    (pieces deck.text = [s.title, ""] ++ deck.deviceLines.map DeviceLine.text
        ++ ["", "* --- Device models ---"] ++ DeviceModel.library.map (·.2)
        ++ ["", "* Solver options for convergence stability"] ++ solverOptions
        ++ [""] ++ controlBlock s deck.nodeMap ++ [".end", ""] ↔ s.title ≠ "") ∧
      (s.title = "" → ∀ l ∈ deck.deviceLines.head?, (pieces deck.text).head? = some l.text) := by
  rw [pieces_text_eq_dropWhile h hn]
  refine ⟨⟨?_, ?_⟩, ?_⟩
  · -- No piece list of this form starts with an empty line, the listed one does if the title is
    -- empty.
    intro heq htitle
    have hhead := congrArg List.head? heq
    rw [htitle] at hhead
    cases hdrop : (lines s (deck.deviceLines.map DeviceLine.text) deck.nodeMap).dropWhile
        (· == "") with
    | nil =>
      rw [hdrop] at hhead
      exact absurd hhead (by simp)
    | cons k ks =>
      have hkept := List.head?_dropWhile_not (· == "")
        (lines s (deck.deviceLines.map DeviceLine.text) deck.nodeMap)
      rw [hdrop] at hhead hkept
      have hk : k = "" := by simpa using hhead
      simp [hk] at hkept
  · intro htitle
    have hkept : (s.title == "") = false := beq_eq_false_iff_ne.mpr htitle
    simp [lines, hkept]
  · intro htitle l hl
    obtain ⟨ls, hls⟩ := List.head?_eq_some_iff.mp (Option.mem_def.mp hl)
    have hkept : (l.text == "") = false := beq_eq_false_iff_ne.mpr (text_ne_empty l)
    simp [lines, htitle, hls, hkept]

/-- A diode to ground. -/
def clamp : List Component := [.wired "1" (.device .diode) [("1", "a"), ("2", "0")]]

theorem exists_clamp (title : String) (htitle : ∀ c ∈ title.toList, (c == '\n') = false) :
    ∃ deck, ofComponents clamp { Settings.defaults with title } = .ok deck ∧
      deck.deviceLines = [⟨.diode, "1", [1, 0], .model "D1N4148"⟩] ∧
      HoldsNo (· == '\n') { Settings.defaults with title } deck := by
  obtain ⟨deck, h, hlines, -⟩ := exists_of_run clamp { Settings.defaults with title }
    ⟨⟨[("0", 0), ("a", 1)]⟩, [], ["D1N4148"]⟩ [⟨.diode, "1", [1, 0], .model "D1N4148"⟩]
    (by decide +kernel)
  have hstep : ∀ c ∈ Settings.defaults.tranStep.toList, (c == '\n') = false :=
    List.all_iff_forall_prop.mp (by decide)
  have hstop : ∀ c ∈ Settings.defaults.tranStop.toList, (c == '\n') = false :=
    List.all_iff_forall_prop.mp (by decide)
  refine ⟨deck, h, hlines, htitle, hstep, hstop, ?_⟩
  rw [hlines, List.forall_mem_singleton]
  exact List.all_iff_forall_prop.mp (by decide)

theorem pieces_text_iff_clamp :
    ∃ deck, ofComponents clamp { Settings.defaults with title := "Clamp" } = .ok deck ∧
      HoldsNo (· == '\n') { Settings.defaults with title := "Clamp" } deck ∧
      (pieces deck.text).take 4 =
        ["Clamp", "", "D1 1 0 D1N4148", ""] := by
  obtain ⟨deck, h, hlines, hn⟩ := exists_clamp "Clamp" (List.all_iff_forall_prop.mp (by decide))
  have hpieces := (pieces_text_iff h hn).1.mpr (by decide)
  refine ⟨deck, h, hn, ?_⟩
  rw [hpieces, hlines]
  rfl

/-- Without a title the line of a device is the first of the deck. -/
theorem pieces_text_untitled :
    ∃ deck, ofComponents clamp { Settings.defaults with title := "" } = .ok deck ∧
      HoldsNo (· == '\n') { Settings.defaults with title := "" } deck ∧
      (pieces deck.text).head? = some "D1 1 0 D1N4148" ∧
      pieces deck.text ≠ ["", ""] ++ deck.deviceLines.map DeviceLine.text
        ++ ["", "* --- Device models ---"] ++ DeviceModel.library.map (·.2)
        ++ ["", "* Solver options for convergence stability"] ++ solverOptions
        ++ [""] ++ controlBlock { Settings.defaults with title := "" } deck.nodeMap
        ++ [".end", ""] := by
  obtain ⟨deck, h, hlines, hn⟩ := exists_clamp "" (fun c hc => nomatch hc)
  have hhead : (pieces deck.text).head? = some "D1 1 0 D1N4148" := by
    rw [pieces_text_eq_dropWhile h hn, hlines]
    rfl
  refine ⟨deck, h, hn, hhead, fun heq => ?_⟩
  rw [heq] at hhead
  exact absurd hhead (by simp)

end Deck

end Breadboard
