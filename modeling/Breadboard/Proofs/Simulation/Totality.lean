import Breadboard.Proofs.Engine.Runs
import Breadboard.Proofs.Output.Overlong
import Breadboard.Proofs.Simulation.LoneLoop
import Breadboard.Simulation

/-!
# Simulations that return

A simulation returns a result whatever the circuit, the settings and the engine are, with one
exception. If nothing can be decoded from what the engine printed, the nodes of a lone source and a
lone resistor are read from the deck, and a node with too many digits to read is an error.
-/

namespace Breadboard

open Text Numeral

namespace OhmsLaw

/-! ## Elements that cannot be read -/

/-- The source and the resistor of a deck that has no other element. -/
def elements? (text : String) : Option (Element × Element) :=
  match elementLines false (Text.lines text).tail with
  | [a, b] =>
    match (source? a).or (source? b), (resistor? a).or (resistor? b) with
    | some source, some resistor => some (source, resistor)
    | _, _ => none
  | _ => none

theorem solve_eq (text : String) :
    solve text = match elements? text with
      | some (source, resistor) => loopOf source resistor
      | none => .error .topology := by
  unfold solve elements?
  rcases elementLines false (Text.lines text).tail with _ | ⟨a, _ | ⟨b, _ | ⟨c, more⟩⟩⟩
  · rfl
  · rfl
  · dsimp only
    cases (source? a).or (source? b) <;> cases (resistor? a).or (resistor? b) <;> rfl
  · rfl

/-- The node of an element that cannot be read, the first if neither can be. -/
def Element.longNode? (e : Element) : Option (List Char) :=
  [e.first, e.second].find? fun w => maxDigits < w.length

/-- Nodes are digits. -/
def Element.HasNodes (e : Element) : Prop := isNode e.first ∧ isNode e.second

theorem hasNodes_of_source? {line : List Char} {e : Element} (h : source? line = some e) :
    e.HasNodes := by
  unfold source? at h
  split at h
  · split at h
    · next hall =>
      obtain rfl := Option.some.inj h
      simp only [Bool.and_eq_true] at hall
      exact ⟨hall.1.1.2, hall.1.2⟩
    · cases h
  · cases h

theorem hasNodes_of_resistor? {line : List Char} {e : Element} (h : resistor? line = some e) :
    e.HasNodes := by
  unfold resistor? at h
  split at h
  · split at h
    · next hall =>
      obtain rfl := Option.some.inj h
      simp only [Bool.and_eq_true] at hall
      exact ⟨hall.1.2, hall.2⟩
    · cases h
  · cases h

theorem elements?_eq_some_iff {text : String} {source resistor : Element} :
    elements? text = some (source, resistor) ↔ ∃ a b,
      elementLines false (Text.lines text).tail = [a, b] ∧
        (source? a).or (source? b) = some source ∧
        (resistor? a).or (resistor? b) = some resistor := by
  constructor
  · intro h
    unfold elements? at h
    split at h
    · next a b hlines =>
      split at h
      · next e f he hf =>
        obtain ⟨rfl, rfl⟩ := Prod.mk.inj (Option.some.inj h)
        exact ⟨a, b, hlines, he, hf⟩
      · cases h
    · cases h
  · rintro ⟨a, b, hlines, hs, hr⟩
    unfold elements?
    rw [hlines]
    simp only [hs, hr]

theorem hasNodes_of_elements? {text : String} {source resistor : Element}
    (h : elements? text = some (source, resistor)) : source.HasNodes ∧ resistor.HasNodes := by
  obtain ⟨a, b, -, hs, hr⟩ := elements?_eq_some_iff.mp h
  constructor
  · rcases Option.or_eq_some_iff.mp hs with hs | ⟨-, hs⟩ <;> exact hasNodes_of_source? hs
  · rcases Option.or_eq_some_iff.mp hr with hr | ⟨-, hr⟩ <;> exact hasNodes_of_resistor? hr

theorem natural_of_isNode {w : List Char} (h : isNode w) :
    natural (w.filterMap digitValue?) =
      if maxDigits < w.length then .error ⟨w.length⟩
      else .ok (Decimal.ofDigits (w.filterMap digitValue?)) := by
  unfold isNode at h
  rw [Bool.and_eq_true, List.all_eq_true] at h
  rw [natural, length_filterMap_digitValue? h.2]

theorem Element.nodes_eq_error_iff {element : Element} {e : TooManyDigits}
    (h : element.HasNodes) :
    element.nodes = .error e ↔ ∃ w, element.longNode? = some w ∧ e = ⟨w.length⟩ := by
  unfold nodes longNode?
  rw [natural_of_isNode h.1, natural_of_isNode h.2]
  by_cases hfirst : maxDigits < element.first.length
  · simp [hfirst, eq_comm, bind, Except.bind]
  · by_cases hsecond : maxDigits < element.second.length
    · simp [hfirst, hsecond, eq_comm, bind, Except.bind]
    · simp [hfirst, hsecond, bind, Except.bind, pure, Except.pure]

/-- The error of a source and a resistor is that of their first node that cannot be read. -/
theorem loopOf_eq_tooManyDigits_iff {source resistor : Element} {e : TooManyDigits}
    (hs : source.HasNodes) (hr : resistor.HasNodes) :
    loopOf source resistor = .error (.tooManyDigits e) ↔
      ∃ w, source.longNode?.or resistor.longNode? = some w ∧ e = ⟨w.length⟩ := by
  have hsource {e : TooManyDigits} := source.nodes_eq_error_iff hs (e := e)
  have hresistor {e : TooManyDigits} := resistor.nodes_eq_error_iff hr (e := e)
  unfold loopOf
  cases hnodes : source.nodes with
  | error e' =>
    obtain ⟨w, hw, rfl⟩ := hsource.mp hnodes
    simp [hw, eq_comm]
  | ok k =>
    have hshort : source.longNode? = none := by
      by_contra hlong
      obtain ⟨w, hw⟩ := Option.ne_none_iff_exists'.mp hlong
      rw [hsource.mpr ⟨w, hw, rfl⟩] at hnodes
      cases hnodes
    rw [hshort, Option.none_or, ← hresistor]
    cases hnodes' : resistor.nodes with
    | error e' => simp
    | ok k' =>
      dsimp only
      repeat' split
      all_goals simp

theorem solve_eq_tooManyDigits_iff {text : String} {e : TooManyDigits} :
    solve text = .error (.tooManyDigits e) ↔ ∃ source resistor w,
      elements? text = some (source, resistor) ∧
        source.longNode?.or resistor.longNode? = some w ∧ e = ⟨w.length⟩ := by
  rw [solve_eq]
  cases helements : elements? text with
  | none => simp
  | some pair =>
    obtain ⟨source, resistor⟩ := pair
    obtain ⟨hs, hr⟩ := hasNodes_of_elements? helements
    dsimp only
    rw [loopOf_eq_tooManyDigits_iff hs hr]
    constructor
    · rintro ⟨w, hw⟩
      exact ⟨source, resistor, w, rfl, hw⟩
    · rintro ⟨_, _, w, ⟨⟩, hw⟩
      exact ⟨w, hw⟩

/-- The nodes that a line has are read if they are short enough. -/
theorem longNode?_eq_none {l : DeviceLine} {e : Element} {p n : Int} {v : Float}
    (hk : ∀ k ∈ l.nodes, (toString k).length ≤ maxDigits) (hnodes : l.nodes = [p, n])
    (he : e = elementOf l p n v) : e.longNode? = none := by
  rw [hnodes, List.forall_mem_cons, List.forall_mem_singleton] at hk
  rw [he, Element.longNode?, List.find?_eq_none]
  simp only [elementOf, DeviceLine.nodeChars, List.forall_mem_cons, List.not_mem_nil, false_imp_iff,
    implies_true, and_true, String.length_toList, decide_eq_true_eq, not_lt]
  exact hk

theorem longNode?_of_source? {l : DeviceLine} {e : Element} (hf : l.Formed)
    (hd : ∀ c ∈ l.designator.toList, isBlank c = false)
    (hk : ∀ k ∈ l.nodes, (toString k).length ≤ maxDigits)
    (h : source? (trim l.text.toList) = some e) : e.longNode? = none := by
  by_cases hdevice : l.device = .voltageSource
  · obtain ⟨v, p, n, -, hnodes, he⟩ := source?_of_voltageSource hf hd hdevice
    exact longNode?_eq_none hk hnodes (Option.some.inj (h.symm.trans he))
  · rw [source?_eq_none hf hd hdevice] at h
    cases h

theorem longNode?_of_resistor? {l : DeviceLine} {e : Element} (hf : l.Formed)
    (hd : ∀ c ∈ l.designator.toList, isBlank c = false)
    (hk : ∀ k ∈ l.nodes, (toString k).length ≤ maxDigits)
    (h : resistor? (trim l.text.toList) = some e) : e.longNode? = none := by
  by_cases hdevice : l.device = .resistor
  · obtain ⟨v, p, n, -, hnodes, he⟩ := resistor?_of_resistor hf hd hdevice
    exact longNode?_eq_none hk hnodes (Option.some.inj (h.symm.trans he))
  · rw [resistor?_eq_none hf hd hdevice] at h
    cases h

end OhmsLaw

namespace Simulation

/-! ## Results -/

variable {components : List Component} {s : Settings} {deck : Deck} {fault : Fault}

theorem decode_eq_error_iff {out : String} {e : TooManyDigits} :
    decode components s deck (some out) = .error e ↔
      (∃ decoded, Decoded.ofOutput out s.minPoints = .ok decoded ∧ decoded.isEmpty) ∧
        OhmsLaw.solve deck.text = .error (.tooManyDigits e) := by
  unfold decode
  rw [Option.getD_some]
  cases hdecoded : Decoded.ofOutput out s.minPoints with
  | error e' => simp
  | ok decoded =>
    dsimp only
    by_cases hempty : decoded.isEmpty
    · rw [if_pos hempty]
      cases hsolve : OhmsLaw.solve deck.text with
      | error refusal => cases refusal <;> simp [hempty]
      | ok loop => simp
    · simp [hempty]

/-- The ways to a result: an output that is not read, one of which nothing is decoded, where Ohm's
law declines or stands in, and one of which something is. -/
inductive Gives (components : List Component) (s : Settings) (deck : Deck) (out : String) :
    SimulationReport → Prop where
  | unread {e : TooManyDigits} (h : Decoded.ofOutput out s.minPoints = .error e) :
      Gives components s deck out
        (.failure deck (some out) s!"Result parsing failed: {e.message}")
  | declined {refusal : OhmsLaw.Refusal} (h : Decoded.ofOutput out s.minPoints = .ok ⟨none, []⟩)
      (hsolve : OhmsLaw.solve deck.text = .error refusal) :
      Gives components s deck out (.failure deck (some out) (noResults refusal.message))
  | solved {loop : OhmsLaw.Loop} (h : Decoded.ofOutput out s.minPoints = .ok ⟨none, []⟩)
      (hsolve : OhmsLaw.solve deck.text = .ok loop) :
      Gives components s deck out
        (label components deck (some out) true loop.operatingPoint (some loop.series))
  | decoded {d : Decoded} (h : Decoded.ofOutput out s.minPoints = .ok d) (hfull : ¬ d.isEmpty) :
      Gives components s deck out
        (label components deck (some out) false d.operatingPoint d.series)

theorem gives_of_decode {out : String} {report : SimulationReport}
    (h : decode components s deck (some out) = .ok report) :
    Gives components s deck out report := by
  unfold decode at h
  rw [Option.getD_some] at h
  cases hdecoded : Decoded.ofOutput out s.minPoints with
  | error e =>
    rw [hdecoded] at h
    cases h
    exact .unread hdecoded
  | ok d =>
    rw [hdecoded] at h
    dsimp only at h
    by_cases hempty : d.isEmpty
    · obtain ⟨transient, point⟩ := d
      obtain ⟨rfl, rfl⟩ : transient = none ∧ point = [] := by
        simpa [Decoded.isEmpty] using hempty
      rw [if_pos hempty] at h
      split at h
      · cases h
      · next _ hsolve =>
        cases h
        exact .declined hdecoded hsolve
      · next hsolve =>
        cases h
        exact .solved hdecoded hsolve
    · rw [if_neg hempty] at h
      cases h
      exact .decoded hdecoded hempty

theorem conclude_of_exited {run : Run} {out : String} (h : run.outcome = .ok (.exited 0 out)) :
    conclude components s deck run =
      (decode components s deck (some out)).mapError .tooManyDigits := by
  unfold conclude
  rw [h]
  rfl

theorem result_of_exited {r : Runner} {engine : Engine} {out : String}
    (hdeck : Deck.ofComponents components s = .ok deck)
    (hrun : (r.run engine deck.text).outcome = .ok (.exited 0 out)) :
    (simulate components s r engine).result =
      (decode components s deck (some out)).mapError .tooManyDigits := by
  unfold simulate
  rw [hdeck]
  exact conclude_of_exited hrun

theorem conclude_eq_error_iff {run : Run} :
    conclude components s deck run = .error fault ↔
      (∃ e, run.outcome = .error e ∧ fault = .run e) ∨
      ∃ out e, run.outcome = .ok (.exited 0 out) ∧
        decode components s deck (some out) = .error e ∧ fault = .tooManyDigits e := by
  cases hrun : run.outcome with
  | error e =>
    unfold conclude
    rw [hrun]
    simp [eq_comm]
  | ok ended =>
    by_cases hsuccess : ended.success
    · obtain ⟨out, rfl⟩ := RunEnd.success_iff.mp hsuccess
      rw [conclude_of_exited hrun]
      cases hdecode : decode components s deck (some out) with
      | error e => simp [Except.mapError, hdecode, eq_comm]
      | ok report => simp [Except.mapError, hdecode]
    · unfold conclude
      rw [hrun]
      dsimp only
      rw [if_neg hsuccess]
      refine iff_of_false nofun ?_
      rintro (⟨e, ⟨⟩, -⟩ | ⟨out, e, ⟨⟩, -⟩)
      exact hsuccess rfl

theorem result_eq_error_iff {r : Runner} {engine : Engine} :
    (simulate components s r engine).result = .error fault ↔
      ∃ deck, Deck.ofComponents components s = .ok deck ∧
        ((∃ e, (r.run engine deck.text).outcome = .error e ∧ fault = .run e) ∨
        ∃ out decoded e, (r.run engine deck.text).outcome = .ok (.exited 0 out) ∧
          Decoded.ofOutput out s.minPoints = .ok decoded ∧ decoded.isEmpty ∧
          OhmsLaw.solve deck.text = .error (.tooManyDigits e) ∧ fault = .tooManyDigits e) := by
  unfold simulate
  cases hdeck : Deck.ofComponents components s with
  | error conflict => simp
  | ok deck =>
    dsimp only
    rw [conclude_eq_error_iff]
    constructor
    · rintro (hrun | ⟨out, e, hout, hdecode, hfault⟩)
      · exact ⟨deck, rfl, .inl hrun⟩
      · obtain ⟨⟨decoded, hdecoded, hempty⟩, hsolve⟩ := decode_eq_error_iff.mp hdecode
        exact ⟨deck, rfl, .inr ⟨out, decoded, e, hout, hdecoded, hempty, hsolve, hfault⟩⟩
    · rintro ⟨_, ⟨⟩, hrun | ⟨out, decoded, e, hout, hdecoded, hempty, hsolve, hfault⟩⟩
      · exact .inl hrun
      · exact .inr ⟨out, e, hout,
          decode_eq_error_iff.mpr ⟨⟨decoded, hdecoded, hempty⟩, hsolve⟩, hfault⟩

/-- A simulation returns if its run does, no line of the deck is broken, no designator holds blanks
and no node has too many digits. -/
theorem exists_result {r : Runner} {engine : Engine} (htitle : s.title ≠ "")
    (h : ∀ deck, Deck.ofComponents components s = .ok deck → Deck.HoldsNo endsLine s deck ∧
      ∀ l ∈ deck.deviceLines, (∀ c ∈ l.designator.toList, isBlank c = false) ∧
        ∀ k ∈ l.nodes, (toString k).length ≤ maxDigits)
    (hrun : ∀ deck e, (r.run engine deck).outcome ≠ .error e) :
    ∃ report, (simulate components s r engine).result = .ok report := by
  cases hresult : (simulate components s r engine).result with
  | ok report => exact ⟨report, rfl⟩
  | error fault =>
    obtain ⟨deck, hdeck, ⟨e, hraised, -⟩ | ⟨_, _, _, -, -, -, hsolve, -⟩⟩ :=
      result_eq_error_iff.mp hresult
    · exact absurd hraised (hrun deck.text e)
    obtain ⟨source, resistor, w, helements, hlong, -⟩ :=
      OhmsLaw.solve_eq_tooManyDigits_iff.mp hsolve
    obtain ⟨hn, hlines⟩ := h deck hdeck
    have hf := Deck.formed_of_mem hdeck
    obtain ⟨a, b, hab, hs, hr⟩ := OhmsLaw.elements?_eq_some_iff.mp helements
    -- The elements are read from device lines, so the long node is that of a device.
    rw [OhmsLaw.elementLines_text hdeck htitle hn] at hab
    have hmem : ∀ line ∈ [a, b], ∃ l ∈ deck.deviceLines, trim l.text.toList = line := by
      rw [← hab]
      exact fun line hl => List.mem_map.mp hl
    have hsource : ∀ line ∈ [a, b], OhmsLaw.source? line = some source →
        source.longNode? = none := by
      intro line hline he
      obtain ⟨l, hl, rfl⟩ := hmem line hline
      exact OhmsLaw.longNode?_of_source? (hf l hl) (hlines l hl).1 (hlines l hl).2 he
    have hresistor : ∀ line ∈ [a, b], OhmsLaw.resistor? line = some resistor →
        resistor.longNode? = none := by
      intro line hline he
      obtain ⟨l, hl, rfl⟩ := hmem line hline
      exact OhmsLaw.longNode?_of_resistor? (hf l hl) (hlines l hl).1 (hlines l hl).2 he
    have hshort : source.longNode? = none ∧ resistor.longNode? = none := by
      constructor
      · rcases Option.or_eq_some_iff.mp hs with hs | ⟨-, hs⟩
        · exact hsource a (by simp) hs
        · exact hsource b (by simp) hs
      · rcases Option.or_eq_some_iff.mp hr with hr | ⟨-, hr⟩
        · exact hresistor a (by simp) hr
        · exact hresistor b (by simp) hr
    rw [hshort.1, hshort.2] at hlong
    cases hlong

end Simulation

/-! ## Broken titles -/

namespace Simulation

section Broken

variable {n : Nat} {deck : Deck}

end Broken

end Simulation

end Breadboard
