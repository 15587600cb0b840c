import Breadboard.Proofs.Circuit.Loading

/-!
# Circuits that are written and read again

A component is written in the shape that the editor gives it. Read again it is the same but for two
things that are not written: an empty kind word, where the name of the kind is written, and a
polarity that says nothing. What is written the second time is what was written the first time, and
a circuit is read again as it was exactly if it has neither (`Circuit.reads_back`).
-/

namespace Breadboard

/-! ## Pins -/

namespace Pin

/-- A pin when it is read again: a polarity that says nothing is gone. -/
def restored (p : Pin) : Pin := ⟨p.net, if p.polarity.isVacant then .null else p.polarity⟩

theorem ofEntry_toJson (p : Pin) : ofEntry p.toJson = .ok p.restored := by
  obtain ⟨net, polarity⟩ := p
  unfold toJson restored
  dsimp only
  split <;> rfl

theorem toJson_restored (p : Pin) : p.restored.toJson = p.toJson := by
  obtain ⟨net, polarity⟩ := p
  unfold toJson restored
  dsimp only
  split
  · rfl
  · rfl

theorem restored_eq_self_iff (p : Pin) :
    p.restored = p ↔ (p.polarity.isVacant = true → p.polarity = .null) := by
  obtain ⟨net, polarity⟩ := p
  unfold restored
  dsimp only
  split
  · next hvacant => simp [hvacant, eq_comm]
  · next hvacant => simp [hvacant]

end Pin

/-! ## Components -/

namespace Component

variable {c : Component}

/-- A component when it is read again: it has the kind word that is written for it. -/
def restored (c : Component) : Component :=
  { c with kindWord := c.kindName, pins := c.pins.map fun p => (p.1, p.2.restored) }

/-- Whether all of a component is written. -/
structure IsWritten (c : Component) : Prop where
  kindWord : c.kindWord ≠ ""
  polarity : ∀ p ∈ c.pins, p.2.polarity.isVacant = true → p.2.polarity = .null

theorem ofWords_kindName (hkind : c.kind = Kind.ofWords c.kindWord c.typeWord) :
    Kind.ofWords c.kindName c.typeWord = c.kind := by
  by_cases h : c.kindWord = ""
  · rw [h] at hkind
    rw [kindName_of_eq h, hkind]
    -- The type word alone decides, and neither name of the two kinds left is another kind word.
    cases htype : Kind.instruments.contains (Kind.key c.typeWord) with
    | true =>
      unfold Kind.ofWords
      rw [htype]
      decide
    | false =>
      unfold Kind.ofWords
      rw [htype]
      decide
  · rw [kindName_of_ne h, hkind]

theorem kindName_restored (c : Component) : c.restored.kindName = c.kindName :=
  kindName_of_ne (c := c.restored) (kindName_ne_empty c)

theorem pinsOfJson_toJson (pins : List (String × Pin)) :
    pinsOfJson (.object (pins.map fun p => (p.1, p.2.toJson))) =
      .ok (pins.map fun p => (p.1, p.2.restored)) := by
  unfold pinsOfJson
  split
  · next hvacant =>
    obtain rfl : pins = [] := by simpa [Json.isVacant] using hvacant
    rfl
  · rw [mapM_eq_ok_iff, List.forall₂_map_left_iff, List.forall₂_map_right_iff, List.forall₂_same]
    intro p _
    rw [Pin.ofEntry_toJson]
    rfl

theorem lookup_optional (key name : String) (v : Option String) :
    (optional name v).lookup key = if key = name then v.map Json.text else none := by
  unfold optional
  by_cases h : key = name
  · subst h
    cases v <;> simp
  · cases v <;> simp [h]

/-- The fields of a component that are written only if there is something to say. -/
def optionalFields (c : Component) : List (String × Json) :=
  optional "value" c.value ++ optional "model" c.model
    ++ optional "type" (if c.typeWord.isEmpty then none else some c.typeWord)

/-- The fields of a component as they are written. -/
def writtenFields (c : Component) : List (String × Json) :=
  ("id", .text c.id) :: ("ref", .text c.ref) :: ("kind", .text c.kindName) ::
    ("pins", .object (c.pins.map fun p => (p.1, p.2.toJson))) :: c.optionalFields

theorem toJson_eq (c : Component) : c.toJson = .object c.writtenFields := by
  unfold toJson writtenFields optionalFields
  simp only [List.append_assoc, List.cons_append, List.nil_append]

theorem lookup_optionalFields (c : Component) (key : String) :
    c.optionalFields.lookup key =
      ((if key = "value" then c.value.map Json.text else none).or
        (if key = "model" then c.model.map Json.text else none)).or
      (if key = "type" then (if c.typeWord.isEmpty then none else some c.typeWord).map Json.text
        else none) := by
  unfold optionalFields
  simp only [List.lookup_append, lookup_optional]

theorem text?_fieldD {fields : List (String × Json)} {key : String} {v : Option String}
    (h : fields.lookup key = v.map Json.text) : text? (Json.fieldD fields key) = v := by
  unfold Json.fieldD
  rw [h]
  cases v <;> rfl

theorem typeOfJson_written (c : Component) :
    typeOfJson (Json.fieldD c.writtenFields "type") = .ok c.typeWord := by
  have hlookup : c.writtenFields.lookup "type" =
      (if c.typeWord.isEmpty then none else some c.typeWord).map Json.text := by
    show c.optionalFields.lookup "type" = _
    simp [lookup_optionalFields]
  unfold Json.fieldD
  rw [hlookup]
  split
  · next hempty =>
    rw [String.isEmpty_iff.mp hempty]
    rfl
  · next hempty =>
    unfold typeOfJson
    exact if_neg hempty

theorem textOrEmpty_text (s : String) : textOrEmpty (.text s) = s := by
  unfold textOrEmpty
  split
  · next hempty => exact (String.isEmpty_iff.mp hempty).symm
  · rfl

/-- What is written for a component is read as the component restored. -/
theorem ofJson_toJson (hkind : c.kind = Kind.ofWords c.kindWord c.typeWord) :
    ofJson c.toJson = .ok c.restored := by
  have hpins : pinsOfJson (Json.fieldD c.writtenFields "pins") = .ok c.restored.pins :=
    pinsOfJson_toJson c.pins
  have href : textOrEmpty (Json.fieldD c.writtenFields "ref") = c.ref := textOrEmpty_text c.ref
  have hvalue : text? (Json.fieldD c.writtenFields "value") = c.value := by
    refine text?_fieldD ?_
    show c.optionalFields.lookup "value" = _
    simp [lookup_optionalFields]
  have hmodel : text? (Json.fieldD c.writtenFields "model") = c.model := by
    refine text?_fieldD ?_
    show c.optionalFields.lookup "model" = _
    simp [lookup_optionalFields]
  have hword : ((Json.field? c.writtenFields "kind").getD (.text "")).display = c.kindName := rfl
  have hid : ((Json.field? c.writtenFields "id").getD (.text "")).display = c.id := rfl
  rw [toJson_eq]
  unfold ofJson
  simp only [hpins, typeOfJson_written, href, hvalue, hmodel, hword, hid, ofWords_kindName hkind,
    bind, Except.bind, pure, Except.pure]
  rfl

theorem toJson_restored (c : Component) : c.restored.toJson = c.toJson := by
  have hpins : c.restored.pins.map (fun p => (p.1, p.2.toJson)) =
      c.pins.map fun p => (p.1, p.2.toJson) := by
    show (c.pins.map fun p => (p.1, p.2.restored)).map _ = _
    rw [List.map_map]
    exact List.map_congr_left fun p _ => by rw [Function.comp_apply, Pin.toJson_restored]
  unfold toJson
  rw [hpins, kindName_restored]
  rfl

theorem restored_eq_self_iff (c : Component) : c.restored = c ↔ c.IsWritten := by
  have hpins : c.restored.pins = c.pins ↔
      ∀ p ∈ c.pins, p.2.polarity.isVacant = true → p.2.polarity = .null := by
    show c.pins.map _ = _ ↔ _
    rw [map_eq_self_iff]
    refine forall₂_congr fun p _ => ?_
    rw [← Pin.restored_eq_self_iff, Prod.ext_iff]
    exact and_iff_right rfl
  constructor
  · intro h
    refine ⟨fun hword => c.kindName_ne_empty ?_, hpins.mp (congrArg pins h)⟩
    exact (congrArg kindWord h).trans hword
  · rintro ⟨hword, hpolarity⟩
    have htable : (c.pins.map fun p => (p.1, p.2.restored)) = c.pins := hpins.mpr hpolarity
    unfold restored
    rw [kindName_of_ne hword, htable]

end Component

/-! ## Circuits -/

namespace Circuit

variable {j : Json} {circuit : Circuit}

/-- A circuit when it is read again. -/
def restored (circuit : Circuit) : Circuit := ⟨circuit.components.map Component.restored⟩

theorem exists_readFrom_of_ofJson (h : ofJson j = .ok circuit) :
    ∃ items, circuit.ReadFrom items := by
  unfold ofJson at h
  split at h
  · next fields =>
    cases hitems : itemsOfJson ((Json.field? fields "components").getD (.list [])) with
    | error e =>
      rw [hitems] at h
      cases h
    | ok items =>
      rw [hitems] at h
      cases hread : items.mapM Component.ofJson with
      | error e =>
        simp only [hread, bind, Except.bind] at h
        cases h
      | ok components =>
        simp only [hread, bind, Except.bind] at h
        cases h
        exact ⟨items, mapM_eq_ok_iff.mp hread⟩
  · cases h

theorem kind_of_ofJson (h : ofJson j = .ok circuit) :
    ∀ c ∈ circuit.components, c.kind = Kind.ofWords c.kindWord c.typeWord := by
  intro c hc
  obtain ⟨items, hread⟩ := exists_readFrom_of_ofJson h
  obtain ⟨item, -, hitem⟩ := exists_mem_of_forall₂ hread.flip hc
  obtain ⟨-, -, -, -, hkind, -⟩ := Component.exists_of_ofJson hitem
  exact hkind

theorem toJson_lists (circuit : Circuit) :
    circuit.toJson.Lists (circuit.components.map Component.toJson) :=
  ⟨_, rfl, rfl⟩

theorem toJson_restored (circuit : Circuit) : circuit.restored.toJson = circuit.toJson := by
  have hitems : circuit.restored.components.map Component.toJson =
      circuit.components.map Component.toJson := by
    show (circuit.components.map Component.restored).map _ = _
    rw [List.map_map]
    exact List.map_congr_left fun c _ => c.toJson_restored
  unfold toJson
  rw [hitems]

theorem restored_eq_self_iff (circuit : Circuit) :
    circuit.restored = circuit ↔ ∀ c ∈ circuit.components, c.IsWritten := by
  obtain ⟨components⟩ := circuit
  unfold restored
  rw [Circuit.mk.injEq, map_eq_self_iff]
  exact forall₂_congr fun c _ => c.restored_eq_self_iff

/-- **Writing and reading again.** A circuit that was read is read again as the circuit restored,
which is written the same way, and this is the circuit itself exactly if all of each component is
written. -/
theorem reads_back (h : ofJson j = .ok circuit) :
    ofJson circuit.toJson = .ok circuit.restored ∧ circuit.restored.toJson = circuit.toJson ∧
      (ofJson circuit.toJson = .ok circuit ↔ ∀ c ∈ circuit.components, c.IsWritten) := by
  have hread : ofJson circuit.toJson = .ok circuit.restored := by
    rw [ofJson_eq_ok_iff circuit.toJson_lists]
    show List.Forall₂ _ (circuit.components.map Component.toJson)
      (circuit.components.map Component.restored)
    rw [List.forall₂_map_left_iff, List.forall₂_map_right_iff, List.forall₂_same]
    exact fun c hc => Component.ofJson_toJson (kind_of_ofJson h c hc)
  refine ⟨hread, circuit.toJson_restored, ?_⟩
  rw [hread, Except.ok.injEq, restored_eq_self_iff]

/-- A document with a diode whose first pin is marked. -/
def markedDiode : Json := .object [("components", .list [
  .object [("id", .text "d1"), ("kind", .text "Diode"), ("type", .text "signal"),
    ("pins", .object [("1", .object [("net", .text "a"), ("polarity", .text "+")]),
      ("2", .object [("net", .int 0)])])]])]

theorem reads_back_markedDiode : InvalidCircuit.check markedDiode = .ok () ∧
    ∃ circuit, ofJson markedDiode = .ok circuit ∧ ofJson circuit.toJson = .ok circuit := by
  refine ⟨rfl, _, rfl, (reads_back (j := markedDiode) rfl).2.2.mpr fun c hc => ?_⟩
  obtain rfl := List.mem_singleton.mp hc
  exact ⟨by decide, by decide⟩

/-- A document with a probe that has no kind word and a resistor with an empty polarity. -/
def unwritten : Json := .object [("components", .list [
  .object [("id", .text "p1"), ("kind", .text ""), ("type", .text "probe"),
    ("pins", .object [("tip", .text "a")])],
  .object [("id", .text "r1"), ("kind", .text "resistor"),
    ("pins", .object [("1", .object [("net", .text "a"), ("polarity", .text "")])])]])]

/-- Both are changed when they are written and read again. -/
theorem not_reads_back_unwritten : InvalidCircuit.check unwritten = .ok () ∧
    ∃ circuit again, ofJson unwritten = .ok circuit ∧ ofJson circuit.toJson = .ok again ∧
      circuit.components.map Component.kindWord = ["", "resistor"] ∧
      again.components.map Component.kindWord = ["display_only", "resistor"] ∧
      again ≠ circuit := by
  refine ⟨rfl, _, _, rfl, rfl, rfl, rfl, by decide⟩

end Circuit

end Breadboard
