import Breadboard.Files.Documents
import Breadboard.Proofs.Circuit.Validity
import Breadboard.Proofs.Netlist.Conflicts

/-!
# Loading circuits

A document that passes the check is read entry by entry. Two things that the check does not look at
can still go wrong: a type word that is no text stops the reading, and ids that differ as values may
have one text. A third stops the check itself: an id that cannot be compared. Every other document
is either refused with a fault that loaders are prepared for, or loaded with an id of its own for
each component (`Circuit.loadsOrIsRefused_iff`).
-/

namespace Breadboard

namespace Json

/-- An entry whose type word cannot be read: it says something, but it is no text. -/
inductive HasOddType : Json → Prop where
  | object {fields : List (String × Json)} : (fieldD fields "type").isVacant = false →
      (∀ s, fieldD fields "type" ≠ .text s) → HasOddType (.object fields)

/-- The text of the id of an entry. -/
def idText : Json → String
  | .object fields => ((field? fields "id").getD (.text "")).display
  | _ => ""

theorem idText_object (fields : List (String × Json)) :
    (object fields).idText = ((field? fields "id").getD (.text "")).display := rfl

end Json

/-! ## One component -/

theorem Pin.exists_ofEntry {j : Json} (h : j.IsPin) : ∃ p, Pin.ofEntry j = .ok p := by
  cases h with
  | null => exact ⟨_, rfl⟩
  | text s => exact ⟨_, rfl⟩
  | object hnet => exact ⟨_, rfl⟩

namespace Component

variable {item : Json} {key : IdKey} {c : Component}

theorem exists_pinsOfJson {fields pins : List (String × Json)}
    (htable : (Json.field? fields "pins").getD (.object []) = .object pins)
    (hall : ∀ p ∈ pins, p.2.IsPin) :
    ∃ table, pinsOfJson (Json.fieldD fields "pins") = .ok table := by
  unfold Json.fieldD
  unfold Json.field? at htable
  cases hfield : fields.lookup "pins" with
  | none => exact ⟨[], rfl⟩
  | some j =>
    rw [hfield, Option.getD_some] at htable
    subst htable
    rw [Option.getD_some]
    unfold pinsOfJson
    split
    · exact ⟨[], rfl⟩
    · refine exists_mapM_eq_ok fun p hp => ?_
      obtain ⟨pin, hpin⟩ := Pin.exists_ofEntry (hall p hp)
      exact ⟨(p.1, pin), by rw [hpin]; rfl⟩

theorem typeOfJson_of_odd {j : Json} (hvacant : j.isVacant = false) (htext : ∀ s, j ≠ .text s) :
    typeOfJson j = .error .type := by
  unfold typeOfJson
  rw [hvacant]
  cases j with
  | text s => exact absurd rfl (htext s)
  | _ => rfl

theorem exists_typeOfJson {j : Json} (h : ¬ (j.isVacant = false ∧ ∀ s, j ≠ .text s)) :
    ∃ s, typeOfJson j = .ok s := by
  unfold typeOfJson
  split
  · exact ⟨"", rfl⟩
  · next hvacant =>
    have htext : ∃ s, j = .text s := by
      by_contra hnone
      exact h ⟨eq_false_of_ne_true hvacant, fun s hs => hnone ⟨s, hs⟩⟩
    obtain ⟨s, rfl⟩ := htext
    exact ⟨s, rfl⟩

theorem ofJson_of_oddType (h : item.IsComponent key) (hodd : item.HasOddType) :
    ofJson item = .error .type := by
  obtain ⟨-, -, -, htable, hall⟩ := h
  obtain ⟨hvacant, htext⟩ := hodd
  obtain ⟨table, hpins⟩ := exists_pinsOfJson htable hall
  unfold ofJson
  simp only [hpins, typeOfJson_of_odd hvacant htext]
  rfl

theorem exists_ofJson (h : item.IsComponent key) (hodd : ¬ item.HasOddType) :
    ∃ c, ofJson item = .ok c := by
  obtain ⟨-, -, -, htable, hall⟩ := h
  obtain ⟨table, hpins⟩ := exists_pinsOfJson htable hall
  obtain ⟨s, htype⟩ := exists_typeOfJson fun h => hodd (.object h.1 h.2)
  unfold ofJson
  simp only [hpins, htype]
  exact ⟨_, rfl⟩

/-- The parts of a component that was read. -/
theorem exists_of_ofJson (h : ofJson item = .ok c) : ∃ fields, item = .object fields ∧
    pinsOfJson (Json.fieldD fields "pins") = .ok c.pins ∧
    typeOfJson (Json.fieldD fields "type") = .ok c.typeWord ∧
    c.kind = Kind.ofWords c.kindWord c.typeWord ∧ c.id = item.idText := by
  unfold ofJson at h
  split at h
  · next fields =>
    cases hpins : pinsOfJson (Json.fieldD fields "pins") with
    | error e =>
      rw [hpins] at h
      cases h
    | ok table =>
      cases htype : typeOfJson (Json.fieldD fields "type") with
      | error e =>
        rw [hpins, htype] at h
        cases h
      | ok s =>
        rw [hpins, htype] at h
        cases h
        refine ⟨fields, rfl, hpins, htype, ?_, ?_⟩
        · dsimp only
        · rw [Json.idText_object]
  · cases h

theorem id_of_ofJson (h : ofJson item = .ok c) : c.id = item.idText := by
  obtain ⟨_, -, -, -, -, hid⟩ := exists_of_ofJson h
  exact hid

end Component

/-! ## Documents -/

namespace Circuit

open InvalidCircuit

variable {j : Json} {items : List Json} {keys : List IdKey} {circuit : Circuit}

/-- Components that are read from these entries, one from each in order. -/
def ReadFrom (items : List Json) (circuit : Circuit) : Prop :=
  List.Forall₂ (fun item c => Component.ofJson item = .ok c) items circuit.components

theorem ofJson_of_lists (h : j.Lists items) :
    ofJson j = (items.mapM Component.ofJson).map Circuit.mk := by
  obtain ⟨fields, rfl, hfield⟩ := h
  unfold ofJson
  simp only [hfield, Option.getD_some, itemsOfJson, bind, Except.bind]
  cases items.mapM Component.ofJson <;> rfl

theorem ofJson_eq_ok_iff (h : j.Lists items) : ofJson j = .ok circuit ↔ circuit.ReadFrom items := by
  unfold ReadFrom
  rw [ofJson_of_lists h, ← mapM_eq_ok_iff]
  cases items.mapM Component.ofJson with
  | error e => exact iff_of_false nofun nofun
  | ok components =>
    constructor
    · rintro ⟨⟩
      rfl
    · rintro ⟨⟩
      rfl

/-- A circuit is loaded from a document exactly if it is read from valid entries. -/
theorem ofDocument_eq_ok_iff : ofDocument j = .ok circuit ↔
    ∃ items keys, j.Lists items ∧ Json.AreComponents items keys ∧ circuit.ReadFrom items := by
  constructor
  · intro h
    unfold ofDocument at h
    split at h
    · cases h
    · next hcheck =>
      obtain ⟨items, keys, hlists, hkeys⟩ := check_eq_ok_iff.mp hcheck
      split at h
      · cases h
      · next found hfound =>
        cases h
        exact ⟨items, keys, hlists, hkeys, (ofJson_eq_ok_iff hlists).mp hfound⟩
  · rintro ⟨items, keys, hlists, hkeys, hread⟩
    unfold ofDocument
    rw [check_eq_ok_iff.mpr ⟨items, keys, hlists, hkeys⟩, (ofJson_eq_ok_iff hlists).mpr hread]

theorem ReadFrom.ids (h : circuit.ReadFrom items) :
    circuit.components.map Component.id = items.map Json.idText := by
  unfold ReadFrom at h
  generalize circuit.components = components at h ⊢
  induction h with
  | nil => rfl
  | cons hfirst _ ih => rw [List.map_cons, List.map_cons, Component.id_of_ofJson hfirst, ih]

theorem exists_readFrom (hkeys : Json.AreComponents items keys)
    (htypes : ∀ item ∈ items, ¬ item.HasOddType) : ∃ circuit : Circuit, circuit.ReadFrom items := by
  have hall : ∀ item ∈ items, ∃ c, Component.ofJson item = .ok c := by
    intro item hitem
    obtain ⟨key, -, hcomponent⟩ := exists_mem_of_forall₂ hkeys.shape hitem
    exact Component.exists_ofJson hcomponent (htypes item hitem)
  obtain ⟨components, hread⟩ := exists_mapM_eq_ok hall
  exact ⟨⟨components⟩, mapM_eq_ok_iff.mp hread⟩

/-- Components have a deck, or one of their junctions is in conflict. -/
theorem exists_deck_or_conflict (components : List Component) (s : Settings) :
    (∃ deck, Deck.ofComponents components s = .ok deck) ∨
      ∃ c ∈ components, c.kind = .junction ∧
        ∃ nodes, Deck.ofComponents components s = .error ⟨c.designator, nodes⟩ := by
  cases hdeck : Deck.ofComponents components s with
  | ok deck => exact .inl ⟨deck, rfl⟩
  | error e =>
    obtain ⟨before, c, after, b, lines, rfl, -, hplace⟩ :=
      Assembly.run_eq_error_iff.mp (Deck.ofComponents_eq_error.mp hdeck)
    obtain ⟨hkind, hmerge⟩ := Assembly.place_eq_error_iff.mp hplace
    obtain ⟨-, rfl⟩ := Junction.merge_eq_error_iff.mp hmerge
    exact .inr ⟨c, by simp, hkind, _, rfl⟩

/-- A document is refused with a fault that loaders are prepared for, or it passes the check and is
loaded: one component for each entry, no two with one id, and for every settings a deck or a
conflict of one of the junctions. -/
inductive LoadsOrIsRefused (j : Json) : Prop where
  | refused {e : InvalidCircuit} : check j = .error e →
      (DocumentError.invalidCircuit e).isExpected = true → LoadsOrIsRefused j
  | loaded {items : List Json} {circuit : Circuit} : check j = .ok () → ofJson j = .ok circuit →
      j.Lists items → circuit.ReadFrom items → (circuit.components.map Component.id).Nodup →
      (∀ s, (∃ deck, Deck.ofComponents circuit.components s = .ok deck) ∨
        ∃ c ∈ circuit.components, c.kind = .junction ∧
          ∃ nodes, Deck.ofComponents circuit.components s = .error ⟨c.designator, nodes⟩) →
      LoadsOrIsRefused j

/-- The documents that are neither refused nor loaded as they should be: the check meets an id that
cannot be compared, a type word stops the reading of valid entries, or ids of valid entries differ
as values but not as texts. -/
inductive SlipsThrough (j : Json) : Prop where
  | compoundId {before after : List Json} {item : Json} {keys : List IdKey} :
      j.Lists (before ++ item :: after) → Json.AreComponents before keys → item.HasCompoundId →
      SlipsThrough j
  | oddType {items : List Json} {item : Json} {keys : List IdKey} : j.Lists items →
      Json.AreComponents items keys → item ∈ items → item.HasOddType → SlipsThrough j
  | sameIdText {items : List Json} {keys : List IdKey} : j.Lists items →
      Json.AreComponents items keys → ¬ (items.map Json.idText).Nodup → SlipsThrough j

theorem isExpected_invalidCircuit {e : InvalidCircuit} :
    (DocumentError.invalidCircuit e).isExpected = true ↔ e ≠ .compoundId := by
  cases e <;> simp [DocumentError.isExpected]

theorem not_slipsThrough (h : LoadsOrIsRefused j) : ¬ SlipsThrough j := by
  cases h with
  | refused hcheck hexpected =>
    rintro (⟨hlists, hkeys, hbad⟩ | ⟨hlists, hkeys, -, -⟩ | ⟨hlists, hkeys, -⟩)
    · rw [check_eq_compoundId_iff.mpr ⟨_, _, _, _, hlists, hkeys, hbad⟩] at hcheck
      cases hcheck
      exact isExpected_invalidCircuit.mp hexpected rfl
    · rw [check_eq_ok_iff.mpr ⟨_, _, hlists, hkeys⟩] at hcheck
      cases hcheck
    · rw [check_eq_ok_iff.mpr ⟨_, _, hlists, hkeys⟩] at hcheck
      cases hcheck
  | loaded hcheck _ hlists hread hdistinct _ =>
    rintro (⟨hlists', hkeys, hbad⟩ | ⟨hlists', hkeys, hitem, hodd⟩ | ⟨hlists', -, hsame⟩)
    · rw [check_eq_compoundId_iff.mpr ⟨_, _, _, _, hlists', hkeys, hbad⟩] at hcheck
      cases hcheck
    · obtain rfl := hlists.unique hlists'
      obtain ⟨key, -, hcomponent⟩ := exists_mem_of_forall₂ hkeys.shape hitem
      obtain ⟨c, -, hc⟩ := exists_mem_of_forall₂ hread hitem
      rw [Component.ofJson_of_oddType hcomponent hodd] at hc
      cases hc
    · obtain rfl := hlists.unique hlists'
      exact hsame (hread.ids ▸ hdistinct)

/-- **Loading is all or nothing but for three slips.** Every document is refused with a fault that
loaders are prepared for, or loaded as a whole with an id of its own for each component, exactly if
it does not slip through. -/
theorem loadsOrIsRefused_iff (j : Json) : LoadsOrIsRefused j ↔ ¬ SlipsThrough j := by
  refine ⟨not_slipsThrough, fun hslips => ?_⟩
  cases hcheck : check j with
  | error e =>
    refine .refused hcheck (isExpected_invalidCircuit.mpr ?_)
    rintro rfl
    obtain ⟨before, item, after, keys, hlists, hkeys, hbad⟩ := check_eq_compoundId_iff.mp hcheck
    exact hslips (.compoundId hlists hkeys hbad)
  | ok u =>
    obtain ⟨items, keys, hlists, hkeys⟩ := check_eq_ok_iff.mp hcheck
    obtain ⟨circuit, hread⟩ := exists_readFrom hkeys fun item hitem hodd =>
      hslips (.oddType hlists hkeys hitem hodd)
    have hdistinct : (circuit.components.map Component.id).Nodup := by
      rw [hread.ids]
      by_contra hsame
      exact hslips (.sameIdText hlists hkeys hsame)
    exact .loaded hcheck ((ofJson_eq_ok_iff hlists).mpr hread) hlists hread hdistinct
      (exists_deck_or_conflict circuit.components)

/-- A document with one junction, whose type word is a number. -/
def numberType : Json := .object [("components", .list [
  .object [("id", .text "s1"), ("kind", .text "node"), ("type", .int 1)]])]

/-- A document with one junction, whose id is a list. -/
def listId : Json := .object [("components", .list [
  .object [("id", .list []), ("kind", .text "node")]])]

/-- A document with two junctions, whose ids are a number and its text. -/
def sameText : Json := .object [("components", .list [
  .object [("id", .int 1), ("kind", .text "node")],
  .object [("id", .text "1"), ("kind", .text "node")]])]

/-- A junction whose type word is a number passes the check and is not loaded, an id that is a list
stops the check itself, and the ids 1 and "1" pass as different ones and are the same when
loaded. -/
theorem not_loadsOrIsRefused_of_slip :
    (check numberType = .ok () ∧ ofJson numberType = .error .type ∧
      ¬ LoadsOrIsRefused numberType) ∧
    (check listId = .error .compoundId ∧ ¬ LoadsOrIsRefused listId) ∧
    (check sameText = .ok () ∧ ¬ LoadsOrIsRefused sameText) := by
  have hnumber : check numberType = .ok () := rfl
  have hlist : check listId = .error .compoundId := rfl
  have hsame : check sameText = .ok () := rfl
  refine ⟨⟨hnumber, rfl, ?_⟩, ⟨hlist, ?_⟩, hsame, ?_⟩
  · rintro (⟨hcheck, -⟩ | ⟨-, hload, -⟩)
    · rw [hnumber] at hcheck
      cases hcheck
    · cases hload
  · rintro (⟨hcheck, hexpected⟩ | ⟨hcheck, -⟩)
    · rw [hlist] at hcheck
      cases hcheck
      cases hexpected
    · rw [hlist] at hcheck
      cases hcheck
  · rintro (⟨hcheck, -⟩ | ⟨-, hload, -, -, hdistinct, -⟩)
    · rw [hsame] at hcheck
      cases hcheck
    · cases hload
      exact absurd hdistinct (by decide)

end Circuit

end Breadboard
