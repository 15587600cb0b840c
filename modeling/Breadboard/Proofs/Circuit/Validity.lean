import Breadboard.Circuit.Validation
import Breadboard.Proofs.Lists

/-!
# What the check of circuits accepts

Validity of a document is stated here without the check: its entries are objects with an id and a
kind, no id twice, and pins that name nets (`Json.AreComponents`). The check passes on exactly these
documents, and it stops at an id that cannot be compared exactly if all entries before it are fine.
-/

namespace Breadboard

namespace Json

/-- The list of components that a document holds. -/
def Lists (j : Json) (items : List Json) : Prop :=
  ∃ fields, j = .object fields ∧ field? fields "components" = some (.list items)

/-- What may stand for the net of a pin; null says that there is none. -/
inductive IsNet : Json → Prop where
  | null : IsNet .null
  | text (s : String) : IsNet (.text s)
  | int (n : Int) : IsNet (.int n)
  | bool (b : Bool) : IsNet (.bool b)

/-- What may stand for a pin in a pin table. -/
inductive IsPin : Json → Prop where
  | null : IsPin .null
  | text (s : String) : IsPin (.text s)
  | object {fields : List (String × Json)} : IsNet (fieldD fields "net") → IsPin (.object fields)

/-- An entry of a component list, with the key that its id is compared by. -/
inductive IsComponent : Json → IdKey → Prop where
  | object {fields pins : List (String × Json)} {id kind : Json} {key : IdKey} :
      field? fields "id" = some id → IdKey.ofJson? id = some key →
      field? fields "kind" = some kind → (field? fields "pins").getD (.object []) = .object pins →
      (∀ p ∈ pins, IsPin p.2) → IsComponent (.object fields) key

/-- An entry whose id is a list or an object, which cannot be compared. -/
inductive HasCompoundId : Json → Prop where
  | object {fields : List (String × Json)} {id kind : Json} :
      field? fields "id" = some id → IdKey.ofJson? id = none →
      field? fields "kind" = some kind → HasCompoundId (.object fields)

/-- Entries of a component list with ids that are told apart. -/
structure AreComponents (items : List Json) (keys : List IdKey) : Prop where
  shape : List.Forall₂ IsComponent items keys
  distinct : keys.Nodup

theorem Lists.unique {j : Json} {items others : List Json} (h : j.Lists items)
    (h' : j.Lists others) : items = others := by
  obtain ⟨fields, rfl, hfield⟩ := h
  obtain ⟨_, ⟨⟩, hfield'⟩ := h'
  rw [hfield] at hfield'
  cases hfield'
  rfl

end Json

namespace InvalidCircuit

open Json

variable {j item : Json} {items : List Json} {key : IdKey} {seen : List IdKey} {number : Nat}

/-! ## One component -/

theorem checkPin_eq_ok_iff (id label : String) : checkPin id label j = .ok () ↔ j.IsPin := by
  constructor
  · intro h
    unfold checkPin at h
    split at h
    · exact .null
    · exact .text _
    · next fields =>
      refine .object ?_
      split at h
      · next hnet => rw [hnet]; exact .null
      · next hnet => rw [hnet]; exact .text _
      · next hnet => rw [hnet]; exact .int _
      · next hnet => rw [hnet]; exact .bool _
      · cases h
    · cases h
  · rintro (_ | _ | hnet)
    · rfl
    · rfl
    · generalize hj : fieldD _ "net" = net at hnet
      unfold checkPin
      dsimp only
      rw [hj]
      cases hnet <;> rfl

theorem checkPin_ne_compoundId (id label : String) : checkPin id label j ≠ .error .compoundId := by
  unfold checkPin
  split
  · nofun
  · nofun
  · split <;> nofun
  · nofun

theorem checkPins_eq_ok_iff (id : String) :
    checkPins id j = .ok () ↔ ∃ pins, j = .object pins ∧ ∀ p ∈ pins, p.2.IsPin := by
  cases j with
  | object pins =>
    unfold checkPins
    rw [forM_eq_ok_iff]
    simp only [checkPin_eq_ok_iff, object.injEq, exists_eq_left']
  | _ => simp [checkPins]

theorem checkPins_ne_compoundId (id : String) : checkPins id j ≠ .error .compoundId := by
  cases j with
  | object pins =>
    intro h
    obtain ⟨p, -, hp⟩ := exists_of_forM_eq_error h
    exact checkPin_ne_compoundId _ _ hp
  | _ => nofun

theorem checkComponent_eq_ok_iff :
    checkComponent seen number item = .ok key ↔ item.IsComponent key ∧ key ∉ seen := by
  constructor
  · intro h
    unfold checkComponent at h
    split at h
    · next fields =>
      split at h
      · cases h
      · next id hid =>
        split at h
        · cases h
        · next kind hkind =>
          split at h
          · cases h
          · next found hfound =>
            split at h
            · cases h
            · next hnew =>
              cases hpins : checkPins id.display ((field? fields "pins").getD (.object [])) with
              | error e =>
                rw [hpins] at h
                cases h
              | ok u =>
                rw [hpins] at h
                cases h
                obtain ⟨pins, htable, hall⟩ := (checkPins_eq_ok_iff _).mp hpins
                exact ⟨.object hid hfound hkind htable hall,
                  fun hmem => hnew (List.contains_iff_mem.mpr hmem)⟩
    · cases h
  · rintro ⟨@⟨fields, pins, id, kind, key, hid, hkey, hkind, htable, hall⟩, hnew⟩
    have hpins : checkPins id.display ((field? fields "pins").getD (.object [])) = .ok () :=
      (checkPins_eq_ok_iff _).mpr ⟨pins, htable, hall⟩
    have hseen : ¬ seen.contains key = true := fun h => hnew (List.contains_iff_mem.mp h)
    unfold checkComponent
    simp only [hid, hkind, hkey]
    rw [if_neg hseen, hpins]
    rfl

theorem checkComponent_eq_compoundId_iff :
    checkComponent seen number item = .error .compoundId ↔ item.HasCompoundId := by
  constructor
  · intro h
    unfold checkComponent at h
    split at h
    · next fields =>
      split at h
      · cases h
      · next id hid =>
        split at h
        · cases h
        · next kind hkind =>
          split at h
          · next hnone => exact .object hid hnone hkind
          · split at h
            · cases h
            · cases hpins : checkPins id.display ((field? fields "pins").getD (.object [])) with
              | ok u =>
                rw [hpins] at h
                cases h
              | error e =>
                rw [hpins] at h
                cases h
                exact absurd hpins (checkPins_ne_compoundId _)
    · cases h
  · rintro ⟨hid, hnone, hkind⟩
    unfold checkComponent
    simp only [hid, hkind, hnone]

/-! ## All components -/

/-- Keys that are told apart from each other and from those seen before. -/
def Fresh (seen keys : List IdKey) : Prop := keys.Nodup ∧ ∀ k ∈ keys, k ∉ seen

theorem fresh_nil_left {keys : List IdKey} : Fresh [] keys ↔ keys.Nodup := by simp [Fresh]

theorem fresh_cons {keys : List IdKey} :
    Fresh seen (key :: keys) ↔ key ∉ seen ∧ Fresh (key :: seen) keys := by
  unfold Fresh
  rw [List.nodup_cons, List.forall_mem_cons]
  constructor
  · rintro ⟨⟨hkey, hdistinct⟩, hnew, happart⟩
    refine ⟨hnew, hdistinct, fun k hk => ?_⟩
    rw [List.mem_cons, not_or]
    exact ⟨fun heq => hkey (heq ▸ hk), happart k hk⟩
  · rintro ⟨hnew, hdistinct, happart⟩
    refine ⟨⟨fun hkey => happart key hkey List.mem_cons_self, hdistinct⟩, hnew,
      fun k hk hseen => ?_⟩
    exact happart k hk (List.mem_cons_of_mem key hseen)

/-- The keys that the entries have are the ones that the check finds. -/
theorem eq_of_checkComponent {key' : IdKey} (h : checkComponent seen number item = .ok key)
    (hitem : item.IsComponent key') (hnew : key' ∉ seen) : key' = key :=
  Except.ok.inj ((checkComponent_eq_ok_iff.mpr ⟨hitem, hnew⟩).symm.trans h)

/-- The induction is on the list; the keys seen so far and the number stay general. -/
theorem checkComponents_eq_ok_iff :
    checkComponents seen number items = .ok () ↔
      ∃ keys, List.Forall₂ IsComponent items keys ∧ Fresh seen keys := by
  induction items generalizing seen number with
  | nil => simp [checkComponents, Fresh]
  | cons item rest ih =>
    unfold checkComponents
    cases hitem : checkComponent seen number item with
    | error e =>
      refine iff_of_false nofun ?_
      rintro ⟨_, _ | ⟨hcomponent, -⟩, hfresh⟩
      rw [checkComponent_eq_ok_iff.mpr ⟨hcomponent, (fresh_cons.mp hfresh).1⟩] at hitem
      cases hitem
    | ok key =>
      obtain ⟨hcomponent, hnew⟩ := checkComponent_eq_ok_iff.mp hitem
      dsimp only
      rw [ih]
      constructor
      · rintro ⟨keys, hrest, hfresh⟩
        exact ⟨key :: keys, .cons hcomponent hrest, fresh_cons.mpr ⟨hnew, hfresh⟩⟩
      · rintro ⟨_, _ | ⟨hcomponent', hrest⟩, hfresh⟩
        obtain ⟨hnew', hfresh⟩ := fresh_cons.mp hfresh
        obtain rfl := eq_of_checkComponent hitem hcomponent' hnew'
        exact ⟨_, hrest, hfresh⟩

theorem checkComponents_eq_compoundId_iff :
    checkComponents seen number items = .error .compoundId ↔
      ∃ before item after keys, items = before ++ item :: after ∧
        List.Forall₂ IsComponent before keys ∧ Fresh seen keys ∧ item.HasCompoundId := by
  induction items generalizing seen number with
  | nil => simp [checkComponents]
  | cons item rest ih =>
    unfold checkComponents
    cases hitem : checkComponent seen number item with
    | error e =>
      constructor
      · intro h
        cases h
        exact ⟨[], item, rest, [], rfl, .nil, ⟨List.nodup_nil, nofun⟩,
          checkComponent_eq_compoundId_iff.mp hitem⟩
      · rintro ⟨_ | ⟨first, before⟩, bad, after, keys, ⟨⟩, hbefore, hfresh, hbad⟩
        · rw [checkComponent_eq_compoundId_iff.mpr hbad] at hitem
          cases hitem
          rfl
        · obtain _ | ⟨hcomponent, -⟩ := hbefore
          rw [checkComponent_eq_ok_iff.mpr ⟨hcomponent, (fresh_cons.mp hfresh).1⟩] at hitem
          cases hitem
    | ok key =>
      obtain ⟨hcomponent, hnew⟩ := checkComponent_eq_ok_iff.mp hitem
      dsimp only
      rw [ih]
      constructor
      · rintro ⟨before, bad, after, keys, rfl, hbefore, hfresh, hbad⟩
        exact ⟨item :: before, bad, after, key :: keys, rfl, .cons hcomponent hbefore,
          fresh_cons.mpr ⟨hnew, hfresh⟩, hbad⟩
      · rintro ⟨_ | ⟨first, before⟩, bad, after, keys, ⟨⟩, hbefore, hfresh, hbad⟩
        · rw [checkComponent_eq_compoundId_iff.mpr hbad] at hitem
          cases hitem
        · obtain _ | ⟨hcomponent', hrest⟩ := hbefore
          obtain ⟨hnew', hfresh⟩ := fresh_cons.mp hfresh
          obtain rfl := eq_of_checkComponent hitem hcomponent' hnew'
          exact ⟨before, bad, after, _, rfl, hrest, hfresh, hbad⟩

/-! ## Documents -/

theorem check_eq_ok_iff :
    check j = .ok () ↔ ∃ items keys, j.Lists items ∧ AreComponents items keys := by
  constructor
  · intro h
    unfold check at h
    split at h
    · next fields =>
      split at h
      · next items hfield =>
        obtain ⟨keys, hshape, hfresh⟩ := checkComponents_eq_ok_iff.mp h
        exact ⟨items, keys, ⟨fields, rfl, hfield⟩, hshape, fresh_nil_left.mp hfresh⟩
      · cases h
    · cases h
  · rintro ⟨items, keys, ⟨fields, rfl, hfield⟩, hshape, hdistinct⟩
    unfold check
    simp only [hfield]
    exact checkComponents_eq_ok_iff.mpr ⟨keys, hshape, fresh_nil_left.mpr hdistinct⟩

/-- The check stops at an id that cannot be compared if all is well before it. -/
theorem check_eq_compoundId_iff :
    check j = .error .compoundId ↔ ∃ before item after keys,
      j.Lists (before ++ item :: after) ∧ AreComponents before keys ∧ item.HasCompoundId := by
  constructor
  · intro h
    unfold check at h
    split at h
    · next fields =>
      split at h
      · next items hfield =>
        obtain ⟨before, item, after, keys, rfl, hshape, hfresh, hbad⟩ :=
          checkComponents_eq_compoundId_iff.mp h
        exact ⟨before, item, after, keys, ⟨fields, rfl, hfield⟩,
          ⟨hshape, fresh_nil_left.mp hfresh⟩, hbad⟩
      · cases h
    · cases h
  · rintro ⟨before, item, after, keys, ⟨fields, rfl, hfield⟩, ⟨hshape, hdistinct⟩, hbad⟩
    unfold check
    simp only [hfield]
    exact checkComponents_eq_compoundId_iff.mpr
      ⟨before, item, after, keys, rfl, hshape, fresh_nil_left.mpr hdistinct, hbad⟩

end InvalidCircuit

end Breadboard
