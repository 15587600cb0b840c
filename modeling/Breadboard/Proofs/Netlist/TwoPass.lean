import Breadboard.Proofs.Netlist.Assembly

/-!
# One pass is as good as two

Device lines are written while nets are still being numbered. A second pass would write them from
the finished map alone (`TwoPass.lines`); it succeeds and writes the same lines, for no net is moved
once its node was written.
-/

namespace Breadboard.TwoPass

/-- The devices that become lines, in order. -/
def placed (components : List Component) : List (Device × Component) :=
  components.filterMap fun c =>
    match c.kind with
    | .device d => if c.isPlaced then some (d, c) else none
    | _ => none

/-- The line of a device from a finished map, if the map has all its nets. -/
def lineText (m : NodeMap) (p : Device × Component) : Option String :=
  ((p.1.requiredPins.map p.2.netOf).mapM m.nodeOf).map fun nodes =>
    p.1.letter ++ p.2.designator ++ " " ++ " ".intercalate (nodes.map toString) ++ " "
      ++ DeviceLine.tailText (p.1.tail p.2)

/-- The device lines that a second pass writes from a finished map. -/
def lines (m : NodeMap) (components : List Component) : Option (List String) :=
  (placed components).mapM (lineText m)

/-- Whether a component is left out with a notice. -/
def isSkipped (c : Component) : Bool :=
  !c.isPlaced && c.kind != .junction && c.kind != .displayOnly

/-- Why a component is left out. -/
def skipReason (c : Component) : String :=
  match c.kind with
  | .device d => "pin(s) " ++ ", ".intercalate (d.unwiredPins c) ++ " not connected"
  | _ => s!"unsupported component kind '{c.kindWord}'"

/-- The notice for a component that is left out. -/
def skipText (c : Component) : String := s!"Skipped {c.designator}: {skipReason c}"

/-- The notices for the models that lines name and the library does not define. -/
def modelTexts (lines : List DeviceLine) : List String :=
  ((lines.filterMap DeviceLine.model?).eraseDups.filter (! DeviceModel.isDefined ·)).map
    fun name => s!"Model '{name}' has no definition in the model library"

/-- The line of a device whose nets have the nodes of a finished map, if the map has them all. -/
def lineAt (m : NodeMap) (p : Device × Component) : Option DeviceLine :=
  ((p.1.requiredPins.map p.2.netOf).mapM m.nodeOf).map (Assembly.lineOf p.1 p.2)

/-- The devices that become lines are the components of a device kind that are placed. -/
theorem mem_placed {components : List Component} {d : Device} {c : Component} :
    (d, c) ∈ placed components ↔ c ∈ components ∧ c.kind = .device d ∧ c.isPlaced = true := by
  unfold placed
  rw [List.mem_filterMap]
  constructor
  · rintro ⟨c', hc, h⟩
    split at h
    · next hk =>
      split_ifs at h with hplaced
      cases h
      exact ⟨hc, hk, hplaced⟩
    · cases h
  · rintro ⟨hc, hk, hplaced⟩
    exact ⟨c, hc, by simp only [hk, hplaced, if_true]⟩

theorem lineText_eq (m : NodeMap) (p : Device × Component) :
    lineText m p = (lineAt m p).map DeviceLine.text := by
  rw [lineText, lineAt, Option.map_map]
  rfl

/-- A line stays as it is while the table grows. -/
theorem lineAt_grows {t u : NodeTable} {bundles : List (List String)} (h : t.Grows bundles u)
    {p : Device × Component} {line : DeviceLine} (ht : lineAt t.toNodeMap p = some line) :
    lineAt u.toNodeMap p = some line := by
  unfold lineAt at ht ⊢
  obtain ⟨nodes, hn, rfl⟩ := Option.map_eq_some_iff.mp ht
  rw [mapM_some_mono (g := u.toNodeMap.nodeOf) (fun _ _ => h.lookup) hn]
  rfl

theorem lineAt_enterAll {t : NodeTable} (ht : t.Numbered) {d : Device} {c : Component}
    (hu : d.unwiredPins c = []) {indices : List Int} {u : NodeTable}
    (he : t.enterAll (d.requiredPins.map c.netOf) = (indices, u)) :
    lineAt u.toNodeMap (d, c) = some (Assembly.lineOf d c indices) := by
  have hl := NodeTable.lookup_enterAll ht (d.requiredPins.map c.netOf) (by
    simpa using Device.unwiredPins_eq_nil_iff.mp hu)
  rw [he] at hl
  unfold lineAt
  rw [show (d.requiredPins.map c.netOf).mapM u.toNodeMap.nodeOf = some indices from
    mapM_eq_some_iff.mpr hl]
  rfl

theorem lineText_grows {t u : NodeTable} {bundles : List (List String)} (h : t.Grows bundles u)
    {p : Device × Component} {text : String} (ht : lineText t.toNodeMap p = some text) :
    lineText u.toNodeMap p = some text := by
  rw [lineText_eq] at ht ⊢
  obtain ⟨line, hl, rfl⟩ := Option.map_eq_some_iff.mp ht
  rw [lineAt_grows h hl]
  rfl

theorem lineText_enterAll {t : NodeTable} (ht : t.Numbered) {d : Device} {c : Component}
    (hu : d.unwiredPins c = []) {indices : List Int} {u : NodeTable}
    (he : t.enterAll (d.requiredPins.map c.netOf) = (indices, u)) :
    lineText u.toNodeMap (d, c) = some (Assembly.lineOf d c indices).text := by
  rw [lineText_eq, lineAt_enterAll ht hu he]
  rfl

/-! ## The invariant of a run -/

/-- What holds of a run so far: a second pass from the present table over the components so far
writes the lines so far, and the notices and models are those of these components and lines. -/
structure Agrees (done : List Component) (a : Assembly) (written : List DeviceLine) : Prop where
  numbered : a.nodes.Numbered
  texts : lines a.nodes.toNodeMap done = some (written.map DeviceLine.text)
  notices : a.diagnostics.map Diagnostic.message = (done.filter isSkipped).map skipText
  models : a.models = (written.filterMap DeviceLine.model?).eraseDups

theorem lines_grows {t u : NodeTable} {bundles : List (List String)} (h : t.Grows bundles u)
    {components : List Component} {texts : List String}
    (hl : lines t.toNodeMap components = some texts) : lines u.toNodeMap components = some texts :=
  mapM_some_mono (fun _ _ => lineText_grows h) hl

theorem lines_append {m : NodeMap} {done : List Component} {c : Component}
    {texts more : List String} (hd : lines m done = some texts) (hc : lines m [c] = some more) :
    lines m (done ++ [c]) = some (texts ++ more) := by
  unfold lines placed at *
  rw [List.filterMap_append, List.mapM_append, hd, hc]
  rfl

theorem use_models (a : Assembly) (models : List String) (h : a.models = models.eraseDups)
    (model : Option String) : (a.use model).models = (models ++ model.toList).eraseDups := by
  cases model with
  | none => simpa [Assembly.use] using h
  | some name =>
    rw [List.eraseDups_append]
    by_cases hm : name ∈ models
    · simp [Assembly.use, h, hm, List.removeAll]
    · simp [Assembly.use, h, hm, List.removeAll, List.eraseDups_cons]

/-- A component without a line keeps the invariant if its notice, if any, is the one recorded. -/
theorem Agrees.no_line {done : List Component} {a b : Assembly} {written : List DeviceLine}
    {c : Component} (h : Agrees done a written) (hg : a.nodes.Grows c.bundles b.nodes)
    (hc : c.isPlaced = false) (hm : b.models = a.models)
    (hn : b.diagnostics.map Diagnostic.message =
      a.diagnostics.map Diagnostic.message ++ ([c].filter isSkipped).map skipText) :
    Agrees (done ++ [c]) b written := by
  refine ⟨hg.numbered h.numbered, ?_, ?_, hm.trans h.models⟩
  · have hnone : lines b.nodes.toNodeMap [c] = some [] := by
      have hp : placed [c] = [] := by
        cases hk : c.kind <;> simp [placed, hk, hc]
      rw [lines, hp]
      rfl
    rw [lines_append (lines_grows hg h.texts) hnone, List.append_nil]
  · rw [hn, h.notices, List.filter_append, List.map_append]

theorem message_unsupported {c : Component} (hk : c.kind = .unsupported) :
    (Diagnostic.unsupported c.designator c.kindWord).message = skipText c := by
  rw [skipText, skipReason, hk]
  rfl

theorem message_unwired {c : Component} {d : Device} (hk : c.kind = .device d) :
    (Diagnostic.unwired c.designator (d.unwiredPins c)).message = skipText c := by
  rw [skipText, skipReason, hk]
  rfl

theorem Agrees.report {done : List Component} {a : Assembly} {written : List DeviceLine}
    {c : Component} {d : Diagnostic} (h : Agrees done a written)
    (hg : a.nodes.Grows c.bundles (a.report d).nodes) (hs : isSkipped c = true)
    (hd : d.message = skipText c) : Agrees (done ++ [c]) (a.report d) written := by
  refine h.no_line hg ?_ (a.report_models d) ?_
  · simp only [isSkipped, Bool.and_eq_true, Bool.not_eq_true'] at hs
    exact hs.1.1
  · rw [List.filter_cons_of_pos hs, List.filter_nil, List.map_singleton, ← hd]
    exact List.map_append

theorem Agrees.place {done : List Component} {a b : Assembly} {written : List DeviceLine}
    {c : Component} {line : Option DeviceLine} (h : Agrees done a written)
    (hp : Assembly.Placed a c b line) : Agrees (done ++ [c]) b (written ++ line.toList) := by
  have hg := hp.grows
  cases hp with
  | instrument hk =>
    rw [Option.toList_none, List.append_nil]
    refine h.no_line hg (by simp [Component.isPlaced, hk]) rfl ?_
    simp [isSkipped, hk]
  | junction hk hm =>
    rw [Option.toList_none, List.append_nil]
    refine h.no_line hg (by simp [Component.isPlaced, hk]) rfl ?_
    simp [isSkipped, hk]
  | unsupported hk =>
    rw [Option.toList_none, List.append_nil]
    exact h.report hg (by simp [isSkipped, Component.isPlaced, hk]) (message_unsupported hk)
  | unwired hk hu =>
    rw [Option.toList_none, List.append_nil]
    refine h.report hg ?_ (message_unwired hk)
    simp [isSkipped, (Component.isPlaced_device hk).not.mpr hu, hk]
  | @device d nodes indices hk hu he =>
    have hc := (Component.isPlaced_device hk).mpr hu
    have hline : lines nodes.toNodeMap [c] = some [(Assembly.lineOf d c indices).text] := by
      have hp : placed [c] = [(d, c)] := by simp [placed, hk, hc]
      rw [lines, hp, List.mapM_cons, lineText_enterAll h.numbered hu he]
      rfl
    rw [Assembly.use_nodes] at hg
    refine ⟨?_, ?_, ?_, ?_⟩
    · rw [Assembly.use_nodes]
      exact hg.numbered h.numbered
    · rw [Assembly.use_nodes, List.map_append]
      exact lines_append (lines_grows hg h.texts) hline
    · rw [Assembly.use_diagnostics, List.filter_append, List.map_append, ← h.notices]
      simp [isSkipped, hc]
    · rw [List.filterMap_append, use_models { a with nodes } _ h.models]
      cases hm : (Assembly.lineOf d c indices).model? <;> simp [hm]

theorem agrees_of_run {components : List Component} {a : Assembly} {written : List DeviceLine}
    (h : Assembly.start.run components = .ok (a, written)) : Agrees components a written := by
  have hstart : Agrees [] .start [] := ⟨NodeTable.numbered_start, rfl, rfl, rfl⟩
  have hend := Assembly.run_induction (P := Agrees) (fun h hp => h.place hp) [] [] hstart h
  rwa [List.nil_append, List.nil_append] at hend

/-- The notices of a deck are those of the components that are left out, and behind them those of
the models that are not defined. -/
theorem diagnostics_eq {components : List Component} {s : Settings} {deck : Deck}
    (h : Deck.ofComponents components s = .ok deck) :
    deck.diagnostics =
      (components.filter isSkipped).map skipText ++ modelTexts deck.deviceLines := by
  obtain ⟨a, hrun, -, hdiag⟩ := Deck.exists_run h
  have hend := agrees_of_run hrun
  rw [hdiag, List.map_append, hend.notices, Assembly.undefinedModels, hend.models, modelTexts,
    List.map_map]
  rfl

/-- A device, a junction behind it, two components that are left out, and a source. -/
def mixed : List Component :=
  [.wired "1" (.device .resistor) [("1", "a"), ("2", "gnd")],
    .wired "J" .junction [("1", " a "), ("2", "b"), ("3", "GND")],
    .wired "2" (.device .resistor) [("1", "b"), ("2", " ")], .wired "X" .unsupported [],
    .wired "3" (.device .voltageSource) [("1", "c"), ("2", "b")]]

end Breadboard.TwoPass
