import Blockwright.Proofs.Agreement

/-!
# Which extensions count

Of several extensions of one name a catalogue keeps the last, and those that a project brings along
come after the configured ones. A form and its blocks depend on a catalogue only through the
extensions whose name starts the name of a component, so neither the order of distinct extensions
nor an extension that no component can need is seen in them. A form lists the extensions that the
blocks use for components other than screens.
-/

namespace Blockwright

open Script

/-! ### The last of a name -/

section lastNamed

variable {α : Type} (name : α → String) {key : String}

/-- The last item of a name. -/
def lastNamed? (key : String) (items : List α) : Option α :=
  items.reverse.find? (fun item ↦ name item == key)

/-- The items that no later item of the same name follows. -/
def lastOfEach : List α → List α
  | [] => []
  | item :: items =>
    if name item ∈ items.map name then lastOfEach items else item :: lastOfEach items

variable {name}

/-- Later items come before earlier ones. -/
theorem lastNamed?_append (first second : List α) : lastNamed? name key (first ++ second) =
    (lastNamed? name key second).or (lastNamed? name key first) := by
  rw [lastNamed?, List.reverse_append, List.find?_append]
  rfl

/-- An item is the last of its name if no later one has the name. -/
theorem lastNamed?_cons (item : α) (items : List α) : lastNamed? name key (item :: items) =
    (lastNamed? name key items).or (if key = name item then some item else none) := by
  have hone : lastNamed? name key [item] = if key = name item then some item else none := by
    rw [lastNamed?, List.reverse_singleton, List.find?_singleton]
    simp only [beq_iff_eq, eq_comm (b := key)]
  rw [← List.singleton_append, lastNamed?_append, hone]

/-- Some item is the last of a name exactly if the name occurs. -/
theorem isSome_lastNamed? {items : List α} :
    (lastNamed? name key items).isSome ↔ key ∈ items.map name := by
  simp [lastNamed?]

private theorem lastNamed?_eq_some_iff {items : List α} (h : (items.map name).Nodup) {item : α} :
    lastNamed? name key items = some item ↔ item ∈ items ∧ name item = key := by
  induction items with
  | nil => simp [lastNamed?]
  | cons first items ih =>
    rw [List.map_cons, List.nodup_cons] at h
    rw [lastNamed?_cons, List.mem_cons, Option.or_eq_some_iff, ih h.2]
    by_cases hk : key = name first
    · subst hk
      have hnone : lastNamed? name (name first) items = none := by
        rw [← Option.not_isSome_iff_eq_none, isSome_lastNamed?]
        exact h.1
      have hother : ∀ other ∈ items, name other ≠ name first :=
        fun other ho he ↦ h.1 (he ▸ List.mem_map_of_mem ho)
      grind
    · grind

/-- Where the names are distinct, the order of the items does not matter. -/
theorem lastNamed?_perm {items others : List α} (h : (items.map name).Nodup)
    (hp : items.Perm others) (key : String) :
    lastNamed? name key items = lastNamed? name key others := by
  ext item
  rw [lastNamed?_eq_some_iff h, lastNamed?_eq_some_iff ((hp.map name).nodup_iff.mp h), hp.mem_iff]

/-- Only the last item of each name counts. -/
theorem lastNamed?_lastOfEach (items : List α) (key : String) :
    lastNamed? name key (lastOfEach name items) = lastNamed? name key items := by
  induction items with
  | nil => rfl
  | cons item items ih =>
    rw [lastOfEach, lastNamed?_cons]
    split
    · next hm =>
      rw [ih]
      by_cases hk : key = name item
      · obtain ⟨other, ho⟩ := Option.isSome_iff_exists.mp (isSome_lastNamed?.mpr (hk ▸ hm))
        rw [ho]
        rfl
      · rw [if_neg hk, Option.or_none]
    · rw [lastNamed?_cons, ih]

/-- Dropping items of other names changes nothing. -/
theorem lastNamed?_filter {keep : α → Bool} (h : ∀ item, name item = key → keep item)
    (items : List α) : lastNamed? name key (items.filter keep) = lastNamed? name key items := by
  rw [lastNamed?, ← List.filter_reverse, List.find?_filter, lastNamed?]
  congr 1
  funext item
  by_cases hk : name item = key
  · simp [hk, h item hk]
  · simp [hk]

private theorem lastNamed?_map {β : Type} (make : β → α) (items : List β) :
    lastNamed? name key (items.map make) =
      (lastNamed? (fun item ↦ name (make item)) key items).map make := by
  rw [lastNamed?, ← List.map_reverse, List.find?_map]
  rfl

end lastNamed

/-! ### The components that a program names -/

namespace Script

/-- The component that a node names. What a call names is looked up as a component first, so a call
of a procedure counts. -/
def Node.component? : Node → Option String
  | event component _ => some component
  | setProperty component _ _ => some component
  | call component _ _ => some component
  | _ => none

/-- The components that a program lists or names. -/
def Program.componentNames (p : Program) : List String :=
  p.components ++ p.nodes.filterMap Node.component?

end Script

/-! ### The extensions of a catalogue -/

/-- A configuration without its extensions of some names. -/
def Config.without (config : Config) (names : List String) : Config :=
  { config with extensions := config.extensions.filter (fun e ↦ e.name ∉ names) }

namespace Catalog

/-- The extensions of a catalogue are in ascending order of their names, each once. -/
def IsSorted (c : Catalog) : Prop := (c.extensions.map Prod.fst).Pairwise (· < ·)

private theorem get?_ofList_extensions (name : String) (extensions : List ExtensionInfo) :
    Ordered.get? name (Ordered.ofList (extensions.map (fun e ↦ (e.name, e)))) =
      lastNamed? ExtensionInfo.name name extensions := by
  induction extensions with
  | nil => rfl
  | cons e extensions ih =>
    rw [List.map_cons, Ordered.get?_ofList_cons, ih, lastNamed?_cons]

/-- Under a name a catalogue has the last extension of that name that the project brings along, and
the last configured one if the project brings none. -/
theorem extension?_ofExtensions (config : Config) (extensions : List Extension) (name : String) :
    (ofExtensions config extensions).extension? name =
      ((lastNamed? (fun e ↦ e.name) name extensions).map Extension.toExtensionInfo).or
        (lastNamed? ExtensionInfo.name name config.extensions) := by
  rw [extension?, ofExtensions, get?_ofList_extensions, lastNamed?_append, lastNamed?_map]

/-- Where a type is an extension, the component's name starts with the type's. -/
theorem startsWith_typeOf {c : Catalog} {component : String}
    (ht : (c.typeOf component).isExtension) : startsWith component (c.typeOf component).name := by
  unfold typeOf at ht ⊢
  cases hstem : longestStem? Prod.fst component c.extensions with
  | some entry => exact (mem_of_longestStem? hstem).2
  | none =>
    rw [hstem] at ht
    dsimp only at ht
    split at ht <;> cases ht

/-! ### Catalogues that look alike to a program -/

/-- Two catalogues whose tables are the same, apart from the extensions that they know. -/
structure Resembles (c other : Catalog) : Prop where
  sorted : c.IsSorted
  other_sorted : other.IsSorted
  config_eq : other.config = { c.config with extensions := other.config.extensions }

/-- Two catalogues find the same under every name that starts a component's name. -/
def AgreesOn (c other : Catalog) (component : String) : Prop :=
  ∀ name, startsWith component name → c.extension? name = other.extension? name

private theorem AgreesOn.extension?_eq {c other : Catalog} {component : String}
    (ha : c.AgreesOn other component) (ht : (c.typeOf component).isExtension) :
    c.extension? (c.typeOf component).name = other.extension? (c.typeOf component).name :=
  ha _ (startsWith_typeOf ht)

/-- Catalogues of one configuration resemble each other, whatever extensions it knows. -/
theorem resembles_ofExtensions (config : Config) (known : List ExtensionInfo)
    (extensions others : List Extension) : (ofExtensions config extensions).Resembles
      (ofExtensions { config with extensions := known } others) :=
  ⟨Ordered.pairwise_ofList _, Ordered.pairwise_ofList _, rfl⟩

namespace Resembles

variable {c other : Catalog}

private theorem typeOf_eq (h : c.Resembles other) {component : String}
    (ha : c.AgreesOn other component) :
    c.typeOf component = other.typeOf component := by
  have hfilter := Ordered.filter_eq_of_get? h.sorted h.other_sorted ha
  have hlongest : longestStem? Prod.fst component c.extensions =
      longestStem? Prod.fst component other.extensions := by
    rw [longestStem?, longestStem?, hfilter]
  unfold typeOf
  rw [hlongest, h.config_eq]

private theorem component_eq (h : c.Resembles other) {name : String} (ha : c.AgreesOn other name)
    (uuid : String) : c.component name uuid = other.component name uuid := by
  unfold component
  rw [← h.typeOf_eq ha, h.config_eq]
  dsimp only
  split
  · next ht => rw [ha.extension?_eq ht]
  · rfl

private theorem components_eq {σ : Type} (h : c.Resembles other) (supply : Supply σ)
    {names : List String} (ha : ∀ name ∈ names, c.AgreesOn other name) (s : σ) :
    c.components supply names s = other.components supply names s := by
  induction names generalizing s with
  | nil => rfl
  | cons name names ih =>
    rw [List.forall_mem_cons] at ha
    rw [components, components]
    dsimp only
    rw [ih ha.2, h.component_eq ha.1]

private theorem neededExtensions_eq (h : c.Resembles other) {names : List String}
    (ha : ∀ name ∈ names, c.AgreesOn other name) :
    c.neededExtensions names = other.neededExtensions names := by
  have htypes : names.map other.typeOf = names.map c.typeOf :=
    List.map_congr_left (fun name hn ↦ (h.typeOf_eq (ha name hn)).symm)
  rw [neededExtensions, neededExtensions, htypes]
  apply List.filterMap_congr
  intro type hm
  rw [List.mem_eraseDups] at hm
  obtain ⟨found, hf, rfl⟩ := List.mem_map.mp hm
  obtain ⟨hf, ht⟩ := List.mem_filter.mp hf
  obtain ⟨name, hn, rfl⟩ := List.mem_map.mp hf
  exact (ha name hn).extension?_eq ht

private theorem ofProgram_eq {σ : Type} (h : c.Resembles other) (supply : Supply σ) {p : Program}
    (ha : ∀ name ∈ p.components, c.AgreesOn other name) (s : σ) :
    Form.ofProgram c supply p s = Form.ofProgram other supply p s := by
  have hplaced : ∀ name ∈ p.placed, c.AgreesOn other name :=
    fun name hn ↦ ha name (Program.mem_placed.mp hn).1
  rw [Form.ofProgram, Form.ofProgram, h.components_eq supply hplaced, h.neededExtensions_eq hplaced,
    h.config_eq]
  rfl

private theorem literal_eq (h : c.Resembles other) :
    Literal.ofText c.config = Literal.ofText other.config := by
  rw [h.config_eq]
  rfl

mutual

private theorem block_eq (h : c.Resembles other) (p : Program) (depth : Nat) (action : Action)
    (ha : ∀ node ∈ action.nodes, ∀ name ∈ node.component?, c.AgreesOn other name) :
    c.block p depth action = other.block p depth action := by
  rw [block.eq_def, block.eq_def other]
  cases action.missingName with
  | some field => rfl
  | none =>
    cases action with
    | define target value => rfl
    | setProperty component property value =>
      dsimp only
      rw [h.typeOf_eq (ha _ List.mem_cons_self component rfl), h.literal_eq]
    | assign target value =>
      dsimp only
      rw [h.literal_eq]
    | call component method arguments =>
      dsimp only
      rw [callBlock, callBlock, h.typeOf_eq (ha _ List.mem_cons_self component rfl), h.literal_eq]
    | branch condition body otherwise =>
      rw [Action.nodes, List.forall_mem_cons, List.forall_mem_append] at ha
      dsimp only
      rw [h.blocks_eq p (depth + 1) body ha.2.1, h.blocks_eq p (depth + 1) otherwise ha.2.2,
        h.literal_eq]
    | loop condition body =>
      rw [Action.nodes, List.forall_mem_cons] at ha
      dsimp only
      rw [h.blocks_eq p (depth + 1) body ha.2, h.literal_eq]
    | forEach item list body =>
      rw [Action.nodes, List.forall_mem_cons] at ha
      dsimp only
      rw [h.blocks_eq p (depth + 1) body ha.2]

private theorem blocks_eq (h : c.Resembles other) (p : Program) (depth : Nat)
    (actions : List Action)
    (ha : ∀ node ∈ Action.bodyNodes actions, ∀ name ∈ node.component?, c.AgreesOn other name) :
    c.blocks p depth actions = other.blocks p depth actions := by
  cases actions with
  | nil => rfl
  | cons action actions =>
    rw [Action.bodyNodes, List.forall_mem_append] at ha
    rw [blocks, blocks, h.block_eq p depth action ha.1, h.blocks_eq p depth actions ha.2]

end

private theorem canvas_eq (h : c.Resembles other) {p : Program}
    (ha : ∀ node ∈ p.nodes, ∀ name ∈ node.component?, c.AgreesOn other name) :
    c.canvas p = other.canvas p := by
  rw [Program.nodes_eq, List.forall_mem_append, List.forall_mem_flatMap,
    List.forall_mem_flatMap] at ha
  have hglobals : c.declarationBlock = other.declarationBlock := by
    funext global
    rw [declarationBlock, declarationBlock, h.literal_eq]
  have hprocedures : p.procedures.map (c.procedureBlock p) =
      p.procedures.map (other.procedureBlock p) := by
    apply List.map_congr_left
    intro procedure hm
    have hbody := (List.forall_mem_cons.mp (ha.1 procedure hm)).2
    rw [procedureBlock, procedureBlock, h.blocks_eq p 1 _ hbody]
  have hhandlers : p.events.map (c.handlerBlock p) = p.events.map (other.handlerBlock p) := by
    apply List.map_congr_left
    intro event hm
    obtain ⟨hheader, hbody⟩ := List.forall_mem_cons.mp (ha.2 event hm)
    rw [handlerBlock, handlerBlock, h.blocks_eq p 1 _ hbody, h.typeOf_eq (hheader _ rfl)]
  rw [canvas, canvas, hglobals, hprocedures, hhandlers]

end Resembles

/-- Of a program two catalogues make the same form and the same blocks, whatever identifiers the
components get. -/
structure MakesSame (c other : Catalog) (p : Program) : Prop where
  form_eq : ∀ {σ : Type} (supply : Supply σ) (s : σ),
    Form.ofProgram c supply p s = Form.ofProgram other supply p s
  canvas_eq : c.canvas p = other.canvas p

/-- Catalogues that agree on the components that a program lists or names make the same of it. -/
theorem Resembles.makesSame {c other : Catalog} (h : c.Resembles other) {p : Program}
    (ha : ∀ name ∈ p.componentNames, c.AgreesOn other name) : c.MakesSame other p := by
  rw [Program.componentNames, List.forall_mem_append] at ha
  constructor
  · exact fun supply s ↦ h.ofProgram_eq supply ha.1 s
  · apply h.canvas_eq
    intro node hn name hname
    exact ha.2 name (List.mem_filterMap.mpr ⟨node, hn, hname⟩)

/-! ### Extensions that count -/

/-- The order of extensions of distinct names does not matter, nor does an extension whose name
starts the name of no component of the program. Of several extensions of one name only the last
counts, and it replaces the configured ones of that name. -/
theorem makesSame_ofExtensions (config : Config) (p : Program) (extensions : List Extension) :
    ((extensions.map (fun e ↦ e.name)).Nodup → ∀ others, extensions.Perm others →
      (ofExtensions config extensions).MakesSame (ofExtensions config others) p) ∧
    (∀ earlier later added, extensions = earlier ++ later →
      (∀ component ∈ p.componentNames, startsWith component added.name = false) →
      (ofExtensions config extensions).MakesSame
        (ofExtensions config (earlier ++ added :: later)) p) ∧
    (ofExtensions config extensions).MakesSame
      (ofExtensions (config.without (extensions.map (fun e ↦ e.name)))
        (lastOfEach (fun e ↦ e.name) extensions)) p ∧
    ∀ earlier last later, extensions = earlier ++ last :: later →
      (∀ other ∈ later, other.name ≠ last.name) →
      (ofExtensions config extensions).extension? last.name = some last.toExtensionInfo := by
  have hresembles := resembles_ofExtensions config
  refine ⟨?order, ?unused, ?last, ?found⟩
  case order =>
    intro hn others hp
    apply (hresembles config.extensions _ _).makesSame
    intro component _ name _
    rw [extension?_ofExtensions, extension?_ofExtensions, lastNamed?_perm hn hp]
  case unused =>
    rintro earlier later added rfl hunused
    apply (hresembles config.extensions _ _).makesSame
    intro component hc name hname
    have hne : name ≠ added.name := by
      rintro rfl
      rw [hunused component hc] at hname
      cases hname
    rw [extension?_ofExtensions, extension?_ofExtensions,
      lastNamed?_append earlier (added :: later), lastNamed?_cons, if_neg hne, Option.or_none,
      lastNamed?_append]
  case last =>
    apply (hresembles _ _ _).makesSame
    intro component _ name _
    rw [extension?_ofExtensions, extension?_ofExtensions, lastNamed?_lastOfEach]
    by_cases hm : name ∈ extensions.map (fun e ↦ e.name)
    · obtain ⟨e, he⟩ := Option.isSome_iff_exists.mp (isSome_lastNamed?.mpr hm)
      rw [he]
      rfl
    · rw [lastNamed?_filter]
      intro e he
      simpa [he] using hm
  case found =>
    rintro earlier last later rfl hlast
    have hnone : lastNamed? (fun e ↦ e.name) last.name later = none := by
      rw [← Option.not_isSome_iff_eq_none, isSome_lastNamed?]
      rintro hm
      obtain ⟨other, ho, he⟩ := List.mem_map.mp hm
      exact hlast other ho he
    rw [extension?_ofExtensions, lastNamed?_append, lastNamed?_cons, hnone, if_pos rfl]
    rfl

/-- Two extensions whose names both start a component's name, in either order, with a third that
nothing needs. A later one replaces the configured one of its name. -/
theorem makesSame_ofExtensions_gestures :
    let p : Program := ⟨[⟨"GestureDetector1", "Swiped", [.setProperty "Label1" "Text" "x"]⟩], [],
      [], ["GestureDetector1", "Label1"], []⟩
    let gesture : Extension := { name := "Gesture", version := "1", uuid := "com.gesture" }
    let detector : Extension := { name := "GestureDetector", version := "7", uuid := "com.mine" }
    let compass : Extension := { name := "Compass", version := "2", uuid := "com.compass" }
    (ofExtensions .builtIn [detector, gesture]).MakesSame
        (ofExtensions .builtIn [gesture, detector]) p ∧
      (ofExtensions .builtIn [detector, gesture]).MakesSame
        (ofExtensions .builtIn [detector, compass, gesture]) p ∧
      (ofExtensions .builtIn [detector, gesture]).extension? "GestureDetector" =
        some ⟨"GestureDetector", "7", "com.mine"⟩ := by
  intro p gesture detector compass
  obtain ⟨horder, hunused, -, hfound⟩ := makesSame_ofExtensions .builtIn p [detector, gesture]
  refine ⟨?_, ?_, ?_⟩
  · exact horder (by decide) [gesture, detector] (.swap _ _ _)
  · exact hunused [detector] [gesture] compass rfl (by decide)
  · exact hfound [] detector [gesture] rfl (by simp [gesture, detector])

end Catalog

/-! ### Extensions that a form lists -/

namespace Form

/-- Every extension that the form of a script lists is as the catalogue has it, and a type is listed
exactly if some block has this type from the extensions for a component that is no screen. -/
theorem lists_extension_iff {σ : Type} (config : Config) (extensions : List Extension)
    (script : String) (supply : Supply σ) (s : σ) :
    let c := Catalog.ofExtensions config extensions
    let p := Program.ofScript script
    let listed := (ofProgram c supply p s).1.screen.extensions
    (∀ extension ∈ listed, c.extension? extension.name = some extension) ∧
    ∀ type, (∃ extension ∈ listed, extension.name = type) ↔
      ∃ part ∈ (blocksDocument (c.canvas p).2).parts, ∃ component,
        part.reference? = some (component, type) ∧ (c.typeOf component).isExtension ∧
          isScreen component = false := by
  intro c p listed
  have hkeyed : c.Keyed := Catalog.keyed_ofExtensions config extensions
  -- What is listed was looked up for a placed component, under the name that it carries.
  have hlisted {extension : ExtensionInfo} (hm : extension ∈ listed) : ∃ component ∈ p.placed,
      (c.typeOf component).isExtension ∧ extension.name = (c.typeOf component).name ∧
        c.extension? (c.typeOf component).name = some extension := by
    obtain ⟨component, hplaced, ht, hfound⟩ := Catalog.mem_neededExtensions.mp hm
    exact ⟨component, hplaced, ht, hkeyed _ (Ordered.mem_of_get? hfound), hfound⟩
  refine ⟨fun extension hm ↦ ?_, fun type ↦ ⟨?_, ?_⟩⟩
  · obtain ⟨component, -, -, hname, hfound⟩ := hlisted hm
    rw [hname, hfound]
  · rintro ⟨extension, hm, rfl⟩
    obtain ⟨component, hplaced, ht, hname, -⟩ := hlisted hm
    obtain ⟨hcomponent, hscreen⟩ := Program.mem_placed.mp hplaced
    obtain ⟨part, hpart, hr⟩ := Element.mem_references.mp
      (c.mem_references_ofScript.mpr ⟨hcomponent, hname⟩)
    exact ⟨part, hpart, component, hr, ht, hscreen⟩
  · rintro ⟨part, hpart, component, hr, ht, hscreen⟩
    obtain ⟨hcomponent, rfl⟩ :=
      c.mem_references_ofScript.mp (Element.mem_references.mpr ⟨part, hpart, hr⟩)
    obtain ⟨extension, hfound, hname⟩ := Catalog.exists_extension? hkeyed ht
    have hplaced := Program.mem_placed.mpr ⟨hcomponent, hscreen⟩
    exact ⟨extension, Catalog.mem_neededExtensions.mpr ⟨component, hplaced, ht, hfound⟩, hname⟩

/-- An extension whose only component is named like a screen: the blocks use it and the form does
not list it. -/
theorem screen_extension_unlisted :
    let c := Catalog.ofExtensions .builtIn
      [{ name := "ScreenShot", version := "3", uuid := "com.example.screenshot" }]
    let p := Program.ofScript "when ScreenShot1.Taken\n  set Label1.Text to \"done\"\n"
    (∃ e ∈ (blocksDocument (c.canvas p).2).parts,
        e.reference? = some ("ScreenShot1", "ScreenShot")) ∧
      c.typeOf "ScreenShot1" = ⟨"ScreenShot", .extension⟩ ∧
      (ofProgram c Supply.counting p 1).1.screen.extensions = [] := by
  intro c p
  have hcomponents : p.components = ["Label1", "ScreenShot1"] := by decide +kernel
  have htype : c.typeOf "ScreenShot1" = ⟨"ScreenShot", .extension⟩ := by decide +kernel
  refine ⟨?_, htype, ?_⟩
  · rw [← Element.mem_references, c.mem_references_ofScript, htype]
    exact ⟨by simp [p, hcomponents], rfl⟩
  · have hplaced : p.placed = ["Label1"] := by
      rw [Program.placed, hcomponents]
      decide +kernel
    show c.neededExtensions p.placed = []
    rw [hplaced]
    decide +kernel

end Form

end Blockwright
