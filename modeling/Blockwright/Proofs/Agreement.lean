import Blockwright.Form
import Blockwright.Proofs.Mentions

/-!
# Forms and blocks agree

The form of a script lists the components that the script's blocks speak of, screens apart, each
once and with the type that the blocks give it. It lists the extensions among those types, each once
and in the version of its components, and nothing else. So no two of its components have one name;
whether the screen has a name of its own depends on how the project is named.
-/

namespace Blockwright

open Script

/-! ### Catalogues -/

private theorem mem_of_foldl_choose {α : Type} {choose : Option α → α → Option α}
    (hchoose : ∀ best item, choose best item = best ∨ choose best item = some item)
    {items : List α} {best : Option α} {found : α}
    (h : items.foldl choose best = some found) : best = some found ∨ found ∈ items := by
  induction items generalizing best with
  | nil => exact .inl h
  | cons item items ih =>
    rcases ih h with hbest | hm
    · rcases hchoose best item with hkeep | htake
      · exact .inl (hkeep.symm.trans hbest)
      · cases htake.symm.trans hbest
        exact .inr List.mem_cons_self
    · exact .inr (List.mem_cons_of_mem _ hm)

/-- The longest stem is one of the given, and the name starts with it. -/
theorem mem_of_longestStem? {α : Type} {text : α → String} {name : String} {items : List α}
    {item : α} (h : longestStem? text name items = some item) :
    item ∈ items ∧ startsWith name (text item) := by
  have hm := (mem_of_foldl_choose ?_ h).resolve_left (by simp)
  · exact List.mem_filter.mp hm
  · intro best item
    cases best with
    | none => exact .inr rfl
    | some b =>
      dsimp only
      split
      · exact .inr rfl
      · exact .inl rfl

namespace Catalog

variable {c : Catalog}

/-- Every extension of a catalogue is kept under its own name. -/
def Keyed (c : Catalog) : Prop := ∀ entry ∈ c.extensions, entry.2.name = entry.1

/-- A catalogue made from lists of extensions keeps each under its own name. -/
theorem keyed_ofExtensions (config : Config) (extensions : List Extension) :
    (ofExtensions config extensions).Keyed := by
  intro entry he
  obtain ⟨e, -, rfl⟩ := List.mem_map.mp (Ordered.mem_ofList he)
  rfl

/-- A type that was found among the extensions is the name of one. -/
theorem exists_extension? (h : c.Keyed) {component : String}
    (ht : (c.typeOf component).isExtension) :
    ∃ e, c.extension? (c.typeOf component).name = some e ∧ e.name = (c.typeOf component).name := by
  have hfound : (c.extension? (c.typeOf component).name).isSome := by
    unfold typeOf at ht ⊢
    cases hstem : longestStem? Prod.fst component c.extensions with
    | some entry => exact Ordered.isSome_get? (mem_of_longestStem? hstem).1
    | none =>
      rw [hstem] at ht
      dsimp only at ht
      split at ht <;> cases ht
  obtain ⟨e, he⟩ := Option.isSome_iff_exists.mp hfound
  exact ⟨e, he, h _ (Ordered.mem_of_get? he)⟩

/-! ### Components of a form -/

@[simp] private theorem component_name (c : Catalog) (name uuid : String) :
    (c.component name uuid).name = name := by
  unfold component
  dsimp only
  split
  · rfl
  · split <;> rfl

@[simp] private theorem component_typeName (c : Catalog) (name uuid : String) :
    (c.component name uuid).typeName = (c.typeOf name).name := by
  unfold component
  dsimp only
  split
  · rfl
  · split <;> rfl

/-- A component whose type is an extension has the version of the extension. -/
theorem component_version {name : String} {e : ExtensionInfo}
    (ht : (c.typeOf name).isExtension) (he : c.extension? (c.typeOf name).name = some e)
    (uuid : String) : (c.component name uuid).version = e.version := by
  unfold component
  dsimp only
  rw [if_pos ht, he]
  rfl

section components

variable {σ : Type} (supply : Supply σ)

/-- The components of some names have those names, in order. -/
theorem map_name_components (c : Catalog) (names : List String) (s : σ) :
    (c.components supply names s).1.map Component.name = names := by
  induction names generalizing s with
  | nil => rfl
  | cons name names ih =>
    rw [components]
    dsimp only
    rw [List.map_cons, component_name, ih]

/-- Every component of some names is that of its own name. -/
theorem exists_uuid_of_mem {names : List String} {s : σ} {component : Component}
    (h : component ∈ (c.components supply names s).1) :
    ∃ uuid, component = c.component component.name uuid := by
  induction names generalizing s with
  | nil => cases h
  | cons name names ih =>
    rw [components] at h
    dsimp only at h
    rcases List.mem_cons.mp h with rfl | h
    · exact ⟨_, by rw [component_name]⟩
    · exact ih h

/-- Every component has the type of its name. -/
theorem typeName_of_mem {names : List String} {s : σ} {component : Component}
    (h : component ∈ (c.components supply names s).1) :
    component.typeName = (c.typeOf component.name).name := by
  obtain ⟨uuid, he⟩ := exists_uuid_of_mem supply h
  rw [he, component_typeName, component_name]

end components

/-! ### Extensions of a form -/

/-- The extensions that some components need are those that are the type of one of them. -/
theorem mem_neededExtensions {names : List String} {e : ExtensionInfo} :
    e ∈ c.neededExtensions names ↔ ∃ name ∈ names, (c.typeOf name).isExtension ∧
      c.extension? (c.typeOf name).name = some e := by
  simp [neededExtensions, and_assoc]

private theorem nodup_eraseDups (names : List String) : names.eraseDups.Nodup := by
  cases names with
  | nil => simp
  | cons name names =>
    rw [List.eraseDups_cons, List.nodup_cons]
    constructor
    · rw [List.mem_eraseDups]
      simp
    · exact nodup_eraseDups (names.filter (fun other ↦ !other == name))
termination_by names.length
decreasing_by exact Nat.lt_succ_of_le (List.length_filter_le _ _)

private theorem nodup_map_name_neededExtensions (h : c.Keyed) (names : List String) :
    ((c.neededExtensions names).map ExtensionInfo.name).Nodup := by
  rw [neededExtensions, List.map_filterMap]
  apply (nodup_eraseDups _).filterMap
  have hkeyed {name found : String}
      (hf : found ∈ (c.extension? name).map ExtensionInfo.name) : found = name := by
    obtain ⟨e, he, rfl⟩ := Option.map_eq_some_iff.mp hf
    exact h _ (Ordered.mem_of_get? he)
  intro name other found hn ho
  exact (hkeyed hn).symm.trans (hkeyed ho)

end Catalog

/-! ### Agreement -/

private theorem filter_name_eq_singleton {α : Type} {name : α → String} {items : List α}
    (h : (items.map name).Nodup) {item : α} (hm : item ∈ items) :
    items.filter (fun other ↦ name other = name item) = [item] := by
  induction items with
  | nil => cases hm
  | cons first items ih =>
    rw [List.map_cons, List.nodup_cons] at h
    rcases List.mem_cons.mp hm with rfl | hm
    · have hrest : items.filter (fun other ↦ name other = name item) = [] := by
        rw [List.filter_eq_nil_iff]
        intro other ho he
        apply h.1
        rw [← of_decide_eq_true he]
        exact List.mem_map_of_mem ho
      rw [List.filter_cons_of_pos (by simp), hrest]
    · have hne : name first ≠ name item := by
        intro he
        apply h.1
        rw [he]
        exact List.mem_map_of_mem hm
      rw [List.filter_cons_of_neg (by simpa using hne), ih h.2 hm]

/-- A screen lists what the elements of some blocks speak of, in the types of a catalogue. -/
structure Screen.Agrees (screen : Screen) (c : Catalog) (blocks : Element) : Prop where
  /-- Screens are no components. -/
  screen_unlisted : ∀ e ∈ blocks.parts, ∀ name type, e.reference? = some (name, type) →
    isScreen name → ∀ component ∈ screen.components, component.name ≠ name
  /-- Exactly one component has the name that a block speaks of, and it has the type that the block
  gives. If the type is an extension, exactly one extension has the type's name, and it has the
  version of the component. -/
  listed_once : ∀ e ∈ blocks.parts, ∀ name type, e.reference? = some (name, type) →
    isScreen name = false →
    ∃ component, screen.components.filter (fun other ↦ other.name = name) = [component] ∧
      component.typeName = type ∧
      ((c.typeOf name).isExtension →
        ∃ extension, screen.extensions.filter (fun other ↦ other.name = type) = [extension] ∧
          extension.version = component.version)
  /-- Some block speaks of every component. -/
  component_used : ∀ component ∈ screen.components,
    ∃ e ∈ blocks.parts, ∃ type, e.reference? = some (component.name, type)
  /-- Every extension is the type of some component. -/
  extension_used : ∀ extension ∈ screen.extensions,
    ∃ component ∈ screen.components, component.typeName = extension.name

/-- An element speaks of the components that its parts speak of. -/
theorem Element.mem_references {e : Element} {reference : String × String} :
    reference ∈ references [e] ↔ ∃ part ∈ e.parts, part.reference? = some reference := by
  rw [references, partsOf, partsOf, List.append_nil, List.mem_filterMap]

/-- A form places the components that are no screens. -/
theorem Script.Program.mem_placed {p : Program} {name : String} :
    name ∈ p.placed ↔ name ∈ p.components ∧ isScreen name = false := by
  simp [placed]

/-- A script places no component twice. -/
theorem Script.Program.nodup_placed (script : String) : (ofScript script).placed.Nodup :=
  ((pairwise_components_ofScript script).imp (fun h ↦ ne_of_lt h)).filter _

section agreement

variable {c : Catalog}

/-- Of the components of distinct names exactly one has each name. -/
theorem Catalog.exists_component {σ : Type} {supply : Supply σ} {s : σ} {names : List String}
    (hnodup : names.Nodup) {name : String} (h : name ∈ names) : ∃ uuid,
      (c.components supply names s).1.filter (fun other ↦ other.name = name) =
        [c.component name uuid] := by
  have hnames := c.map_name_components supply names s
  rw [← hnames] at h hnodup
  obtain ⟨component, hm, rfl⟩ := List.mem_map.mp h
  obtain ⟨uuid, he⟩ := exists_uuid_of_mem supply hm
  refine ⟨uuid, ?_⟩
  rw [← he]
  exact filter_name_eq_singleton hnodup hm

/-- Exactly one needed extension has the name of a type that is an extension, and it has the version
of the components of that type. -/
theorem Catalog.exists_neededExtension (hkeyed : c.Keyed) {names : List String} {name : String}
    (h : name ∈ names) (ht : (c.typeOf name).isExtension) (uuid : String) : ∃ e,
      (c.neededExtensions names).filter (fun other ↦ other.name = (c.typeOf name).name) = [e] ∧
        e.version = (c.component name uuid).version := by
  obtain ⟨e, he, hname⟩ := exists_extension? hkeyed ht
  have hm : e ∈ c.neededExtensions names := mem_neededExtensions.mpr ⟨name, h, ht, he⟩
  refine ⟨e, ?_, (component_version ht he uuid).symm⟩
  rw [← hname]
  exact filter_name_eq_singleton (nodup_map_name_neededExtensions hkeyed names) hm

end agreement

/-- The form and the blocks of a script agree, whatever identifiers the components get. -/
theorem Form.agrees_blocks {σ : Type} (config : Config) (extensions : List Extension)
    (script : String) (supply : Supply σ) (s : σ) :
    (ofProgram (Catalog.ofExtensions config extensions) supply (Program.ofScript script)
      s).1.screen.Agrees (Catalog.ofExtensions config extensions)
      (blocksDocument ((Catalog.ofExtensions config extensions).canvas
        (Program.ofScript script)).2) := by
  have hkeyed := Catalog.keyed_ofExtensions config extensions
  generalize Catalog.ofExtensions config extensions = c at hkeyed ⊢
  have hplaced {name : String} : name ∈ (Program.ofScript script).placed ↔
      ∃ component ∈ (c.components supply (Program.ofScript script).placed s).1,
        component.name = name := by
    rw [← List.mem_map, Catalog.map_name_components]
  -- Blocks speak of components only, and so of placed ones and of screens.
  have hreference {e : Element} {name type : String}
      (he : e ∈ (blocksDocument (c.canvas (Program.ofScript script)).2).parts)
      (hr : e.reference? = some (name, type)) :
      name ∈ (Program.ofScript script).components ∧ type = (c.typeOf name).name :=
    c.mem_references_ofScript.mp (Element.mem_references.mpr ⟨e, he, hr⟩)
  constructor
  case screen_unlisted =>
    intro e he name type hr hscreen component hm hname
    have hother := (Program.mem_placed.mp (hplaced.mpr ⟨component, hm, hname⟩)).2
    rw [hscreen] at hother
    cases hother
  case listed_once =>
    intro e he name type hr hscreen
    obtain ⟨hc, rfl⟩ := hreference he hr
    have hname := Program.mem_placed.mpr ⟨hc, hscreen⟩
    obtain ⟨uuid, honly⟩ := Catalog.exists_component (Program.nodup_placed script) hname
    exact ⟨_, honly, c.component_typeName name uuid,
      fun ht ↦ Catalog.exists_neededExtension hkeyed hname ht uuid⟩
  case component_used =>
    intro component hm
    have hname := (Program.mem_placed.mp (hplaced.mpr ⟨component, hm, rfl⟩)).1
    obtain ⟨part, hp, hr⟩ := Element.mem_references.mp
      (c.mem_references_ofScript.mpr ⟨hname, rfl⟩)
    exact ⟨part, hp, _, hr⟩
  case extension_used =>
    intro extension hm
    obtain ⟨name, hname, ht, he⟩ := Catalog.mem_neededExtensions.mp hm
    obtain ⟨component, hc, rfl⟩ := hplaced.mp hname
    refine ⟨component, hc, ?_⟩
    rw [Catalog.typeName_of_mem supply hc]
    exact (hkeyed _ (Ordered.mem_of_get? he)).symm

/-! ### Names -/

/-- The names in a form: that of its screen and those of its components. -/
def Screen.names (screen : Screen) : List String :=
  screen.name :: screen.components.map Component.name

namespace Form

/-- The names in the form of a program are that of the configuration and those that it places. -/
theorem names_ofProgram {σ : Type} (c : Catalog) (supply : Supply σ) (p : Program) (s : σ) :
    (ofProgram c supply p s).1.screen.names = c.config.naming.screen :: p.placed :=
  congrArg (c.config.naming.screen :: ·) (c.map_name_components supply p.placed s)

/-- No two components in the form of a script have one name. The screen has a name of its own as
well, exactly if its name starts like that of a screen or the script names no component like it. -/
theorem nodup_names_iff {σ : Type} (config : Config) (extensions : List Extension)
    (script : String) (supply : Supply σ) (s : σ) :
    let screen := (ofProgram (Catalog.ofExtensions config extensions) supply
      (Program.ofScript script) s).1.screen
    (screen.components.map Component.name).Nodup ∧
      (screen.names.Nodup ↔ isScreen config.naming.screen ∨
        config.naming.screen ∉ (Program.ofScript script).components) := by
  intro screen
  have hplaced := Program.nodup_placed script
  constructor
  · exact (Catalog.map_name_components supply _ _ s).symm ▸ hplaced
  · rw [names_ofProgram, List.nodup_cons, and_iff_left hplaced, Program.mem_placed, not_and_or,
      Bool.not_eq_false, or_comm]
    rfl

/-- A screen whose name does not start like that of a screen: a script that handles its events
places a second component of its name. -/
theorem names_of_renamed_screen :
    let config := { Config.builtIn with naming := { Naming.builtIn with screen := "Main" } }
    let p := Program.ofScript "when Main.Initialize\n  set Label1.Text to \"hi\"\n"
    let screen := (ofProgram (Catalog.ofExtensions config []) Supply.counting p 1).1.screen
    screen.names = ["Main", "Label1", "Main"] ∧ ¬ screen.names.Nodup := by
  intro config p screen
  have hplaced : p.placed = ["Label1", "Main"] := by decide +kernel
  have hnames : screen.names = ["Main", "Label1", "Main"] := by
    rw [names_ofProgram, hplaced]
    rfl
  rw [hnames]
  exact ⟨rfl, by decide⟩

end Form

end Blockwright
