import Blockwright.Proofs.Agreement
import Mathlib.Data.List.Induction

/-!
# Rows of the table of kinds

The type of a component is that of one row of the table of kinds: the row with the longest stem that
starts the component's name, and of several such the last. The form looks the type up in the table
again and takes the version and the properties from the first row of that type. So a component gets
what its own row says exactly if the two rows say the same, as they do if no type has two rows.
-/

namespace Blockwright

open Script

/-! ### The longest stem -/

section longest

variable {α : Type} {text : α → String} {name : String} {items : List α} {item : α}

/-- An item of a list has the longest text that starts a name: none before it has a longer one, and
all behind it have shorter ones. -/
def IsLongest (text : α → String) (name : String) (items : List α) (item : α) : Prop :=
  ∃ before behind, items = before ++ item :: behind ∧ startsWith name (text item) ∧
    (∀ other ∈ before, startsWith name (text other) →
      (text other).utf8ByteSize ≤ (text item).utf8ByteSize) ∧
    ∀ other ∈ behind, startsWith name (text other) →
      (text other).utf8ByteSize < (text item).utf8ByteSize

/-- One more item at the end is taken if nothing longer was found before. -/
theorem longestStem?_concat (last : α) : longestStem? text name (items ++ [last]) =
    if startsWith name (text last) then
      match longestStem? text name items with
      | some best =>
        if (text best).utf8ByteSize ≤ (text last).utf8ByteSize then some last else some best
      | none => some last
    else longestStem? text name items := by
  rw [longestStem?, List.filter_append, List.foldl_append, List.filter_singleton]
  split
  · next h =>
    rw [h]
    rfl
  · next h =>
    rw [Bool.eq_false_iff.mpr h]
    rfl

private theorem startsWith_of_longestStem?_none (h : longestStem? text name items = none) :
    ∀ item ∈ items, startsWith name (text item) = false := by
  induction items using List.reverseRecOn with
  | nil => exact fun item hm ↦ absurd hm List.not_mem_nil
  | append_singleton items last ih =>
    rw [longestStem?_concat] at h
    rw [List.forall_mem_append, List.forall_mem_singleton]
    split at h
    · split at h
      · split at h <;> cases h
      · cases h
    · next hlast => exact ⟨ih h, Bool.eq_false_iff.mpr hlast⟩

private theorem isLongest_concat {best last : α} (h : IsLongest text name items best)
    (hs : startsWith name (text last))
    (hle : (text best).utf8ByteSize ≤ (text last).utf8ByteSize) :
    IsLongest text name (items ++ [last]) last := by
  obtain ⟨before, behind, rfl, -, hbefore, hbehind⟩ := h
  refine ⟨_, [], rfl, hs, ?_, fun other ho ↦ absurd ho List.not_mem_nil⟩
  intro other ho hother
  rcases List.mem_append.mp ho with ho | ho
  · exact (hbefore other ho hother).trans hle
  · rcases List.mem_cons.mp ho with rfl | ho
    · exact hle
    · exact (hbehind other ho hother).le.trans hle

private theorem IsLongest.append {best last : α} (h : IsLongest text name items best)
    (hlt : startsWith name (text last) →
      (text last).utf8ByteSize < (text best).utf8ByteSize) :
    IsLongest text name (items ++ [last]) best := by
  obtain ⟨before, behind, rfl, hs, hbefore, hbehind⟩ := h
  refine ⟨before, behind ++ [last], by simp, hs, hbefore, ?_⟩
  rw [List.forall_mem_append, List.forall_mem_singleton]
  exact ⟨hbehind, hlt⟩

private theorem isLongest_of_longestStem? (h : longestStem? text name items = some item) :
    IsLongest text name items item := by
  induction items using List.reverseRecOn generalizing item with
  | nil => cases h
  | append_singleton items last ih =>
    rw [longestStem?_concat] at h
    split at h
    · next hlast =>
      split at h
      · next best hbest =>
        split at h
        · next hle =>
          cases h
          exact isLongest_concat (ih hbest) hlast hle
        · next hle =>
          cases h
          exact (ih hbest).append (fun _ ↦ Nat.lt_of_not_le hle)
      · next hnone =>
        cases h
        refine ⟨items, [], rfl, hlast, ?_, fun other ho ↦ absurd ho List.not_mem_nil⟩
        intro other ho hother
        rw [startsWith_of_longestStem?_none hnone other ho] at hother
        cases hother
    · next hlast => exact (ih h).append (fun hs ↦ absurd hs hlast)

end longest

/-! ### Kinds of components -/

namespace Kind

/-- The property of some name that a kind gives to a component: the kind's default. If there is
none, the text of a component may be its own name. -/
def property? (k : Kind) (component key : String) : Option String :=
  (k.defaults.get? key).or
    (if key = "Text" ∧ k.textFromName then some component else none)

/-- A component has the version that a kind says, and the properties that the kind gives to it and
no others. -/
structure Shapes (k : Kind) (component : Component) : Prop where
  version_eq : component.version = k.version
  get?_eq : ∀ key, component.properties.get? key = k.property? component.name key

private theorem get?_firstProperties (k : Kind) (component key : String) :
    (Catalog.firstProperties k component).get? key = k.property? component key := by
  rw [Catalog.firstProperties, Properties.get?_ofList_append,
    Properties.ofList_eq_of_perm (List.Perm.refl _), property?]
  congr 1
  cases k.textFromName with
  | false => simp [Properties.get?, Properties.ofList, Ordered.ofList, Ordered.get?]
  | true =>
    refine (Ordered.get?_ofList_cons ("Text", component) []).trans ?_
    simp [Ordered.ofList, Ordered.get?]

end Kind

namespace Config

/-- A row of the table of kinds is the first of its type. -/
def IsFirstOfType (config : Config) (row : Kind) : Prop :=
  ∃ before behind, config.kinds = before ++ row :: behind ∧
    ∀ other ∈ before, other.typeName ≠ row.typeName

/-- Under the type of a row its first row is found. -/
theorem exists_kind? {config : Config} {row : Kind} (h : row ∈ config.kinds) : ∃ first,
    config.kind? row.typeName = some first ∧ first.typeName = row.typeName ∧
      config.IsFirstOfType first := by
  have hfound : (config.kind? row.typeName).isSome := by
    rw [kind?, List.find?_isSome]
    exact ⟨row, h, beq_self_eq_true _⟩
  obtain ⟨first, hfirst⟩ := Option.isSome_iff_exists.mp hfound
  obtain ⟨htype, before, behind, hkinds, hbefore⟩ := List.find?_eq_some_iff_append.mp hfirst
  rw [beq_iff_eq] at htype
  refine ⟨first, hfirst, htype, before, behind, hkinds, ?_⟩
  intro other ho
  simpa [htype] using hbefore other ho

end Config

namespace Catalog

variable {c : Catalog} {name : String}

/-- A type that was found among the kinds is that of the row with the longest stem. -/
theorem exists_row (h : (c.typeOf name).source = .kind) : ∃ row,
    row ∈ c.config.kinds ∧ IsLongest Kind.stem name c.config.kinds row ∧
      c.typeOf name = ⟨row.typeName, .kind⟩ := by
  unfold typeOf at h ⊢
  cases hextension : longestStem? Prod.fst name c.extensions with
  | some entry =>
    rw [hextension] at h
    cases h
  | none =>
    rw [hextension] at h
    cases hrow : longestStem? Kind.stem name c.config.kinds with
    | none =>
      rw [hrow] at h
      cases h
    | some row => exact ⟨row, (mem_of_longestStem? hrow).1, isLongest_of_longestStem? hrow, rfl⟩

/-- A component of a kind is shaped by the row that the form finds. -/
theorem shapes_component {type : String} {first : Kind} (ht : c.typeOf name = ⟨type, .kind⟩)
    (hfirst : c.config.kind? type = some first) (uuid : String) :
    first.Shapes (c.component name uuid) := by
  have hcomponent : c.component name uuid =
      ⟨name, type, first.version, uuid, firstProperties first name⟩ := by
    unfold component
    rw [ht]
    dsimp only
    rw [hfirst]
    rfl
  rw [hcomponent]
  exact ⟨rfl, first.get?_firstProperties name⟩

end Catalog

/-- Two rows that shape one component alike say the same. -/
theorem Kind.Shapes.iff_agrees {first row : Kind} {component : Component}
    (h : first.Shapes component) : row.Shapes component ↔ row.version = first.version ∧
      ∀ key, row.property? component.name key = first.property? component.name key := by
  constructor
  · intro hrow
    exact ⟨hrow.version_eq.symm.trans h.version_eq,
      fun key ↦ (hrow.get?_eq key).symm.trans (h.get?_eq key)⟩
  · rintro ⟨hversion, hproperties⟩
    exact ⟨h.version_eq.trans hversion.symm,
      fun key ↦ (h.get?_eq key).trans (hproperties key).symm⟩

/-! ### Components of a form -/

namespace Form

/-- Every component that is no screen is in the form. If its type is found among the kinds, it is
the type of the row with the longest stem that starts the component's name, the last of several. The
version and the properties are those of the first row of that type, and so those of the selected row
exactly if both rows say the same. If no type has two rows, the two are one. -/
theorem shaped_by_first_of_type {σ : Type} (config : Config) (extensions : List Extension)
    (supply : Supply σ) (p : Program) (s : σ) :
    let c := Catalog.ofExtensions config extensions
    let components := (ofProgram c supply p s).1.screen.components
    (∀ name ∈ p.components, isScreen name = false →
      ∃ component ∈ components, component.name = name) ∧
    ∀ component ∈ components, (c.typeOf component.name).source = .kind →
      ∃ row first, IsLongest Kind.stem component.name config.kinds row ∧
        component.typeName = row.typeName ∧
        config.IsFirstOfType first ∧ first.typeName = row.typeName ∧
        first.Shapes component ∧
        (row.Shapes component ↔ row.version = first.version ∧
          ∀ key, row.property? component.name key = first.property? component.name key) ∧
        ((config.kinds.map Kind.typeName).Nodup → first = row) := by
  intro c components
  constructor
  · intro name hm hscreen
    have hnames : components.map Component.name = p.placed := c.map_name_components supply _ s
    rw [← List.mem_map, hnames]
    exact Program.mem_placed.mpr ⟨hm, hscreen⟩
  · intro component hm hkind
    obtain ⟨row, hrow, hlongest, htype⟩ := Catalog.exists_row hkind
    obtain ⟨first, hfound, hsame, hfirst⟩ := Config.exists_kind? hrow
    obtain ⟨uuid, hcomponent⟩ := Catalog.exists_uuid_of_mem supply hm
    have hshapes : first.Shapes component := by
      rw [hcomponent]
      exact Catalog.shapes_component htype hfound uuid
    refine ⟨row, first, hlongest, ?_, hfirst, hsame, hshapes, hshapes.iff_agrees, ?_⟩
    · rw [Catalog.typeName_of_mem supply hm, htype]
    · intro hnodup
      obtain ⟨before, behind, hkinds, -⟩ := hfirst
      exact List.inj_on_of_nodup_map hnodup (hkinds ▸ by simp) hrow hsame

/-- With the built-in kinds a label is shaped by its own row. -/
theorem shaped_by_first_of_type_builtIn :
    let c := Catalog.ofExtensions .builtIn []
    let p := Program.ofScript "when Button1.Click\n  set Label1.Text to 1\n"
    ("Label1" ∈ p.components ∧ isScreen "Label1" = false ∧
      (c.typeOf "Label1").source = .kind) ∧
      ∃ component ∈ (ofProgram c Supply.counting p 1).1.screen.components,
        component.name = "Label1" ∧ component.version = "2" ∧
          component.properties.get? "FontSize" = some "14" ∧
          component.properties.get? "Text" = some "Label1" := by
  intro c p
  have hm : "Label1" ∈ p.components := by decide +kernel
  have hscreen : isScreen "Label1" = false := by decide
  have hkind : (c.typeOf "Label1").source = .kind := by decide +kernel
  obtain ⟨hall, hshaped⟩ := shaped_by_first_of_type .builtIn [] Supply.counting p 1
  obtain ⟨component, hc, hname⟩ := hall "Label1" hm hscreen
  refine ⟨⟨hm, hscreen, hkind⟩, component, hc, hname, ?_⟩
  obtain ⟨row, first, ⟨before, behind, hkinds, hs, -⟩, -, -, -, hshapes, -, hone⟩ :=
    hshaped component hc (hname ▸ hkind)
  -- Only the row of labels has a stem that starts the name.
  have hrow : row = ⟨"Label", "Label", "2", true, .ofList [("FontSize", "14")]⟩ := by
    have hmem : row ∈ Config.builtInKinds := by
      rw [show Config.builtInKinds = before ++ row :: behind from hkinds]
      simp
    rw [hname] at hs
    have honly : ∀ kind ∈ Config.builtInKinds, startsWith "Label1" kind.stem →
        kind = ⟨"Label", "Label", "2", true, .ofList [("FontSize", "14")]⟩ := by decide
    exact honly row hmem hs
  rw [hone (by decide), hrow] at hshapes
  refine ⟨hshapes.version_eq, ?_, ?_⟩
  · rw [hshapes.get?_eq, hname]
    decide
  · rw [hshapes.get?_eq, hname]
    decide

/-- Two rows of one type: a component of the second gets the version and the properties of the
first. -/
theorem shaped_by_row_of_namesake :
    let icon : Kind :=
      { stem := "Icon", typeName := "Button", version := "7",
        defaults := .ofList [("Width", "32")] }
    let button : Kind :=
      { stem := "Button", typeName := "Button", version := "5", textFromName := true }
    let config := { Config.builtIn with kinds := [button, icon] }
    let c := Catalog.ofExtensions config []
    let p := Program.ofScript "when Icon1.Click\n  set x to 1\n"
    let components := (ofProgram c Supply.counting p 1).1.screen.components
    (c.typeOf "Icon1").source = .kind ∧ IsLongest Kind.stem "Icon1" config.kinds icon ∧
      components = [⟨"Icon1", "Button", "5", "1", .ofList [("Text", "Icon1")]⟩] ∧
      ∀ component ∈ components, ¬ icon.Shapes component := by
  intro icon button config c p components
  have hcomponents : components = [⟨"Icon1", "Button", "5", "1", .ofList [("Text", "Icon1")]⟩] := by
    decide +kernel
  refine ⟨by decide +kernel, ⟨[button], [], rfl, by decide, by decide, by decide⟩, hcomponents, ?_⟩
  rw [hcomponents, List.forall_mem_singleton]
  intro h
  exact absurd h.version_eq (by decide)

end Form

end Blockwright
