import Blockwright.Config.Document
import Blockwright.Proofs.Names
import Blockwright.Proofs.Records
import Blockwright.Proofs.Written

/-!
# Configurations override what they mention

A document of a configuration may leave out fields, give them in any order and hold fields that
are not known. What it gives is read as it is given, and what it leaves out is as in the built-in
configuration.
-/

namespace Blockwright

open Blockwright.Json

/-- The object of a table of texts. -/
def textFields (entries : List (String × String)) : List (String × Tree) :=
  entries.map (fun entry ↦ (entry.1, .text (some entry.2)))

private theorem asFields_textFields (entries : List (String × String)) :
    (Tree.ofFields (textFields entries)).asFields = .ok entries := by
  have hentries : (entries.mapM fun entry ↦ pure (id entry)) =
      (.ok entries : Except Json.Error _) :=
    List.mapM_pure.trans (congrArg Except.ok (List.map_id _))
  rw [Tree.ofFields, Tree.asFields, textFields, List.map_map, List.mapM_map]
  exact congrArg (· >>= fun fields ↦ .ok fields) hentries

/-! ### The names of a project -/

namespace Naming

private theorem triple : record.Triple mk "name" "namespace" "screen" :=
  ⟨rfl, by decide, fun _ _ _ _ ↦ rfl, fun _ _ _ _ ↦ rfl, fun _ _ _ _ ↦ rfl⟩

/-- Trees that tell the names of a project. -/
def Tells (n : Naming) : String → Tree → Prop :=
  Record.TellsTexts [("name", n.name), ("namespace", n.package), ("screen", n.screen)]

/-- The names that are given, and the built-in ones for the others. -/
def given (n : Naming) (keys : List String) : Naming where
  name := if "name" ∈ keys then n.name else builtIn.name
  package := if "namespace" ∈ keys then n.package else builtIn.package
  screen := if "screen" ∈ keys then n.screen else builtIn.screen

private theorem fills (n : Naming) : record.Fills n.Tells n.given :=
  triple.fills rfl n.name n.package n.screen

private theorem ofTree_eq {n : Naming} {fields : List (String × Tree)}
    (hd : record.Describes n.Tells fields) (hw : (Tree.ofFields fields).isWhole) :
    record.ofTree (.ofFields fields) = .ok (n.given (fields.map Prod.fst)) := by
  rw [n.fills.ofTree_eq hd hw (by simp [record, Json.optional])]
  simp only [given, List.mem_reverse]

private theorem describes_toValue (n : Naming) :
    ∃ fields, n.toValue.tree = .ofFields fields ∧ record.Describes n.Tells fields ∧
      n.given (fields.map Prod.fst) = n := by
  -- In declared order the names make a row, so none of them is left to the built-in ones.
  obtain ⟨fields, htree, hd, hall⟩ := triple.isRow n.name n.package n.screen
  refine ⟨fields, htree, hd, ?_⟩
  simp only [record, Json.optional, List.forall_mem_cons] at hall
  simp [given, hall]

end Naming

/-! ### Kinds, colours and extensions -/

namespace Kind

/-- Trees that tell the fields of a kind. The defaults may be given in any order. -/
inductive Tells (k : Kind) : String → Tree → Prop where
  | stem : Tells k "prefix" (.text (some k.stem))
  | typeName : Tells k "type" (.text (some k.typeName))
  | version : Tells k "version" (.text (some k.version))
  | textFromName : Tells k "text_from_name" (.bool k.textFromName)
  | defaults {entries : List (String × String)} (perm : entries.Perm k.defaults.entries) :
    Tells k "defaults" (.ofFields (textFields entries))

/-- A kind with the fields that are given. -/
def given (k : Kind) (keys : List String) : Kind where
  stem := if "prefix" ∈ keys then k.stem else ""
  typeName := if "type" ∈ keys then k.typeName else ""
  version := if "version" ∈ keys then k.version else ""
  textFromName := if "text_from_name" ∈ keys then k.textFromName else false
  defaults := if "defaults" ∈ keys then k.defaults else .empty

private theorem fills (k : Kind) : record.Fills k.Tells k.given where
  blank := by simp [given, record]
  known := by
    intro key tree keys _ htells
    cases htells with
    | stem => exact congrArg Except.ok (by simp [given])
    | typeName => exact congrArg Except.ok (by simp [given])
    | version => exact congrArg Except.ok (by simp [given])
    | textFromName => exact congrArg Except.ok (by simp [given])
    | @defaults entries perm =>
      show ((Tree.ofFields (textFields entries)).asFields >>= _) = _
      rw [asFields_textFields]
      exact congrArg Except.ok (by simp [given, Properties.ofList_eq_of_perm perm])
  other := by
    intro key keys hk
    have hne : "prefix" ≠ key ∧ "type" ≠ key ∧ "version" ≠ key ∧ "text_from_name" ≠ key ∧
        "defaults" ≠ key := by
      simpa [Record.has, record, Json.needed, Json.optional] using hk
    simp [given, hne]

private theorem ofTree_row {k : Kind} {tree : Tree} (h : record.IsRow k.Tells tree)
    (hw : tree.isWhole) : record.ofTree tree = .ok k := by
  apply k.fills.ofTree_row h hw
  intro keys hall
  simp only [record, Json.needed, Json.optional, List.forall_mem_cons] at hall
  simp [given, hall]

private theorem isRow_toValue (k : Kind) : record.IsRow k.Tells k.toValue.tree := by
  have htree : k.toValue.tree = .ofFields [("prefix", .text (some k.stem)),
      ("type", .text (some k.typeName)), ("version", .text (some k.version)),
      ("text_from_name", .bool k.textFromName),
      ("defaults", .ofFields (textFields k.defaults.entries))] := by
    have hdefaults := Value.memberTrees_map (fun entry : String × String ↦ entry.1)
      (fun entry ↦ .text entry.2) k.defaults.entries
    simp [toValue, Value.tree, Value.memberTrees, Tree.ofFields, textFields, hdefaults]
  rw [htree]
  apply Record.isRow_of_fields rfl (by decide)
  simp only [List.forall_mem_cons]
  exact ⟨.stem, .typeName, .version, .textFromName, .defaults (List.Perm.refl _),
    List.forall_mem_nil _⟩

end Kind

namespace Color

private theorem triple : record.Triple mk "name" "argb" "block" :=
  ⟨rfl, by decide, fun _ _ _ _ ↦ rfl, fun _ _ _ _ ↦ rfl, fun _ _ _ _ ↦ rfl⟩

/-- Trees that tell the fields of a colour. -/
def Tells (c : Color) : String → Tree → Prop :=
  Record.TellsTexts [("name", c.name), ("argb", c.argb), ("block", c.block)]

end Color

namespace ExtensionInfo

private theorem triple : record.Triple mk "name" "version" "uuid" :=
  ⟨rfl, by decide, fun _ _ _ _ ↦ rfl, fun _ _ _ _ ↦ rfl, fun _ _ _ _ ↦ rfl⟩

/-- Trees that tell the fields of an extension. -/
def Tells (e : ExtensionInfo) : String → Tree → Prop :=
  Record.TellsTexts [("name", e.name), ("version", e.version), ("uuid", e.uuid)]

end ExtensionInfo

/-! ### Configurations -/

namespace Config

/-- Trees that tell the fields of a configuration. The names of its project are told by the fields
`project`, and each kind, colour and extension by a row of its own. -/
inductive Tells (c : Config) (project : List (String × Tree)) : String → Tree → Prop where
  | naming (described : Naming.record.Describes c.naming.Tells project) :
    Tells c project "project" (.ofFields project)
  | kinds {items : List Tree}
    (rows : List.Forall₂ (fun kind item ↦ Kind.record.IsRow kind.Tells item) c.kinds items) :
    Tells c project "component_kinds" (.list items none)
  | defaultKind : Tells c project "default_kind" (.text (some c.defaultKind))
  | colors {items : List Tree}
    (rows : List.Forall₂ (fun color item ↦ Color.record.IsRow color.Tells item) c.colors items) :
    Tells c project "colors" (.list items none)
  | extensions {items : List Tree}
    (rows : List.Forall₂ (fun extension item ↦ ExtensionInfo.record.IsRow extension.Tells item)
      c.extensions items) :
    Tells c project "extensions" (.list items none)

/-- The fields that are given, and the built-in ones for the others. Of the project those names are
given that `project` holds. -/
def given (c : Config) (project keys : List String) : Config where
  naming := if "project" ∈ keys then c.naming.given project else builtIn.naming
  kinds := if "component_kinds" ∈ keys then c.kinds else builtIn.kinds
  defaultKind := if "default_kind" ∈ keys then c.defaultKind else builtIn.defaultKind
  colors := if "colors" ∈ keys then c.colors else builtIn.colors
  extensions := if "extensions" ∈ keys then c.extensions else builtIn.extensions

private theorem fills (c : Config) (project : List (String × Tree)) :
    record.Fills (c.Tells project) (c.given (project.map Prod.fst)) where
  blank := by simp [given, record]
  known := by
    intro key tree keys hw htells
    cases htells with
    | naming described =>
      show (Naming.record.ofTree (.ofFields project) >>= _) = _
      rw [Naming.ofTree_eq described hw]
      exact congrArg Except.ok (by simp [given])
    | @kinds items rows =>
      have hkinds := Record.asList_rows rows hw (fun _ _ _ ↦ Kind.ofTree_row)
      show ((Tree.list items none).asList Kind.record.ofTree >>= _) = _
      rw [hkinds]
      exact congrArg Except.ok (by simp [given])
    | defaultKind => exact congrArg Except.ok (by simp [given])
    | @colors items rows =>
      have hcolors := Record.asList_rows rows hw (fun _ _ _ ↦ Color.triple.ofTree_row rfl)
      show ((Tree.list items none).asList Color.record.ofTree >>= _) = _
      rw [hcolors]
      exact congrArg Except.ok (by simp [given])
    | @extensions items rows =>
      have hextensions := Record.asList_rows rows hw
        (fun _ _ _ ↦ ExtensionInfo.triple.ofTree_row rfl)
      show ((Tree.list items none).asList ExtensionInfo.record.ofTree >>= _) = _
      rw [hextensions]
      exact congrArg Except.ok (by simp [given])
  other := by
    intro key keys hk
    have hne : "project" ≠ key ∧ "component_kinds" ≠ key ∧ "default_kind" ≠ key ∧
        "colors" ≠ key ∧ "extensions" ≠ key := by
      simpa [Record.has, record, Json.optional] using hk
    simp [given, hne]

/-- A configuration is read from fields that describe it. -/
theorem load_of_describes {c : Config} {project fields : List (String × Tree)}
    (hd : record.Describes (c.Tells project) fields) {text : String}
    (hw : (Tree.ofFields fields).Written text.toList) :
    load text = .ok (c.given (project.map Prod.fst) (fields.map Prod.fst)) := by
  rw [load, Record.ofText_of_written hw,
    (c.fills project).ofTree_eq hd hw.isWhole (by simp [record, Json.optional])]
  simp only [given, List.mem_reverse]

private theorem forall₂_rows {α : Type} {r : Record Tree α} {Tells : α → String → Tree → Prop}
    {write : α → Value} (h : ∀ part, r.IsRow (Tells part) (write part).tree) (parts : List α) :
    List.Forall₂ (fun part item ↦ r.IsRow (Tells part) item) parts
      (Value.itemTrees (parts.map write)) := by
  rw [Value.itemTrees_map, List.forall₂_map_right_iff, List.forall₂_same]
  intro part _
  exact h part

/-- The value of a configuration describes it whole. -/
theorem describes_toValue (c : Config) :
    ∃ project fields, c.toValue.tree = .ofFields fields ∧
      record.Describes (c.Tells project) fields ∧
      c.given (project.map Prod.fst) (fields.map Prod.fst) = c := by
  obtain ⟨project, hproject, hnaming, hgiven⟩ := c.naming.describes_toValue
  refine ⟨project, [("project", .ofFields project),
    ("component_kinds", .list (Value.itemTrees (c.kinds.map Kind.toValue)) none),
    ("default_kind", .text (some c.defaultKind)),
    ("colors", .list (Value.itemTrees (c.colors.map Color.toValue)) none),
    ("extensions", .list (Value.itemTrees (c.extensions.map ExtensionInfo.toValue)) none)],
    ?_, Record.describes_of_fields rfl (by decide) ?_, ?_⟩
  · rw [← hproject]
    rfl
  · simp only [List.forall_mem_cons]
    exact ⟨.naming hnaming, .kinds (forall₂_rows Kind.isRow_toValue _), .defaultKind,
      .colors (forall₂_rows (fun c ↦ Color.triple.isRow c.name c.argb c.block) _),
      .extensions (forall₂_rows (fun e ↦ ExtensionInfo.triple.isRow e.name e.version e.uuid) _),
      List.forall_mem_nil _⟩
  · simp [given, hgiven]

/-- The value of a configuration holds no numbers. -/
theorem isPlain_toValue (c : Config) : c.toValue.IsPlain := by
  have hkinds : Value.ItemsPlain (c.kinds.map Kind.toValue) :=
    Value.itemsPlain_map (fun kind _ ↦ ⟨trivial, trivial, trivial, trivial,
      Value.membersPlain_map (fun _ _ ↦ trivial), trivial⟩)
  have hcolors : Value.ItemsPlain (c.colors.map Color.toValue) :=
    Value.itemsPlain_map (fun _ _ ↦ ⟨trivial, trivial, trivial, trivial⟩)
  have hextensions : Value.ItemsPlain (c.extensions.map ExtensionInfo.toValue) :=
    Value.itemsPlain_map (fun _ _ ↦ ⟨trivial, trivial, trivial, trivial⟩)
  exact ⟨⟨trivial, trivial, trivial, trivial⟩, hkinds, trivial, hcolors, hextensions, trivial⟩

/-- A document overrides what it mentions: whatever fields of a configuration it gives, in whatever
order, with whatever fields between that are not known, they are read as given, and what it leaves
out is as in the built-in configuration. The whole document of a configuration is read as that
configuration. -/
theorem load_overrides (c : Config) :
    (∀ (project fields : List (String × Tree)) (text : String),
      record.Describes (c.Tells project) fields → (Tree.ofFields fields).Written text.toList →
        load text = .ok (c.given (project.map Prod.fst) (fields.map Prod.fst))) ∧
      load (String.ofList (c.toValue.compact [])) = .ok c := by
  constructor
  · intro project fields text hd hw
    exact load_of_describes hd hw
  · obtain ⟨project, fields, htree, hd, hgiven⟩ := c.describes_toValue
    have hw := Value.written_compact c.isPlain_toValue
    rw [htree, ← String.toList_ofList (l := c.toValue.compact [])] at hw
    rw [load_of_describes hd hw, hgiven]

/-- A configuration that has nothing of the built-in one. -/
def shop : Config where
  naming := ⟨"Shop", "org.shop", "Front"⟩
  kinds := [⟨"Text", "Label", "5", true, .ofList [("FontSize", "\"18\""), ("Width", "-2")]⟩]
  defaultKind := "Label"
  colors := [⟨"Ink", "&HFF102030", "color_black"⟩]
  extensions := []

/-- The fields of the shop's colour, with one between that is not known. -/
def shopColor : List (String × Tree) :=
  [("block", .text (some "color_black")), ("shade", .bool true), ("name", .text (some "Ink")),
    ("argb", .text (some "&HFF102030"))]

/-- One name of the shop's project, behind a field that is not known. -/
def shopProject : List (String × Tree) :=
  [("icon", .ofFields []), ("screen", .text (some "Front"))]

/-- The colours and the project of the shop, among fields that are not known. -/
def shopPart : List (String × Tree) :=
  [("theme", .list [.bool true, .null] none), ("colors", .list [.ofFields shopColor] none),
    ("project", .ofFields shopProject), ("theme", .null)]

/-- The part describes the shop. -/
theorem describes_shopPart : record.Describes (shop.Tells shopProject) shopPart := by
  have hcolor : Color.record.IsRow (Color.Tells ⟨"Ink", "&HFF102030", "color_black"⟩)
      (.ofFields shopColor) := by
    refine ⟨shopColor, rfl, ⟨by decide, ?_⟩, by decide⟩
    simp only [shopColor, List.forall_mem_cons]
    have htold {key text : String}
        (h : (key, text) ∈ [("name", "Ink"), ("argb", "&HFF102030"), ("block", "color_black")]) :=
      Record.TellsTexts.intro h
    exact ⟨fun _ ↦ htold (by simp), fun h ↦ absurd h (by decide), fun _ ↦ htold (by simp),
      fun _ ↦ htold (by simp), List.forall_mem_nil _⟩
  have hproject : Naming.record.Describes shop.naming.Tells shopProject := by
    refine ⟨by decide, ?_⟩
    simp only [shopProject, List.forall_mem_cons]
    exact ⟨fun h ↦ absurd h (by decide), fun _ ↦ Record.TellsTexts.intro (by simp [shop]),
      List.forall_mem_nil _⟩
  refine ⟨by decide, ?_⟩
  simp only [shopPart, List.forall_mem_cons]
  exact ⟨fun h ↦ absurd h (by decide), fun _ ↦ .colors (.cons hcolor .nil),
    fun _ ↦ .naming hproject, fun h ↦ absurd h (by decide), List.forall_mem_nil _⟩

/-- The document of the part. -/
def shopDocument : Value :=
  .object [("theme", .list [.bool true, .null]),
    ("colors", .list [.object [("block", .text "color_black"), ("shade", .bool true),
      ("name", .text "Ink"), ("argb", .text "&HFF102030")]]),
    ("project", .object [("icon", .object []), ("screen", .text "Front")]), ("theme", .null)]

/-- The part of the shop overrides what it mentions, and the whole shop is read back. -/
theorem load_overrides_shop :
    load (String.ofList (shopDocument.compact [])) = .ok { builtIn with
      naming := ⟨"ConvertedApp", "appinventor.ai_anonymous", "Front"⟩
      colors := [⟨"Ink", "&HFF102030", "color_black"⟩] } ∧
      load (String.ofList (shop.toValue.compact [])) = .ok shop := by
  have hplain : shopDocument.IsPlain := by
    simp [shopDocument, Value.IsPlain, Value.ItemsPlain, Value.MembersPlain]
  have hw : (Tree.ofFields shopPart).Written (String.ofList (shopDocument.compact [])).toList := by
    rw [String.toList_ofList]
    exact Value.written_compact hplain
  have hload := (load_overrides shop).1 shopProject shopPart _ describes_shopPart hw
  refine ⟨hload.trans ?_, (load_overrides shop).2⟩
  simp [given, Naming.given, shop, shopPart, shopProject, Naming.builtIn]

end Config

end Blockwright
