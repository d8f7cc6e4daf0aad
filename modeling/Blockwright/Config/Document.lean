import Blockwright.Config
import Blockwright.Json.Record

/-!
# Configurations as documents

A configuration is read from a document in the order of the text. What the document leaves out
is as in the built-in configuration.
-/

namespace Blockwright

open Blockwright.Json

/-! ### Writing -/

/-- The names of a project as a value. -/
def Naming.toValue (n : Naming) : Value :=
  .object [("name", .text n.name), ("namespace", .text n.package), ("screen", .text n.screen)]

/-- A kind as a value. -/
def Kind.toValue (k : Kind) : Value :=
  .object [("prefix", .text k.stem), ("type", .text k.typeName), ("version", .text k.version),
    ("text_from_name", .bool k.textFromName),
    ("defaults", .object (k.defaults.entries.map (fun entry ↦ (entry.1, .text entry.2))))]

/-- A colour as a value. -/
def Color.toValue (c : Color) : Value :=
  .object [("name", .text c.name), ("argb", .text c.argb), ("block", .text c.block)]

/-- An extension as a value. -/
def ExtensionInfo.toValue (e : ExtensionInfo) : Value :=
  .object [("name", .text e.name), ("version", .text e.version), ("uuid", .text e.uuid)]

/-- A configuration as a value. -/
def Config.toValue (c : Config) : Value :=
  .object [("project", c.naming.toValue),
    ("component_kinds", .list (c.kinds.map Kind.toValue)),
    ("default_kind", .text c.defaultKind),
    ("colors", .list (c.colors.map Color.toValue)),
    ("extensions", .list (c.extensions.map ExtensionInfo.toValue))]

/-! ### Reading -/

/-- How the names of a project are read. -/
def Naming.record : Record Tree Naming where
  name := "struct ProjectConfig"
  fields := [optional "name", optional "namespace", optional "screen"]
  blank := Naming.builtIn
  set key t n :=
    match key with
    | "name" => return { n with name := ← t.asText }
    | "namespace" => return { n with package := ← t.asText }
    | "screen" => return { n with screen := ← t.asText }
    | _ => .ok n

/-- How a kind is read. -/
def Kind.record : Record Tree Kind where
  name := "struct ComponentKind"
  fields := [needed "prefix", needed "type", needed "version", optional "text_from_name",
    optional "defaults"]
  blank := { stem := "", typeName := "", version := "" }
  set key t k :=
    match key with
    | "prefix" => return { k with stem := ← t.asText }
    | "type" => return { k with typeName := ← t.asText }
    | "version" => return { k with version := ← t.asText }
    | "text_from_name" => return { k with textFromName := ← t.asBool }
    | "defaults" => return { k with defaults := .ofList (← t.asFields) }
    | _ => .ok k

/-- How a colour is read. -/
def Color.record : Record Tree Color where
  name := "struct NamedColor"
  fields := [needed "name", needed "argb", needed "block"]
  blank := ⟨"", "", ""⟩
  set key t c :=
    match key with
    | "name" => return { c with name := ← t.asText }
    | "argb" => return { c with argb := ← t.asText }
    | "block" => return { c with block := ← t.asText }
    | _ => .ok c

/-- How an extension is read. -/
def ExtensionInfo.record : Record Tree ExtensionInfo where
  name := "struct ExtensionInfo"
  fields := [needed "name", needed "version", needed "uuid"]
  blank := ⟨"", "", ""⟩
  set key t e :=
    match key with
    | "name" => return { e with name := ← t.asText }
    | "version" => return { e with version := ← t.asText }
    | "uuid" => return { e with uuid := ← t.asText }
    | _ => .ok e

namespace Config

/-- How a configuration is read. -/
def record : Record Tree Config where
  name := "struct ConverterConfig"
  fields := [optional "project", optional "component_kinds", optional "default_kind",
    optional "colors", optional "extensions"]
  blank := Config.builtIn
  set key t c :=
    match key with
    | "project" => return { c with naming := ← Naming.record.ofTree t }
    | "component_kinds" => return { c with kinds := ← t.asList Kind.record.ofTree }
    | "default_kind" => return { c with defaultKind := ← t.asText }
    | "colors" => return { c with colors := ← t.asList Color.record.ofTree }
    | "extensions" => return { c with extensions := ← t.asList ExtensionInfo.record.ofTree }
    | _ => .ok c

/-- The configuration that a text holds. -/
def load (text : String) : Except Json.Error Config := record.ofText text.toList

end Config

end Blockwright
