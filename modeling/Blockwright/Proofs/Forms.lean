import Blockwright.Form.Document
import Blockwright.Proofs.Blanks
import Blockwright.Proofs.Names
import Blockwright.Proofs.Records
import Blockwright.Proofs.Written

/-!
# Written forms are read back

The properties of a component are written behind its fixed fields and into the same object. A form
is read back unless a property has the key of a fixed field: then the field is given twice, and the
first such key in the order of the text is refused. The envelope does not matter, whatever the
texts of the form hold.
-/

namespace Blockwright

open Blockwright.Json Blockwright.Text

/-! ### The envelope -/

namespace Form

/-- What is put into the envelope is found there between two line feeds. -/
theorem unwrap?_envelope (content : List Char) :
    unwrap? ("#|\n$JSON\n".toList ++ (content ++ "\n|#".toList)) =
      some ('\n' :: (content ++ ['\n'])) := by
  have hend (cs : List Char) : Script.endsBlank (cs ++ "\n|#".toList) = false := by
    rw [Script.endsBlank_append _ (by decide)]
    decide
  have htrim : trim ("#|\n$JSON\n".toList ++ (content ++ "\n|#".toList)) =
      "#|\n$JSON\n".toList ++ (content ++ "\n|#".toList) := by
    apply Script.trim_of_solid
    · rfl
    · rw [← List.append_assoc]
      exact hend _
  have hinner : trimEnd ('\n' :: (content ++ "\n|#".toList)) =
      '\n' :: (content ++ "\n|#".toList) :=
    Script.trimEnd_of_solid (hend ('\n' :: content))
  have hreverse : ('\n' :: (content ++ "\n|#".toList)).reverse =
      '#' :: '|' :: ('\n' :: (content ++ ['\n'])).reverse := by
    simp
  -- The opening marks are taken off by computation, the closing one through the reversed text.
  rw [unwrap?, htrim]
  show ("|#".toList.reverse.isPrefixOf?
    (trimEnd ('\n' :: (content ++ "\n|#".toList))).reverse >>= _) = _
  rw [hinner, hreverse]
  show some ('\n' :: (content ++ ['\n'])).reverse.reverse = _
  rw [List.reverse_reverse]

private theorem toList_written (f : Form) :
    f.written.toList = "#|\n$JSON\n".toList ++ (f.toValue.compact [] ++ "\n|#".toList) := by
  have hvalue : f.toValue.compact "\n|#".toList = f.toValue.compact [] ++ "\n|#".toList :=
    Value.compact_append f.toValue [] "\n|#".toList
  exact String.toList_ofList.trans (congrArg ("#|\n$JSON\n".toList ++ ·) hvalue)

private theorem exists_braces (f : Form) :
    ∃ inner, f.toValue.compact [] = '\x7b' :: (inner ++ ['\x7d']) :=
  ⟨_, congrArg ('\x7b' :: ·) (Value.compactMembers_append _ [] ['\x7d'])⟩

/-- In the envelope of a written form the form's value is found. -/
theorem load_written_eq (f : Form) :
    load f.written = (record.ofText (f.toValue.compact [])).mapError .document := by
  have htrim : trim ('\n' :: (f.toValue.compact [] ++ ['\n'])) = f.toValue.compact [] := by
    obtain ⟨inner, hinner⟩ := f.exists_braces
    have hend : Script.endsBlank (f.toValue.compact []) = false := by
      rw [hinner, ← List.cons_append, Script.endsBlank_append _ (List.cons_ne_nil _ _)]
      rfl
    have hgap : ∀ c ∈ ['\n'], isBlank c := List.forall_mem_singleton.mpr rfl
    have hstart := @Script.trim_append ['\n'] (f.toValue.compact [] ++ ['\n']) hgap
      (by rw [hinner]; rfl)
    exact hstart.trans (Script.trim_append_gap (by rw [hinner]; rfl) hend (by simp [hinner]) hgap)
  rw [load, toList_written, unwrap?_envelope]
  show (record.ofText (trim ('\n' :: (f.toValue.compact [] ++ ['\n'])))).mapError _ = _
  rw [htrim]

end Form

/-! ### Keys that are given twice -/

/-- What is read where a key may be given twice. -/
def unlessTwice {α : Type} (key : Option String) (a : α) : Except Json.Error α :=
  match key with
  | some key => .error (.problem (.duplicateField key))
  | none => .ok a

private theorem mapM_unlessTwice {α : Type} {write : α → Tree}
    {convert : Tree → Except Json.Error α} {twice : α → Option String} {parts : List α}
    (h : ∀ part ∈ parts, convert (write part) = unlessTwice (twice part) part) :
    (parts.map write).mapM convert = unlessTwice (parts.findSome? twice) parts := by
  induction parts with
  | nil => rfl
  | cons part parts ih =>
    rw [List.forall_mem_cons] at h
    rw [List.map_cons, List.mapM_cons, h.1, ih h.2, List.findSome?_cons]
    cases twice part with
    | some key => rfl
    | none => cases parts.findSome? twice <;> rfl

namespace Component

/-- The keys of the fixed fields of a component. -/
def reservedKeys : List String := ["$Name", "$Type", "$Version", "Uuid"]

/-- The first property with the key of a fixed field. -/
def reserved? (c : Component) : Option String :=
  (c.properties.entries.map Prod.fst).find? record.has

private theorem has_iff {key : String} : record.has key ↔ key ∈ reservedKeys := Record.has_iff

private theorem foldlM_take_properties (c : Component) (others : List (String × Value))
    (properties : List (String × String)) :
    (properties.map (fun entry ↦ (some entry.1, Tree.text (some entry.2)))).foldlM take
        (reservedKeys.reverse, c, others) =
      unlessTwice ((properties.map Prod.fst).find? record.has) (reservedKeys.reverse, c,
        others ++ properties.map (fun entry ↦ (entry.1, Value.text entry.2))) := by
  induction properties generalizing others with
  | nil =>
    rw [List.map_nil, List.map_nil, List.map_nil, List.append_nil]
    rfl
  | cons entry properties ih =>
    rw [List.map_cons, List.foldlM_cons, List.map_cons, List.map_cons]
    cases hk : record.has entry.1 with
    | true =>
      -- All fixed fields have been given before.
      have htake : take (reservedKeys.reverse, c, others) (some entry.1, .text (some entry.2)) =
          .error (.problem (.duplicateField entry.1)) := by
        have hseen : entry.1 ∈ reservedKeys.reverse := List.mem_reverse.mpr (has_iff.mp hk)
        simp only [take, readContent, Except.mapError, bind, Except.bind, if_pos hk,
          Record.take_again hk hseen]
      rw [htake, List.find?_cons_of_pos hk]
      rfl
    | false =>
      have htake : take (reservedKeys.reverse, c, others) (some entry.1, .text (some entry.2)) =
          .ok (reservedKeys.reverse, c, others ++ [(entry.1, .text entry.2)]) := by
        have hother : ¬ (record.has entry.1 = true) := by simpa using hk
        simp only [take, readContent, Except.mapError, bind, Except.bind, if_neg hother]
        rfl
      have hrest := ih (others ++ [(entry.1, .text entry.2)])
      rw [List.append_assoc, List.singleton_append] at hrest
      rw [htake, List.find?_cons_of_neg (by simp [hk])]
      exact hrest

private theorem ofTree_toValue (c : Component) :
    ofTree c.toValue.tree = unlessTwice c.reserved? c := by
  have htree : c.toValue.tree = .object ([(some "$Name", .text (some c.name)),
      (some "$Type", .text (some c.typeName)), (some "$Version", .text (some c.version)),
      (some "Uuid", .text (some c.uuid))] ++
      c.properties.entries.map (fun entry ↦ (some entry.1, .text (some entry.2)))) none := by
    have hproperties := Value.memberTrees_map (fun entry : String × String ↦ entry.1)
      (fun entry ↦ .text entry.2) c.properties.entries
    simp [toValue, Value.tree, Value.memberTrees, hproperties]
  have hfold := foldlM_take_properties { c with properties := .empty } [] c.properties.entries
  have htexts : (c.properties.entries.map (fun entry ↦ (entry.1, Value.text entry.2))).mapM
      (fun member ↦ return (member.1, ← member.2.asText)) =
      (.ok c.properties.entries : Except Json.Error _) := by
    rw [List.mapM_map]
    exact List.mapM_pure.trans (congrArg Except.ok (List.map_id _))
  rw [htree]
  -- The four fixed members are taken by computation; what is left is the loop over the properties.
  show (((c.properties.entries.map (fun entry ↦ (some entry.1, Tree.text (some entry.2)))).foldlM
    take (reservedKeys.reverse, { c with properties := .empty }, [])) >>= _) = _
  rw [hfold, ← reserved?]
  cases c.reserved? with
  | some key => rfl
  | none =>
    refine (congrArg (· >>= fun properties ↦ .ok { c with properties := .ofList properties })
      htexts).trans ?_
    exact congrArg (fun properties ↦ Except.ok { c with properties })
      (Properties.ofList_eq_of_perm (List.Perm.refl _))

end Component

/-! ### Screens and forms -/

private theorem ExtensionInfo.asList_toFormValue (extensions : List ExtensionInfo) :
    (Value.list (extensions.map toFormValue)).tree.asList formRecord.ofTree = .ok extensions := by
  apply Tree.asList_of_forall₂
  rw [Value.itemTrees_map, List.forall₂_map_right_iff, List.forall₂_same]
  intro extension _
  rfl

namespace Screen

variable {s : Screen}

/-- The first property of a component that has the key of a fixed field. -/
def reserved? (s : Screen) : Option String := s.components.findSome? Component.reserved?

/-- No component has a property with the key of a fixed field. -/
theorem reserved?_eq_none_iff : s.reserved? = none ↔
    ∀ c ∈ s.components, ∀ entry ∈ c.properties.entries, entry.1 ∉ Component.reservedKeys := by
  simp [reserved?, Component.reserved?, ← Component.has_iff]

/-- A key that is given twice is that of a fixed field. -/
theorem mem_reservedKeys {key : String} (h : s.reserved? = some key) :
    key ∈ Component.reservedKeys := by
  obtain ⟨c, _, hkey⟩ := List.exists_of_findSome?_eq_some h
  exact Component.has_iff.mp (List.find?_some hkey)

private theorem set_components :
    record.set "$Components" (Value.list (s.components.map Component.toValue)).tree
      { s with components := [], extensions := [] } =
      unlessTwice s.reserved? { s with extensions := [] } := by
  have hlist : (Value.list (s.components.map Component.toValue)).tree.asList Component.ofTree =
      unlessTwice s.reserved? s.components := by
    rw [Value.tree, Value.itemTrees_map, Tree.asList,
      mapM_unlessTwice (fun c _ ↦ c.ofTree_toValue), ← reserved?]
    cases s.reserved? <;> rfl
  show ((Value.list (s.components.map Component.toValue)).tree.asList Component.ofTree >>= _) = _
  rw [hlist]
  cases s.reserved? <;> rfl

private theorem foldlM_take_extensions (s : Screen) {seen : List String}
    (hs : "$Extensions" ∉ seen) :
    ∃ given, (Value.memberTrees (if s.extensions.isEmpty then []
        else [("$Extensions", .list (s.extensions.map ExtensionInfo.toFormValue))])).foldlM
        record.take (seen, { s with extensions := [] }) = .ok (given, s) ∧
      ∀ name ∈ seen, name ∈ given := by
  by_cases he : s.extensions = []
  · refine ⟨seen, ?_, fun _ hm ↦ hm⟩
    rw [if_pos (by simpa using he)]
    show Except.ok (seen, { s with extensions := [] }) = .ok (seen, s)
    rw [← he]
  · refine ⟨"$Extensions" :: seen, ?_, fun _ hm ↦ List.mem_cons_of_mem _ hm⟩
    rw [if_neg (by simpa using he)]
    show ([(some "$Extensions", (Value.list (s.extensions.map
      ExtensionInfo.toFormValue)).tree)].foldlM record.take (seen, { s with extensions := [] })) = _
    rw [List.foldlM_cons, Record.take_known rfl hs]
    show ((Except.map _ ((Value.list (s.extensions.map ExtensionInfo.toFormValue)).tree.asList
      ExtensionInfo.formRecord.ofTree >>= _)) >>= _) = _
    rw [ExtensionInfo.asList_toFormValue]
    rfl

private theorem ofTree_toValue : record.ofTree s.toValue.tree = unlessTwice s.reserved? s := by
  have hfixed : [(some "$Name", .text (some s.name)), (some "$Type", .text (some s.typeName)),
      (some "$Version", .text (some s.version)), (some "Uuid", .text (some s.uuid)),
      (some "Title", .text (some s.title))].foldlM record.take ([], record.blank) =
      .ok (["Title", "Uuid", "$Version", "$Type", "$Name"],
        { s with components := [], extensions := [] }) := rfl
  have hnew : "$Extensions" ∉ ["$Components", "Title", "Uuid", "$Version", "$Type", "$Name"] := by
    decide
  obtain ⟨given, hextensions, hgiven⟩ := s.foldlM_take_extensions hnew
  have hcomplete : record.complete .missingField given s = .ok s := by
    apply Record.complete_of_seen
    intro field hm hr
    apply hgiven
    revert field
    decide
  refine (Record.ofTree_append hfixed rfl (by decide)).trans ?_
  rw [set_components]
  cases s.reserved? with
  | some key => rfl
  | none =>
    refine Eq.trans (congrArg (· >>= fun last : List String × Screen ↦
      record.complete .missingField last.1 last.2) hextensions) ?_
    exact hcomplete

end Screen

namespace Form

private theorem ofTree_toValue (f : Form) :
    record.ofTree f.toValue.tree = unlessTwice f.screen.reserved? f := by
  have hfixed : [(some "YaVersion", .text (some f.format)),
      (some "Source", .text (some f.source))].foldlM record.take ([], record.blank) =
      .ok (["Source", "YaVersion"], { f with screen := Screen.record.blank }) := rfl
  have hset : record.set "Properties" f.screen.toValue.tree
      { f with screen := Screen.record.blank } = unlessTwice f.screen.reserved? f := by
    show (Screen.record.ofTree f.screen.toValue.tree >>= _) = _
    rw [Screen.ofTree_toValue]
    cases f.screen.reserved? <;> rfl
  refine (Record.ofTree_append hfixed rfl (by decide)).trans ?_
  rw [hset]
  cases f.screen.reserved? <;> rfl

private theorem isPlain_toValue (f : Form) : f.toValue.IsPlain := by
  have hcomponents : Value.ItemsPlain (f.screen.components.map Component.toValue) :=
    Value.itemsPlain_map (fun _ _ ↦ ⟨trivial, trivial, trivial, trivial,
      Value.membersPlain_map (fun _ _ ↦ trivial)⟩)
  have hextensions : Value.ItemsPlain (f.screen.extensions.map ExtensionInfo.toFormValue) :=
    Value.itemsPlain_map (fun _ _ ↦ ⟨trivial, trivial, trivial, trivial⟩)
  have hscreen : f.screen.toValue.IsPlain := by
    refine ⟨trivial, trivial, trivial, trivial, trivial, hcomponents, ?_⟩
    show Value.MembersPlain (if f.screen.extensions.isEmpty then [] else _)
    split
    · trivial
    · exact ⟨hextensions, trivial⟩
  exact ⟨trivial, trivial, hscreen, trivial⟩

/-- A written form is read back unless a component gives a key twice. -/
theorem load_written_unlessTwice (f : Form) :
    load f.written = (unlessTwice f.screen.reserved? f).mapError .document := by
  rw [load_written_eq, Record.ofText_of_written (Value.written_compact f.isPlain_toValue),
    ofTree_toValue]

/-- A written form is read back exactly when no property has the key of a fixed field of its
component. If one has, the first such key is refused as given twice. -/
theorem load_written_iff (f : Form) :
    (load f.written = .ok f ↔
      ∀ c ∈ f.screen.components, ∀ entry ∈ c.properties.entries, entry.1 ∉ Component.reservedKeys) ∧
    ∀ c ∈ f.screen.components, ∀ entry ∈ c.properties.entries, entry.1 ∈ Component.reservedKeys →
      ∃ key ∈ Component.reservedKeys, f.screen.reserved? = some key ∧
        load f.written = .error (.document (.problem (.duplicateField key))) := by
  have hload := f.load_written_unlessTwice
  rw [← Screen.reserved?_eq_none_iff]
  cases hr : f.screen.reserved? with
  | none =>
    rw [hr] at hload
    refine ⟨⟨fun _ ↦ rfl, fun _ ↦ hload⟩, ?_⟩
    intro c hc entry he hkey
    exact absurd hkey (Screen.reserved?_eq_none_iff.mp hr c hc entry he)
  | some key =>
    rw [hr] at hload
    constructor
    · rw [hload]
      exact ⟨nofun, nofun⟩
    · intro c hc entry he hkey
      exact ⟨key, Screen.mem_reservedKeys hr, rfl, hload⟩

/-- A form whose texts hold the marks of the envelope, quotes and control characters. -/
def marked : Form :=
  ⟨"|#", "$JSON\n#|", ⟨"\"S\\", "Form", "31", "0", "\x07",
    [⟨"A", "Label", "5", "1", .ofList [("Text", "\n|#"), ("Width", "\t")]⟩], [⟨"|#", "2", "#"⟩]⟩⟩

/-- The form with a property in place of the identifier. -/
def clashing : Form :=
  { marked with screen.components := marked.screen.components ++
      [⟨"B", "Label", "5", "2", .ofList [("Text", "2"), ("Uuid", "3")]⟩] }

/-- Texts that hold the marks of the envelope are read back, and a second identifier is refused. -/
theorem load_written_iff_marked :
    load marked.written = .ok marked ∧
      load clashing.written = .error (.document (.problem (.duplicateField "Uuid"))) := by
  constructor
  · apply (load_written_iff marked).1.mpr
    decide
  · obtain ⟨key, _, hkey, hload⟩ := (load_written_iff clashing).2
      ⟨"B", "Label", "5", "2", .ofList [("Text", "2"), ("Uuid", "3")]⟩ (by decide) ("Uuid", "3")
      (by decide) (by decide)
    have hfirst : clashing.screen.reserved? = some "Uuid" := by decide
    rw [hfirst] at hkey
    cases hkey
    exact hload

end Form

end Blockwright
