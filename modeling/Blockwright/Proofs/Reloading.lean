import Blockwright.Proofs.Written
import Blockwright.Script.Document

/-!
# Programs survive being written

A written program is read back as the same program as long as the brackets of its text are not
nested too deep. Members come back in the order of their keys, and a record takes them in any
order, so each part of a program is read from a few known members.
-/

namespace Blockwright.Json

/-! ### Records from members -/

namespace Record

variable {α : Type}

/-- A record takes known members one after the other. -/
inductive Takes (r : Record Value α) : α → List (String × Value) → α → Prop where
  | nil (a : α) : Takes r a [] a
  /-- A member that is taken as it is. -/
  | cons {a b c : α} {key : String} {value : Value} {members : List (String × Value)}
    (known : r.has key) (set_eq : r.set key value a = .ok b) (rest : Takes r b members c) :
    Takes r a ((key, value) :: members) c
  /-- A list whose items are converted. -/
  | list {β : Type} {a c : α} {key : String} {items : List Value} {parts : List β}
    {members : List (String × Value)} {convert : Value → Except Error β} {put : List β → α}
    (known : r.has key)
    (set_eq : ∀ value : Value, r.set key value a = value.asList convert >>= fun b ↦ pure (put b))
    (items_eq : items.mapM convert = .ok parts) (rest : Takes r (put parts) members c) :
    Takes r a ((key, .list items) :: members) c

private theorem ofMembers_of_takes {r : Record Value α} {members : List (String × Value)} {a : α}
    (h : r.Takes r.blank members a)
    (hc : r.complete .missingField (members.map (·.1)) a = .ok a) :
    r.ofMembers members = .ok a := by
  have hfold {b c : α} {members : List (String × Value)} (h : r.Takes b members c) :
      members.foldlM (fun a member ↦
        if r.has member.1 then r.set member.1 member.2 a else .ok a) b = .ok c := by
    induction h with
    | nil a => rfl
    | cons known set_eq rest ih =>
      rw [List.foldlM_cons, if_pos known, set_eq]
      exact ih
    | list known set_eq items_eq rest ih =>
      rw [List.foldlM_cons, if_pos known, set_eq, Value.asList, items_eq]
      exact ih
  rw [ofMembers, hfold h]
  exact hc

end Record

namespace Value

private theorem mapM_sortedItems {α : Type} {write : α → Value} {convert : Value → Except Error α}
    {parts : List α} (h : ∀ part ∈ parts, convert (write part).sorted = .ok part) :
    (sortedItems (parts.map write)).mapM convert = .ok parts := by
  induction parts with
  | nil => rfl
  | cons part parts ih =>
    rw [List.map_cons, sortedItems, List.mapM_cons, h part List.mem_cons_self,
      ih (fun other ho ↦ h other (List.mem_cons_of_mem _ ho))]
    rfl

end Value

end Blockwright.Json

namespace Blockwright.Script

open Blockwright.Json Blockwright.Json.Value

/-! ### Actions -/

private theorem mapM_asText (texts : List String) :
    (sortedItems (texts.map Value.text)).mapM Value.asText = .ok texts :=
  mapM_sortedItems (fun _ _ ↦ rfl)

namespace Action

private theorem ofTag_tag (kind : ActionKind) : ActionKind.ofTag kind.tag = .ok kind := by
  cases kind <;> rfl

private theorem ofValueWithin_object {inside : Bool} {levels : Nat}
    {members others : List (String × Value)}
    {kind : ActionKind} {fields : ActionFields}
    (htakes : (kind.record (ofValueWithin true levels)).Takes {} others fields)
    (hc : (kind.record (ofValueWithin true levels)).complete .missingField (others.map (·.1))
      fields = .ok fields)
    (htag : Ordered.get? "type" members = some (.text kind.tag))
    (ho : members.filter (fun member ↦ member.1 != "type") = others) :
    ofValueWithin inside (levels + 1) (.object members) = .ok (fields.action kind) := by
  rw [ofValueWithin, htag]
  show (ActionKind.ofTag kind.tag >>= _) = _
  rw [ofTag_tag]
  show (Record.ofMembers _ _ >>= _) = _
  rw [ho, Record.ofMembers_of_takes htakes hc]
  rfl

mutual

private theorem ofValueWithin_toValue (action : Action) (inside : Bool) {levels : Nat}
    (h : (toValue action).sorted.depth < levels) :
    ofValueWithin inside levels (toValue action).sorted = .ok action := by
  obtain ⟨levels, rfl⟩ : ∃ n, levels = n + 1 := ⟨levels - 1, by omega⟩
  cases action with
  | setProperty component property value => rfl
  | assign target value => rfl
  | call component method arguments =>
    have htakes : (ActionKind.call.record (ofValueWithin true levels)).Takes {}
        [("component", .text component), ("method", .text method),
          ("parameters", .list (sortedItems (arguments.map Value.text)))]
        { component, method, parameters := arguments } :=
      .cons rfl rfl (.cons rfl rfl (.list rfl (fun _ ↦ rfl) (mapM_asText arguments) (.nil _)))
    exact ofValueWithin_object htakes rfl rfl rfl
  | define target value => rfl
  | branch condition body otherwise =>
    have hs : (toValue (branch condition body otherwise)).sorted = .object [
        ("actions", .list (sortedItems (bodyValues body))), ("condition", .text condition),
        ("elseActions", .list (sortedItems (bodyValues otherwise))), ("type", .text "if")] := rfl
    rw [hs] at h ⊢
    simp only [depth, depthOfMembers] at h
    have hbody := @mapM_bodyValues body levels (by omega)
    have hother := @mapM_bodyValues otherwise levels (by omega)
    have htakes : (ActionKind.branch.record (ofValueWithin true levels)).Takes {}
        [("actions", .list (sortedItems (bodyValues body))), ("condition", .text condition),
          ("elseActions", .list (sortedItems (bodyValues otherwise)))]
        { condition, actions := body, elseActions := otherwise } :=
      .list rfl (fun _ ↦ rfl) hbody (.cons rfl rfl (.list rfl (fun _ ↦ rfl) hother (.nil _)))
    exact ofValueWithin_object htakes rfl rfl rfl
  | loop condition body =>
    have hs : (toValue (loop condition body)).sorted = .object [
        ("actions", .list (sortedItems (bodyValues body))), ("condition", .text condition),
        ("type", .text "while")] := rfl
    rw [hs] at h ⊢
    simp only [depth, depthOfMembers] at h
    have hbody := @mapM_bodyValues body levels (by omega)
    have htakes : (ActionKind.loop.record (ofValueWithin true levels)).Takes {}
        [("actions", .list (sortedItems (bodyValues body))), ("condition", .text condition)]
        { condition, actions := body } :=
      .list rfl (fun _ ↦ rfl) hbody (.cons rfl rfl (.nil _))
    exact ofValueWithin_object htakes rfl rfl rfl
  | forEach item list body =>
    have hs : (toValue (forEach item list body)).sorted = .object [
        ("actions", .list (sortedItems (bodyValues body))), ("item", .text item),
        ("list", .text list), ("type", .text "for_each")] := rfl
    rw [hs] at h ⊢
    simp only [depth, depthOfMembers] at h
    have hbody := @mapM_bodyValues body levels (by omega)
    have htakes : (ActionKind.forEach.record (ofValueWithin true levels)).Takes {}
        [("actions", .list (sortedItems (bodyValues body))), ("item", .text item),
          ("list", .text list)]
        { item, list, actions := body } :=
      .list rfl (fun _ ↦ rfl) hbody (.cons rfl rfl (.cons rfl rfl (.nil _)))
    exact ofValueWithin_object htakes rfl rfl rfl

private theorem mapM_bodyValues (actions : List Action) {levels : Nat}
    (h : depthOfItems (sortedItems (bodyValues actions)) < levels) :
    (sortedItems (bodyValues actions)).mapM (ofValueWithin true levels) = .ok actions := by
  cases actions with
  | nil => rfl
  | cons action actions =>
    rw [bodyValues, sortedItems, depthOfItems] at h
    rw [bodyValues, sortedItems, List.mapM_cons, ofValueWithin_toValue action true (by omega),
      mapM_bodyValues actions (by omega)]
    rfl

end

private theorem mapM_ofValue (actions : List Action) :
    (sortedItems (bodyValues actions)).mapM ofValue = .ok actions := by
  induction actions with
  | nil => rfl
  | cons action actions ih =>
    have hfirst : ofValue (toValue action).sorted = .ok action :=
      ofValueWithin_toValue action false (Nat.lt_succ_self _)
    rw [bodyValues, sortedItems, List.mapM_cons, hfirst, ih]
    rfl

mutual

private theorem isPlain_toValue (action : Action) : (toValue action).IsPlain := by
  cases action with
  | setProperty => exact ⟨trivial, trivial, trivial, trivial, trivial⟩
  | assign | define => exact ⟨trivial, trivial, trivial, trivial⟩
  | call component method arguments =>
    exact ⟨trivial, trivial, trivial, itemsPlain_map (fun _ _ ↦ trivial), trivial⟩
  | branch condition body otherwise =>
    exact ⟨trivial, trivial, itemsPlain_bodyValues body, itemsPlain_bodyValues otherwise, trivial⟩
  | loop condition body => exact ⟨trivial, trivial, itemsPlain_bodyValues body, trivial⟩
  | forEach item list body =>
    exact ⟨trivial, trivial, trivial, itemsPlain_bodyValues body, trivial⟩

private theorem itemsPlain_bodyValues (actions : List Action) :
    ItemsPlain (bodyValues actions) := by
  cases actions with
  | nil => trivial
  | cons action actions => exact ⟨isPlain_toValue action, itemsPlain_bodyValues actions⟩

end

end Action

/-! ### Programs -/

private theorem Event.ofValue_toValue (e : Event) :
    Event.record.ofValue e.toValue.sorted = .ok e := by
  have htakes : Event.record.Takes Event.record.blank
      [("actions", .list (sortedItems (Action.bodyValues e.actions))),
        ("component", .text e.component), ("event", .text e.event)] e :=
    .list rfl (fun _ ↦ rfl) (Action.mapM_ofValue e.actions) (.cons rfl rfl (.cons rfl rfl (.nil _)))
  exact Record.ofMembers_of_takes htakes rfl

private theorem Variable.ofValue_toValue (v : Variable) :
    Variable.record.ofValue v.toValue.sorted = .ok v := rfl

private theorem Procedure.ofValue_toValue (q : Procedure) :
    Procedure.record.ofValue q.toValue.sorted = .ok q := by
  have htakes : Procedure.record.Takes Procedure.record.blank
      [("actions", .list (sortedItems (Action.bodyValues q.actions))), ("name", .text q.name),
        ("parameters", .list (sortedItems (q.parameters.map Value.text)))] q :=
    .list rfl (fun _ ↦ rfl) (Action.mapM_ofValue q.actions) (.cons rfl rfl
      (.list rfl (fun _ ↦ rfl) (mapM_asText q.parameters) (.nil _)))
  exact Record.ofMembers_of_takes htakes rfl

private theorem Diagnostic.ofValue_toValue (d : Diagnostic) :
    Diagnostic.record.ofValue d.toValue.sorted = .ok d := by
  have hline (f : Diagnostic) : Diagnostic.record.set "line" (.number (.integer d.line)) f =
      .ok { f with line := d.line } := by
    show (Value.asNatural _ >>= _) = _
    rw [asNatural, if_pos (Int.natCast_nonneg _)]
    rfl
  have htakes : Diagnostic.record.Takes Diagnostic.record.blank
      [("line", .number (.integer d.line)), ("message", .text d.message)] d :=
    .cons rfl (hline _) (.cons rfl rfl (.nil _))
  exact Record.ofMembers_of_takes htakes rfl

namespace Program

/-- The value of a program is plain if the numbers of its diagnostics fit 64 bits. -/
theorem isPlain_toValue {p : Program} (h : ∀ d ∈ p.diagnostics, d.line < Nat.pow 2 64) :
    p.toValue.IsPlain := by
  refine ⟨itemsPlain_map fun e _ ↦ ?_, itemsPlain_map fun v _ ↦ ?_, itemsPlain_map fun q _ ↦ ?_,
    itemsPlain_map fun _ _ ↦ trivial, itemsPlain_map fun d hd ↦ ?_, trivial⟩
  · exact ⟨trivial, trivial, Action.itemsPlain_bodyValues e.actions, trivial⟩
  · exact ⟨trivial, trivial, trivial⟩
  · exact ⟨trivial, itemsPlain_map fun _ _ ↦ trivial, Action.itemsPlain_bodyValues q.actions,
      trivial⟩
  · exact ⟨⟨rfl, h d hd⟩, trivial, trivial⟩

/-- The value of a program is read back as the program. -/
theorem ofValue_toValue (p : Program) : record.ofValue p.toValue.sorted = .ok p := by
  have hdiagnostics := mapM_sortedItems (fun d (_ : d ∈ p.diagnostics) ↦ d.ofValue_toValue)
  have hevents := mapM_sortedItems (fun e (_ : e ∈ p.events) ↦ e.ofValue_toValue)
  have hprocedures := mapM_sortedItems (fun q (_ : q ∈ p.procedures) ↦ q.ofValue_toValue)
  have hglobals := mapM_sortedItems (fun v (_ : v ∈ p.globals) ↦ v.ofValue_toValue)
  have htakes : record.Takes record.blank
      [("components", .list (sortedItems (p.components.map Value.text))),
        ("errors", .list (sortedItems (p.diagnostics.map Diagnostic.toValue))),
        ("events", .list (sortedItems (p.events.map Event.toValue))),
        ("procedures", .list (sortedItems (p.procedures.map Procedure.toValue))),
        ("variables", .list (sortedItems (p.globals.map Variable.toValue)))] p :=
    .list rfl (fun _ ↦ rfl) (mapM_asText p.components)
      (.list rfl (fun _ ↦ rfl) hdiagnostics
        (.list rfl (fun _ ↦ rfl) hevents
          (.list rfl (fun _ ↦ rfl) hprocedures (.list rfl (fun _ ↦ rfl) hglobals (.nil _)))))
  exact Record.ofMembers_of_takes htakes rfl

/-- The brackets of a program's text are nested as deep as the lists and objects of its value. -/
theorem nesting_written {p : Program} (h : ∀ d ∈ p.diagnostics, d.line < Nat.pow 2 64) :
    nesting p.written.toList = p.toValue.depth := by
  rw [written, String.toList_ofList, nesting_pretty (isPlain_toValue h)]

/-- A written program is read back as the program if the brackets of its text are nested at most
127 deep, and refused as malformed otherwise. -/
theorem load_written (p : Program) (h : ∀ d ∈ p.diagnostics, d.line < Nat.pow 2 64) :
    load p.written = if nesting p.written.toList ≤ 127 then .ok p
      else .error (.document (.fault .malformed)) := by
  rw [nesting_written h, load, written, String.toList_ofList, read_pretty (isPlain_toValue h),
    nesting_pretty (isPlain_toValue h), maxNesting]
  by_cases hd : p.toValue.depth ≤ 127
  · rw [if_pos hd, if_pos hd]
    show Except.mapError _ (record.ofValue p.toValue.sorted) = _
    rw [ofValue_toValue]
    rfl
  · rw [if_neg hd, if_neg hd]
    rfl

/-- A handler with a body inside some loops, and a diagnostic with the greatest number. -/
def loops (levels : Nat) (body : List Action) : Program where
  events := [⟨"A\"\n", "é", levels.repeat (fun inner ↦ [.loop "\\" inner]) body⟩]
  globals := []
  procedures := []
  components := []
  diagnostics := [⟨18446744073709551615, "\t"⟩]

private theorem depth_loops (levels : Nat) (body : List Action) :
    (loops levels body).toValue.depth =
      4 + 2 * levels + depthOfItems (Action.bodyValues body) := by
  have hrepeat : depthOfItems (Action.bodyValues
      (levels.repeat (fun inner ↦ [.loop "\\" inner]) body)) =
        2 * levels + depthOfItems (Action.bodyValues body) := by
    induction levels with
    | zero => simp [Nat.repeat]
    | succ levels ih =>
      simp only [Nat.repeat, Action.bodyValues, Action.toValue, depthOfItems, depth,
        depthOfMembers, ih]
      omega
  simp only [loops, toValue, Event.toValue, Diagnostic.toValue, textsValue, List.map_cons,
    List.map_nil, depth, depthOfMembers, depthOfItems, hrepeat]
  omega

/-- An action inside 61 loops is still read back, and an empty body inside one more is too deep. -/
theorem load_written_loops :
    (∀ d ∈ (loops 61 [.assign "x" "y"]).diagnostics, d.line < Nat.pow 2 64) ∧
      load (loops 61 [.assign "x" "y"]).written = .ok (loops 61 [.assign "x" "y"]) ∧
      load (loops 62 []).written = .error (.document (.fault .malformed)) := by
  have hline (levels : Nat) (body : List Action) :
      ∀ d ∈ (loops levels body).diagnostics, d.line < Nat.pow 2 64 := by
    intro d hd
    rw [List.mem_singleton.mp hd]
    decide
  refine ⟨hline 61 _, ?_, ?_⟩
  · rw [load_written _ (hline 61 _), nesting_written (hline 61 _), depth_loops, if_pos (by decide)]
  · rw [load_written _ (hline 62 _), nesting_written (hline 62 _), depth_loops, if_neg (by decide)]

end Program

end Blockwright.Script
