import Blockwright.Proofs.Calls

/-!
# Slots of calls

A call of a procedure has a slot for every parameter of the procedure and, if it has more arguments
than that, a numbered slot for every further argument. Its arguments are its inputs, in order. A
parameter may be named like a numbered slot, and then two slots of a call have the same name though
all parameters have different ones.
-/

namespace Blockwright

open Script Markup Element

/-! ### Names of slots -/

namespace Script.Program

variable (p : Program) (name : String) (arguments : List String)

/-- The parameters of the first procedure of some name, or none if no procedure has the name. -/
def parametersOf : List String := ((p.procedure? name).map Procedure.parameters).getD []

private theorem slots_eq : p.slots name arguments = p.parametersOf name ++
    (List.range' (p.parametersOf name).length
      (arguments.length - (p.parametersOf name).length)).map (fun i ↦ "arg" ++ toString i) := by
  rw [slots, List.range_eq_range', List.drop_range', Nat.mul_one, Nat.zero_add]
  rfl

/-- There are as many slots as there are parameters or arguments, whichever are more. -/
theorem length_slots :
    (p.slots name arguments).length = max (p.parametersOf name).length arguments.length := by
  rw [slots_eq, List.length_append, List.length_map, List.length_range']
  omega

/-- The first slots are named as the parameters are. -/
theorem take_slots :
    (p.slots name arguments).take (p.parametersOf name).length = p.parametersOf name := by
  rw [slots_eq, List.take_left]

/-- The names of slots are all different exactly if those of the parameters are and no parameter is
named like the slot of a further argument. -/
theorem nodup_slots_iff : (p.slots name arguments).Nodup ↔ (p.parametersOf name).Nodup ∧
    ∀ i, (p.parametersOf name).length ≤ i → i < arguments.length →
      "arg" ++ toString i ∉ p.parametersOf name := by
  -- Numbered names differ among themselves, so only a parameter can clash with one of them.
  have hnumbered : Function.Injective (fun i : Nat ↦ "arg" ++ toString i) := by
    intro i j h
    exact Ordered.injective_toString ((String.append_right_inj "arg").mp h)
  rw [slots_eq, List.nodup_append', List.nodup_map_iff hnumbered, List.disjoint_right]
  constructor
  · rintro ⟨hparameters, -, hapart⟩
    refine ⟨hparameters, fun i hp ha ↦ hapart (List.mem_map_of_mem ?_)⟩
    rw [List.mem_range'_1]
    omega
  · rintro ⟨hparameters, hapart⟩
    refine ⟨hparameters, List.nodup_range', ?_⟩
    intro slot hslot
    obtain ⟨i, hi, rfl⟩ := List.mem_map.mp hslot
    rw [List.mem_range'_1] at hi
    exact hapart i hi.1 (by omega)

end Script.Program

/-! ### Slots of blocks -/

/-- The names of a block's slots in order, as its mutation lists them. -/
def Element.slotNames (e : Element) : List (Option String) :=
  (((e.children.find? isMutation).elim [] children).filter (fun child ↦ child.tag == "arg")).map
    (attribute? "name")

/-- A block that calls a procedure lists the slots that it is given. -/
theorem Block.slotNames_callProcedure (name : String) (slots : List String)
    (arguments : List Literal) (rest : List Element) :
    ((callProcedure name slots arguments).element rest).slotNames = slots.map some := by
  have hslots : (slots.map parameter).filter (fun child ↦ child.tag == "arg") =
      slots.map parameter := by
    rw [List.filter_eq_self, List.forall_mem_map]
    intro slot _
    rfl
  calc ((callProcedure name slots arguments).element rest).slotNames
    _ = ((slots.map parameter).filter (fun child ↦ child.tag == "arg")).map (attribute? "name") :=
      rfl
    _ = slots.map some := by rw [hslots, List.map_map]; rfl

namespace Catalog

variable (c : Catalog) (p : Program)

/-- Only a call of something that is no component is lowered to a call of a procedure. -/
theorem exists_call_of_lowers {action : Action} {e : Element} (h : c.Lowers p action e)
    (ht : e.blockType? = some "procedures_callnoreturn") :
    ∃ name arguments following, action = .call name name arguments ∧ name ∉ p.components ∧
      e = (c.callBlock p name name arguments).element (next following) := by
  obtain ⟨depth, made, following, hb, rfl⟩ := h
  rw [block.eq_def] at hb
  split at hb
  · cases hb
  · cases action with
    | call component method arguments =>
      cases hb
      by_cases hcall : p.callsProcedure (.call component method arguments)
      · obtain ⟨rfl, hc⟩ := Program.callsProcedure_call.mp hcall
        exact ⟨component, arguments, following, rfl, hc, rfl⟩
      · rw [callBlock, if_neg hcall] at ht
        exact absurd (Option.some.inj ht) (by decide)
    | define target value => cases hb
    | _ =>
      cases hb
      exact absurd (Option.some.inj ht) (by decide)

/-! ### Blocks and the actions that they are made from -/

mutual

private theorem exists_lowers_inner (depth : Nat) (action : Action) {made : Block} {e : Element}
    (hb : (c.block p depth action).2 = some made) (he : e ∈ made.inner) :
    ∃ other ∈ action.inside, c.Lowers p other e := by
  rw [block.eq_def] at hb
  split at hb
  · cases hb
  · cases action with
    | branch condition body otherwise =>
      cases hb
      rw [Action.inside]
      rcases List.mem_append.mp he with he | he
      · obtain ⟨other, ho, hlowers⟩ := exists_lowers_held (depth + 1) body he
        exact ⟨other, List.mem_append_left _ ho, hlowers⟩
      · obtain ⟨other, ho, hlowers⟩ := exists_lowers_held (depth + 1) otherwise he
        exact ⟨other, List.mem_append_right _ ho, hlowers⟩
    | loop condition body =>
      cases hb
      exact exists_lowers_held (depth + 1) body he
    | forEach item list body =>
      cases hb
      exact exists_lowers_held (depth + 1) body he
    | call component method arguments =>
      cases hb
      unfold callBlock at he
      dsimp only at he
      split at he <;> cases he
    | define target value => cases hb
    | setProperty | assign =>
      cases hb
      cases he

private theorem exists_lowers_held (depth : Nat) (actions : List Action) {e : Element}
    (he : e ∈ Block.held (c.blocks p depth actions).2) :
    ∃ action ∈ Action.within actions, c.Lowers p action e := by
  cases actions with
  | nil => cases he
  | cons action actions =>
    rw [blocks] at he
    dsimp only at he
    rw [Action.within]
    have hrest (he : e ∈ Block.held (c.blocks p depth actions).2) :
        ∃ other ∈ action :: (action.inside ++ Action.within actions), c.Lowers p other e := by
      obtain ⟨other, ho, hlowers⟩ := exists_lowers_held depth actions he
      exact ⟨other, List.mem_cons_of_mem _ (List.mem_append_right _ ho), hlowers⟩
    cases hb : (c.block p depth action).2 with
    | none =>
      -- An action that is left out takes the blocks inside it along.
      rw [hb] at he
      exact hrest he
    | some made =>
      rw [hb, Option.toList_some, List.singleton_append, Block.held_cons, List.mem_cons,
        List.mem_append] at he
      rcases he with rfl | he | he
      · exact ⟨action, List.mem_cons_self, depth, made, _, hb, rfl⟩
      · obtain ⟨other, ho, hlowers⟩ := exists_lowers_inner depth action hb he
        exact ⟨other, List.mem_cons_of_mem _ (List.mem_append_left _ ho), hlowers⟩
      · exact hrest he

end

/-- Every block in the bodies of a program's markup is made from an action of the program. -/
theorem exists_lowers {e : Element} (he : e ∈ (blocksDocument (c.canvas p).2).steps) :
    ∃ action ∈ p.actions, c.Lowers p action e := by
  rw [steps_canvas] at he
  obtain ⟨body, hbody, he⟩ := List.mem_flatMap.mp he
  obtain ⟨action, ha, hlowers⟩ := c.exists_lowers_held p 1 body he
  exact ⟨action, List.mem_flatMap_of_mem hbody ha, hlowers⟩

/-! ### Slots of calls -/

/-- Whatever the program, a block that calls a procedure has as many slots as the procedure has
parameters or the call has arguments, whichever are more. The first are named as the parameters are,
and the inputs are the arguments in order. The names of the slots are all different exactly if those
of the parameters are and no parameter is named like the slot of a further argument. The blocks in
bodies that call procedures are all made from calls of the program in this way. -/
theorem slots_exact :
    (∀ component method arguments e, c.Lowers p (.call component method arguments) e →
      e.blockType? = some "procedures_callnoreturn" →
      let parameters := p.parametersOf component
      component = method ∧ e.mutation? "name" = some component ∧
        e.slotNames.length = max parameters.length arguments.length ∧
        e.slotNames.take parameters.length = parameters.map some ∧
        (e.slotNames.Nodup ↔ parameters.Nodup ∧ ∀ i, parameters.length ≤ i →
          i < arguments.length → "arg" ++ toString i ∉ parameters) ∧
        e.inputs = c.argumentInputs arguments) ∧
    ∀ e ∈ (blocksDocument (c.canvas p).2).steps,
      e.blockType? = some "procedures_callnoreturn" →
      ∃ name arguments, .call name name arguments ∈ p.actions ∧
        c.Lowers p (.call name name arguments) e := by
  constructor
  · intro component method arguments e hlowers ht parameters
    obtain ⟨name, others, following, hcall, hc, rfl⟩ := c.exists_call_of_lowers p hlowers ht
    obtain ⟨rfl, rfl, rfl⟩ := Action.call.inj hcall
    have hinputs := c.inputs_callBlock p method method arguments following
    rw [callBlock, if_pos (Program.callsProcedure_call.mpr ⟨rfl, hc⟩)] at hinputs ⊢
    rw [Block.slotNames_callProcedure, List.length_map, ← List.map_take,
      List.nodup_map_iff (Option.some_injective _)]
    refine ⟨rfl, rfl, p.length_slots method arguments, ?_,
      p.nodup_slots_iff method arguments, hinputs⟩
    rw [p.take_slots method arguments]
  · intro e he ht
    obtain ⟨action, ha, hlowers⟩ := c.exists_lowers p he
    obtain ⟨name, arguments, -, rfl, -, -⟩ := c.exists_call_of_lowers p hlowers ht
    exact ⟨name, arguments, ha, hlowers⟩

/-- A call with two arguments more than the procedure has parameters. -/
theorem slots_exact_numbered :
    let p := Program.ofScript "define P(a)\n  set x to a\nwhen A.B\n  call P(1, 2, 3)\n"
    let c := Catalog.ofExtensions .builtIn []
    let e := (c.callBlock p "P" "P" ["1", "2", "3"]).element []
    (c.Lowers p (.call "P" "P" ["1", "2", "3"]) e ∧
      e.blockType? = some "procedures_callnoreturn") ∧
      e.slotNames.length = 3 ∧ e.slotNames.take 1 = [some "a"] ∧ e.slotNames.Nodup ∧
        e.inputs.map Prod.fst = [some "ARG0", some "ARG1", some "ARG2"] := by
  intro p c e
  have hlowers : c.Lowers p (.call "P" "P" ["1", "2", "3"]) e := ⟨1, _, [], rfl, rfl⟩
  have ht : e.blockType? = some "procedures_callnoreturn" := by decide +kernel
  have hparameters : p.parametersOf "P" = ["a"] := by decide +kernel
  obtain ⟨-, -, hlength, htake, hnodup, hinputs⟩ := (c.slots_exact p).1 _ _ _ e hlowers ht
  rw [hparameters] at hlength htake hnodup
  refine ⟨⟨hlowers, ht⟩, hlength, htake, hnodup.mpr ⟨by decide, ?_⟩, ?_⟩
  · intro i (hfirst : 1 ≤ i) (hlast : i < 3)
    have hi : i = 1 ∨ i = 2 := by omega
    rcases hi with rfl | rfl <;> decide
  · rw [hinputs]
    decide +kernel

/-- The only parameter of a procedure is named like the second slot, so a call with two arguments
has two slots of that name. -/
theorem slots_of_numbered_parameter :
    let p := Program.ofScript
      "define P(arg1)\n  set x to 1\nwhen Button1.Click\n  call P(1, 2)\n"
    let c := Catalog.ofExtensions .builtIn []
    (p.procedure? "P").map Procedure.parameters = some ["arg1"] ∧
      ∃ e ∈ (blocksDocument (c.canvas p).2).steps,
        e.blockType? = some "procedures_callnoreturn" ∧
          e.slotNames = [some "arg1", some "arg1"] ∧ ¬ e.slotNames.Nodup := by
  decide +kernel

end Catalog

end Blockwright
