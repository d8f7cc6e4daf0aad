import Blockwright.Proofs.Steps

/-!
# What is reported when blocks are made

Every action of a program has an address: the procedure or handler it belongs to and, step by step,
the bodies it lies in. An action that lacks a name is reported if no action around it lacks one,
with the number of actions around it. The reports come in the order of the addresses, where
procedures precede handlers and an alternative precedes the branch beside it.
-/

namespace Blockwright

open Script

/-! ### Places -/

namespace Script

/-- The two bodies that an action may hold. -/
inductive Wing where
  | otherwise
  | body
  deriving DecidableEq, Repr

/-- The actions in one of the bodies of an action. -/
def Action.wing : Wing → Action → List Action
  | .otherwise, branch _ _ otherwise => otherwise
  | .body, branch _ body _ => body
  | .body, loop _ body => body
  | .body, forEach _ _ body => body
  | _, _ => []

/-- An action with the actions that it lies in, the outermost one first. -/
structure Occurrence where
  around : List Action
  action : Action
  deriving DecidableEq, Repr

/-- Where an action stands in a body: it is the first action, lies in a body of the first one, or
stands among the later ones. -/
inductive Spot where
  | here
  | inside (wing : Wing) (spot : Spot)
  | later (spot : Spot)
  deriving DecidableEq, Repr

/-- Whether a spot is that of the first action or lies in it. -/
def Spot.isFirst : Spot → Bool
  | later _ => false
  | _ => true

/-- The action at a spot of a body. -/
def Spot.find? : Spot → List Action → Option Occurrence
  | _, [] => none
  | here, action :: _ => some ⟨[], action⟩
  | inside wing spot, action :: _ =>
    (spot.find? (action.wing wing)).map (fun found ↦ ⟨action :: found.around, found.action⟩)
  | later spot, _ :: actions => spot.find? actions

private theorem Action.kind_of_wing_ne_nil (wing : Wing) {action : Action}
    (h : action.wing wing ≠ []) :
    action.kind ∈ [ActionKind.branch, .loop, .forEach] := by
  cases action with
  | branch | loop | forEach => simp [kind]
  | _ => cases wing <;> exact absurd rfl h

/-- Every action around a spot is a control structure. -/
theorem Spot.kind_of_mem_around {spot : Spot} {actions : List Action} {found : Occurrence}
    (h : spot.find? actions = some found) :
    ∀ other ∈ found.around, other.kind ∈ [ActionKind.branch, .loop, .forEach] := by
  induction spot generalizing actions found with
  | here =>
    cases actions with
    | nil => cases h
    | cons action actions =>
      cases h
      exact List.forall_mem_nil _
  | inside wing spot ih =>
    cases actions with
    | nil => cases h
    | cons action actions =>
      obtain ⟨inner, hi, rfl⟩ := Option.map_eq_some_iff.mp h
      refine List.forall_mem_cons.mpr ⟨Action.kind_of_wing_ne_nil wing ?_, ih hi⟩
      intro he
      rw [he] at hi
      cases spot <;> cases hi
  | later spot ih =>
    cases actions with
    | nil => cases h
    | cons action actions => exact ih h

/-- The order of the spots of a body. An action precedes those that lie in it, these precede the
later actions, and the actions of an alternative precede those of the branch beside it. -/
inductive Spot.Before : Spot → Spot → Prop where
  | here_inside {wing : Wing} {spot : Spot} : Before here (inside wing spot)
  | here_later {spot : Spot} : Before here (later spot)
  | inside_later {wing : Wing} {first second : Spot} : Before (inside wing first) (later second)
  | wings {first second : Spot} : Before (inside .otherwise first) (inside .body second)
  | inside {wing : Wing} {first second : Spot} (before : Before first second) :
    Before (inside wing first) (inside wing second)
  | later {first second : Spot} (before : Before first second) :
    Before (later first) (later second)

/-- Where an action stands in a program: in which of the roots of a sort, and where in its body. -/
structure Address where
  kind : RootKind
  index : Nat
  spot : Spot
  deriving DecidableEq, Repr

/-- The order of addresses: procedures precede handlers, and roots of one sort are in order. -/
inductive Address.Before : Address → Address → Prop where
  | kinds {i j : Nat} {s t : Spot} : Before ⟨.procedure, i, s⟩ ⟨.event, j, t⟩
  | roots {kind : RootKind} {i j : Nat} {s t : Spot} (lt : i < j) : Before ⟨kind, i, s⟩ ⟨kind, j, t⟩
  | spots {kind : RootKind} {i : Nat} {s t : Spot} (before : s.Before t) :
    Before ⟨kind, i, s⟩ ⟨kind, i, t⟩

namespace Program

/-- The bodies of the roots of a sort. -/
def bodiesOf (p : Program) : RootKind → List (List Action)
  | .procedure => p.procedures.map Procedure.actions
  | .event => p.events.map Event.actions

/-- The bodies of a program are those of its procedures and then those of its handlers. -/
theorem bodies_eq (p : Program) : p.bodies = p.bodiesOf .procedure ++ p.bodiesOf .event := rfl

/-- The action at an address of a program. -/
def find? (p : Program) (address : Address) : Option Occurrence :=
  (p.bodiesOf address.kind)[address.index]?.bind address.spot.find?

end Program

end Script

/-! ### Reports -/

/-- The report of an action in a body that is nested `depth` deep: what the first name that the
action lacks is called. An action inside one that lacks a name is not reported. -/
def Script.Occurrence.report? (depth : Nat) (o : Occurrence) : Option Warning :=
  if o.around.all (fun other ↦ other.missingName.isNone) then
    o.action.missingName.map (fun field ↦ ⟨o.action.kind, field, depth + o.around.length⟩)
  else none

namespace Script.Spot

/-- The report of the action at a spot of a body that is nested `depth` deep. -/
def report? (depth : Nat) (actions : List Action) (spot : Spot) : Option Warning :=
  (spot.find? actions).bind (Occurrence.report? depth)

variable {depth : Nat} {action : Action} {actions : List Action} {wing : Wing} {spot : Spot}

private theorem report?_nil : report? depth [] spot = none := by
  cases spot <;> rfl

private theorem report?_here : report? depth (action :: actions) here =
    action.missingName.map (fun field ↦ ⟨action.kind, field, depth⟩) := rfl

private theorem report?_later :
    report? depth (action :: actions) (later spot) = report? depth actions spot := rfl

private theorem report?_inside (h : action.missingName = none) :
    report? depth (action :: actions) (inside wing spot) =
      report? (depth + 1) (action.wing wing) spot := by
  rw [report?, find?, report?]
  cases spot.find? (action.wing wing) with
  | none => rfl
  | some found =>
    simp only [Option.map_some, Option.bind_some, Occurrence.report?, List.all_cons, h,
      Option.isNone_none, Bool.true_and, List.length_cons]
    rw [show depth + (found.around.length + 1) = depth + 1 + found.around.length by omega]

private theorem report?_inside_of_missing {field : String} (h : action.missingName = some field) :
    report? depth (action :: actions) (inside wing spot) = none := by
  rw [report?, find?]
  cases spot.find? (action.wing wing) with
  | none => rfl
  | some found => simp [Occurrence.report?, h]

end Script.Spot

/-- The report of the action at an address of a program. -/
def Script.Program.report? (p : Program) (address : Address) : Option Warning :=
  (p.find? address).bind (Occurrence.report? 1)

/-! ### Lists in order -/

/-- The values found in a region, in the order of the places where they are found: the places are
all those of the region where something is found, each once. -/
def Listed {α β : Type} (before : α → α → Prop) (found : α → Option β) (region : α → Prop)
    (values : List β) : Prop :=
  ∃ places : List α, places.Pairwise before ∧
    (∀ place, place ∈ places ↔ region place ∧ (found place).isSome) ∧
    places.map found = values.map some

namespace Listed

variable {α γ β : Type} {before : α → α → Prop} {found : α → Option β} {region other : α → Prop}
  {values further : List β}

private theorem nil (h : ∀ place, region place → found place = none) :
    Listed before found region [] := by
  refine ⟨[], .nil, fun place ↦ ?_, rfl⟩
  constructor
  · intro hm
    cases hm
  · rintro ⟨hr, hs⟩
    rw [h place hr] at hs
    cases hs

private theorem singleton (place : α) {value : β} (h : found place = some value) :
    Listed before found (· = place) [value] := by
  refine ⟨[place], List.pairwise_singleton _ _, fun other ↦ ?_, congrArg (fun item ↦ [item]) h⟩
  rw [List.mem_singleton]
  constructor
  · rintro rfl
    exact ⟨rfl, h ▸ rfl⟩
  · exact And.left

/-- Two regions of which one precedes the other. -/
theorem append (h : Listed before found region values) (h' : Listed before found other further)
    (hb : ∀ first second, region first → other second → before first second) :
    Listed before found (fun place ↦ region place ∨ other place) (values ++ further) := by
  obtain ⟨places, hordered, hmem, hvalues⟩ := h
  obtain ⟨places', hordered', hmem', hvalues'⟩ := h'
  refine ⟨places ++ places', ?_, fun place ↦ ?_, ?_⟩
  · rw [List.pairwise_append]
    refine ⟨hordered, hordered', fun first hfirst second hsecond ↦ ?_⟩
    exact hb first second ((hmem first).mp hfirst).1 ((hmem' second).mp hsecond).1
  · rw [List.mem_append, hmem, hmem', or_and_right]
  · rw [List.map_append, hvalues, hvalues', List.map_append]

private theorem map (h : Listed before found region values) (before' : γ → γ → Prop)
    (found' : γ → Option β) (see : α → γ)
    (hb : ∀ first second, before first second → before' (see first) (see second))
    (hf : ∀ place, found' (see place) = found place) :
    Listed before' found' (fun place ↦ ∃ seen, region seen ∧ see seen = place) values := by
  obtain ⟨places, hordered, hmem, hvalues⟩ := h
  refine ⟨places.map see, ?_, fun place ↦ ?_, ?_⟩
  · rw [List.pairwise_map]
    exact hordered.imp (hb _ _)
  · rw [List.mem_map]
    constructor
    · rintro ⟨seen, hseen, rfl⟩
      obtain ⟨hregion, hsome⟩ := (hmem seen).mp hseen
      exact ⟨⟨seen, hregion, rfl⟩, (hf seen).symm ▸ hsome⟩
    · rintro ⟨⟨seen, hregion, rfl⟩, hsome⟩
      rw [hf] at hsome
      exact ⟨seen, (hmem seen).mpr ⟨hregion, hsome⟩, rfl⟩
  · rw [List.map_map, ← hvalues]
    exact List.map_congr_left (fun place _ ↦ hf place)

private theorem congr (h : Listed before found region values)
    (hr : ∀ place, (found place).isSome → (region place ↔ other place)) :
    Listed before found other values := by
  obtain ⟨places, hordered, hmem, hvalues⟩ := h
  refine ⟨places, hordered, fun place ↦ ?_, hvalues⟩
  rw [hmem]
  exact and_congr_left (hr place)

end Listed

/-! ### Bodies -/

private theorem Script.Action.sizeOf_wing (wing : Wing) (action : Action) :
    sizeOf (action.wing wing) ≤ sizeOf action := by
  cases wing <;> cases action <;> simp [Action.wing] <;> omega

namespace Catalog

variable (c : Catalog) (p : Program)

/-- An action that lacks no name is not reported; what lies in its alternative is reported before
what lies in its body. -/
theorem warnings_of_complete (depth : Nat) {action : Action} (h : action.missingName = none) :
    (c.block p depth action).1 = (c.blocks p (depth + 1) (action.wing .otherwise)).1 ++
      (c.blocks p (depth + 1) (action.wing .body)).1 := by
  rw [block.eq_def, h]
  cases action <;> rfl

/-- The reports of the first action of a body, and of those in it, if the bodies that the action
holds are reported in order. -/
theorem listed_block (depth : Nat) (action : Action) (actions : List Action)
    (h : ∀ wing, Listed Spot.Before (Spot.report? (depth + 1) (action.wing wing)) (fun _ ↦ True)
      (c.blocks p (depth + 1) (action.wing wing)).1) :
    Listed Spot.Before (Spot.report? depth (action :: actions)) (fun spot ↦ spot.isFirst)
      (c.block p depth action).1 := by
  cases hm : action.missingName with
  | some field =>
    have hwarnings : (c.block p depth action).1 = [⟨action.kind, field, depth⟩] := by
      rw [block.eq_def, hm]
    rw [hwarnings]
    apply (Listed.singleton .here (by rw [Spot.report?_here, hm]; rfl)).congr
    intro spot hs
    cases spot with
    | here => simp [Spot.isFirst]
    | inside wing spot =>
      rw [Spot.report?_inside_of_missing hm] at hs
      cases hs
    | later spot => simp [Spot.isFirst]
  | none =>
    -- Both bodies are reported one level deeper, and the alternative comes first.
    have hwing (wing : Wing) := (h wing).map Spot.Before (Spot.report? depth (action :: actions))
      (Spot.inside wing) (fun _ _ ↦ .inside) (fun _ ↦ Spot.report?_inside hm)
    rw [c.warnings_of_complete p depth hm]
    apply ((hwing .otherwise).append (hwing .body) ?_).congr
    · intro spot hs
      cases spot with
      | here =>
        rw [Spot.report?_here, hm] at hs
        cases hs
      | inside wing spot => cases wing <;> simp [Spot.isFirst]
      | later spot => simp [Spot.isFirst]
    · rintro _ _ ⟨first, -, rfl⟩ ⟨second, -, rfl⟩
      exact .wings

private theorem listed_blocks (depth : Nat) (actions : List Action) :
    Listed Spot.Before (Spot.report? depth actions) (fun _ ↦ True)
      (c.blocks p depth actions).1 := by
  -- The bodies of the first action are no part of the list, but they are smaller than it.
  match actions with
  | [] => exact .nil (fun _ _ ↦ Spot.report?_nil)
  | action :: actions =>
    have hfirst := c.listed_block p depth action actions
      (fun wing ↦ listed_blocks (depth + 1) (action.wing wing))
    have hlater := (listed_blocks depth actions).map Spot.Before
      (Spot.report? depth (action :: actions)) Spot.later (fun _ _ ↦ .later)
      (fun _ ↦ Spot.report?_later)
    apply (hfirst.append hlater ?_).congr
    · intro spot _
      cases spot <;> simp [Spot.isFirst]
    · rintro first _ hf ⟨second, -, rfl⟩
      cases first with
      | here => exact .here_later
      | inside wing spot => exact .inside_later
      | later spot => cases hf
termination_by sizeOf actions
decreasing_by
  · have := action.sizeOf_wing wing
    simp only [List.cons.sizeOf_spec]
    omega
  · simp only [List.cons.sizeOf_spec]
    omega

private theorem listed_bodies (bodies : List (List Action)) :
    Listed (Prod.Lex Nat.lt Spot.Before)
      (fun place ↦ bodies[place.1]?.bind (fun body ↦ place.2.report? 1 body)) (fun _ ↦ True)
      (bodies.flatMap (fun body ↦ (c.blocks p 1 body).1)) := by
  induction bodies with
  | nil => exact .nil (fun _ _ ↦ rfl)
  | cons body bodies ih =>
    let found (place : Nat × Spot) : Option Warning :=
      (body :: bodies)[place.1]?.bind (fun body ↦ place.2.report? 1 body)
    have hfirst := (c.listed_blocks p 1 body).map (Prod.Lex Nat.lt Spot.Before) found
      (fun spot ↦ (0, spot)) (fun _ _ hb ↦ .right 0 hb) (fun _ ↦ rfl)
    have hlater := ih.map (Prod.Lex Nat.lt Spot.Before) found
      (fun place ↦ (place.1 + 1, place.2)) ?_ (fun _ ↦ rfl)
    · apply (hfirst.append hlater ?_).congr
      · rintro ⟨index, spot⟩ _
        cases index <;> simp
      · rintro _ _ ⟨first, -, rfl⟩ ⟨second, -, rfl⟩
        exact .left _ _ (Nat.zero_lt_succ _)
    · rintro _ _ hb
      cases hb with
      | left s t hlt => exact .left s t (Nat.succ_lt_succ hlt)
      | right i hb => exact .right (i + 1) hb

/-- The reports of the roots of a sort are those at their addresses, in order. -/
theorem listed_kind (kind : RootKind) :
    Listed Address.Before p.report? (fun address ↦ address.kind = kind)
      ((p.bodiesOf kind).flatMap (fun body ↦ (c.blocks p 1 body).1)) := by
  have hkind := (c.listed_bodies p (p.bodiesOf kind)).map Address.Before p.report?
    (fun place ↦ ⟨kind, place.1, place.2⟩) ?_ ?_
  · apply hkind.congr
    rintro ⟨other, index, spot⟩ _
    simp [eq_comm]
  · rintro _ _ hb
    cases hb with
    | left s t hlt => exact .roots hlt
    | right i hb => exact .spots hb
  · intro place
    rw [Program.report?, Program.find?, Option.bind_assoc]
    rfl

/-- Reports are exact. They are, in the order of the addresses, one for each address of an action
that lacks a name and lies in no action that lacks one; each tells the sort of the action, the first
name that it lacks, and one more than the number of control structures that it lies in. -/
theorem warnings_listed :
    (∃ addresses : List Address, addresses.Pairwise Address.Before ∧
      (∀ address, address ∈ addresses ↔ (p.report? address).isSome) ∧
      addresses.map p.report? = (c.canvas p).1.map some) ∧
    ∀ address found, p.find? address = some found →
      ∀ other ∈ found.around, other.kind ∈ [ActionKind.branch, .loop, .forEach] := by
  have hprocedures := c.listed_kind p .procedure
  have hevents := c.listed_kind p .event
  have hboth := hprocedures.append hevents ?_
  · rw [← List.flatMap_append, ← p.bodies_eq, ← warnings_canvas_eq] at hboth
    obtain ⟨addresses, hordered, hmem, hvalues⟩ := hboth
    refine ⟨⟨addresses, hordered, fun address ↦ ?_, hvalues⟩, ?_⟩
    · rw [hmem]
      cases address with
      | mk kind index spot => cases kind <;> simp
    · intro address found hf
      obtain ⟨body, -, hspot⟩ := Option.bind_eq_some_iff.mp hf
      exact Spot.kind_of_mem_around hspot
  · rintro ⟨_, i, s⟩ ⟨_, j, t⟩ rfl rfl
    exact .kinds

example :
    let action : Action := .branch "x" [.assign "" "1"] [.loop "" [.assign "" "2"], .define "" "3"]
    ((ofExtensions .builtIn []).canvas ⟨[⟨"A", "B", [action]⟩], [], [], [], []⟩).1 =
      [⟨.loop, "condition", 2⟩, ⟨.define, "variable", 2⟩, ⟨.assign, "variable", 2⟩] := by
  decide +kernel

end Catalog

end Blockwright
