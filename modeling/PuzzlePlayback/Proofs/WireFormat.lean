import PuzzlePlayback.Format.World
import PuzzlePlayback.Proofs.ReadingBack

/-!
# The wire format loses nothing

Writing an action or a world state as a JSON value and reading it back gives it again, exactly if
all of its numbers are finite: a number that is not is written as null, and null is no number.

Each kind of value has one lemma, and each mode one for its record; it is written in the order in
which it is read. The fields of a mode stand in one object with `mode`, and those of a command with
`id` and `type`.

An action is the exception. A distance that is not finite is read as no distance, so `Action` has an
equivalence in place of a `ReadsBack`. An action whose type no command has is read as one that does
nothing, and keeps its block (`Command.ofFields?_unrecognised`).

Main result: `written_reads_back`.
-/

namespace PuzzlePlayback

open Json

/-! ## Finite numbers -/

mutual

/-- Are all numbers in a value finite? -/
def Value.isFinite : Value → Bool
  | .number n => n.isFinite
  | .text _ => true
  | .list items => Value.areFinite items

def Value.areFinite : List Value → Bool
  | [] => true
  | item :: items => item.isFinite && Value.areFinite items

end

def Command.isFinite : Command → Bool
  | .move dist => dist.all Float.isFinite
  | .turn angle => angle.isFinite
  | .set _ val => val.isFinite
  | _ => true

def Stroke.isFinite (stroke : Stroke) : Bool :=
  stroke.x1.isFinite && stroke.y1.isFinite && stroke.x2.isFinite && stroke.y2.isFinite

def Turtle.isFinite (turtle : Turtle) : Bool :=
  turtle.x.isFinite && turtle.y.isFinite && turtle.dir.isFinite &&
    turtle.strokes.all Stroke.isFinite

def Memory.isFinite (memory : Memory) : Bool :=
  memory.bindings.entries.all fun entry => entry.2.isFinite

/-- Are all numbers in a world state finite? A maze and an equation have none that is not. -/
def World.isFinite : World → Bool
  | .turtle t => t.isFinite
  | .math memory => memory.isFinite
  | _ => true

/-! ## Values and signs -/

mutual

theorem Value.readsBack (v : Value) :
    Value.ofJson? v.toJson = if v.isFinite then some v else none := by
  cases v with
  | number n =>
    rw [Value.toJson, Value.isFinite, ofFloat]
    cases n.isFinite <;> rfl
  | text s => rfl
  | list items =>
    rw [Value.toJson, Value.isFinite, Value.ofJson?, Value.readsBackAll items]
    cases Value.areFinite items <;> rfl

theorem Value.readsBackAll (items : List Value) :
    Value.ofJsonAll? (Value.toJsonAll items) =
      if Value.areFinite items then some items else none := by
  cases items with
  | nil => rfl
  | cons item items =>
    rw [Value.toJsonAll, Value.areFinite, Value.ofJsonAll?, Value.readsBack item,
      Value.readsBackAll items]
    cases item.isFinite <;> cases Value.areFinite items <;> rfl

end

mutual

theorem Value.isReadable_toJson (v : Value) : v.toJson.isReadable = true := by
  cases v with
  | number n => exact isReadable_ofFloat n
  | text s => rfl
  | list items =>
    rw [Value.toJson, isReadable]
    exact Value.itemsReadable_toJsonAll items

theorem Value.itemsReadable_toJsonAll (items : List Value) :
    itemsReadable (Value.toJsonAll items) = true := by
  cases items with
  | nil => rfl
  | cons item items =>
    rw [Value.toJsonAll, itemsReadable, Value.isReadable_toJson item,
      Value.itemsReadable_toJsonAll items, Bool.and_self]

end

theorem Pen.readsBack :
    ReadsBack (fun pen : Pen => .string pen.name) Pen.ofJson? fun _ => true := by
  intro pen
  cases pen <;> rfl

theorem Operator.readsBack :
    ReadsBack (fun op : Operator => .string op.symbol) Operator.ofJson? fun _ => true := by
  intro op
  cases op <;> rfl

theorem Relation.readsBack :
    ReadsBack (fun r : Relation => .string r.symbol) Relation.ofJson? fun _ => true := by
  intro r
  cases r <;> rfl

/-! ## Records -/

theorem Robot.readsBack : RecordReadsBack Robot.toFields Robot.ofJson? fun _ => true := by
  intro robot whole hnodup hfields
  have hslots : (Json.object whole).slots ["x", "y", "dir"] =
      some [some (.int robot.x.toInt), some (.int robot.y.toInt), some (.int robot.dir.toInt)] :=
    slots_of_fields hnodup hfields
  simp [Robot.ofJson?, hslots, required, readsBack_int32 _]

theorem Stroke.readsBack : ReadsBack Stroke.toJson Stroke.ofJson? Stroke.isFinite := by
  intro stroke
  have hslots : (Stroke.toJson stroke).slots ["x1", "y1", "x2", "y2", "color"] =
      some [some (ofFloat stroke.x1), some (ofFloat stroke.y1), some (ofFloat stroke.x2),
        some (ofFloat stroke.y2), some (.string stroke.color)] := rfl
  simp [Stroke.ofJson?, hslots, required, readsBack_float _, readsBack_string _, bind_fits,
    Stroke.isFinite, ite_and]

theorem Turtle.readsBack : RecordReadsBack Turtle.toFields Turtle.ofJson? Turtle.isFinite := by
  intro turtle whole hnodup hfields
  have hslots : (Json.object whole).slots ["x", "y", "dir", "penDown", "color", "lines"] =
      some [some (ofFloat turtle.x), some (ofFloat turtle.y), some (ofFloat turtle.dir),
        some (.bool turtle.penDown), some (.string turtle.color),
        some (ofList Stroke.toJson turtle.strokes)] :=
    slots_of_fields hnodup hfields
  simp only [Turtle.ofJson?, hslots, Option.bind_eq_bind, required, Option.bind_some,
    readsBack_float _, readsBack_bool _, readsBack_string _, Stroke.readsBack.list _, bind_fits,
    Option.pure_def, if_true]
  simp only [Turtle.isFinite, Bool.and_eq_true, ite_and]

/-- The variables are written in the order of their names. -/
theorem bindings_readsBack : ReadsBack (α := SortedMap String Value)
    (fun bindings => .object (bindings.entries.map fun entry => (entry.1, entry.2.toJson)))
    bindingsOfJson? fun bindings => bindings.entries.all fun entry => entry.2.isFinite := by
  intro bindings
  have hentry : ∀ entry : String × Value,
      (do return (entry.1, ← Value.ofJson? entry.2.toJson)) =
        if entry.2.isFinite then some entry else none := fun entry => by
    rw [Value.readsBack entry.2]
    cases entry.2.isFinite <;> rfl
  rw [bindingsOfJson?, mapM_fits hentry, Option.bind_eq_bind, bind_fits, Option.pure_def,
    SortedMap.ofList_entries]

theorem Memory.readsBack : RecordReadsBack Memory.toFields Memory.ofJson? Memory.isFinite := by
  intro memory whole hnodup hfields
  have hslots : (Json.object whole).slots ["variables", "logs"] =
      some [some (.object (memory.bindings.entries.map fun entry => (entry.1, entry.2.toJson))),
        some (ofList .string memory.console)] :=
    slots_of_fields hnodup hfields
  have hconsole : asList? asString? (ofList .string memory.console) = some memory.console := by
    simpa using readsBack_string.list memory.console
  simp only [Memory.ofJson?, hslots, Option.bind_eq_bind, required, Option.bind_some,
    bindings_readsBack _, hconsole, bind_fits, Option.pure_def]
  rfl

theorem EquationLine.readsBack :
    ReadsBack EquationLine.toJson EquationLine.ofJson? fun _ => true := by
  intro line
  have hslots : line.toJson.slots ["lhs", "sign", "rhs"] =
      some [some (.string line.lhs), some (.string line.sign.symbol), some (.string line.rhs)] :=
    rfl
  simp [EquationLine.ofJson?, hslots, required, readsBack_string _, Relation.readsBack _]

theorem Operation.readsBack : ReadsBack Operation.toJson Operation.ofJson? fun _ => true := by
  intro op
  have hslots : op.toJson.slots ["operator", "value", "applied"] =
      some [some (.string op.operator.symbol), some (.string op.value), some (.bool op.applied)] :=
    rfl
  simp [Operation.ofJson?, hslots, required, readsBack_string _, readsBack_bool _,
    Operator.readsBack _]

theorem Check.readsBack : ReadsBack Check.toJson Check.ofJson? fun _ => true := by
  intro check
  have hslots : check.toJson.slots ["value", "lhs", "rhs", "holds"] =
      some [some (.string check.value), some (.string check.lhs), some (.string check.rhs),
        some (.bool check.agree)] :=
    rfl
  simp [Check.ofJson?, hslots, required, readsBack_string _, readsBack_bool _]

theorem Equation.readsBack :
    RecordReadsBack Equation.toFields Equation.ofJson? fun _ => true := by
  intro equation whole hnodup hfields
  have hslots : (Json.object whole).slots
      ["lhs", "rhs", "sign", "implicit", "history", "lastOp", "verification"] =
      some [some (.string equation.lhs), some (.string equation.rhs),
        some (.string equation.sign.symbol), some (.bool equation.implicit),
        some (ofList EquationLine.toJson equation.history),
        some (ofOption Operation.toJson equation.latest),
        some (ofOption Check.toJson equation.check)] :=
    slots_of_fields hnodup hfields
  have hhistory : asList? EquationLine.ofJson? (ofList EquationLine.toJson equation.history) =
      some equation.history := by
    simpa using EquationLine.readsBack.list equation.history
  have hlatest : asOption? Operation.ofJson? (ofOption Operation.toJson equation.latest) =
      some equation.latest := by
    simpa using Operation.readsBack.option (fun _ => Json.noConfusion) equation.latest
  have hcheck : asOption? Check.ofJson? (ofOption Check.toJson equation.check) =
      some equation.check := by
    simpa using Check.readsBack.option (fun _ => Json.noConfusion) equation.check
  simp [Equation.ofJson?, hslots, required, readsBack_string _, readsBack_bool _,
    Relation.readsBack _, hhistory, Json.optional, defaulted, hlatest, hcheck]

/-! ## World states -/

theorem Stroke.isReadable_toJson (stroke : Stroke) : stroke.toJson.isReadable = true := by
  simp only [Stroke.toJson, isReadable, fieldsReadable, isReadable_ofFloat, Bool.and_self]

theorem Memory.fieldsReadable_toFields (memory : Memory) :
    fieldsReadable memory.toFields = true := by
  have hbindings : ∀ entries : List (String × Value),
      fieldsReadable (entries.map fun entry => (entry.1, entry.2.toJson)) = true := by
    intro entries
    induction entries with
    | nil => rfl
    | cons entry rest ih =>
      rw [List.map_cons, fieldsReadable, Value.isReadable_toJson, ih, Bool.and_self]
  have hconsole : (ofList .string memory.console).isReadable = true :=
    isReadable_ofList (fun _ => rfl) memory.console
  simp only [Memory.toFields, fieldsReadable, isReadable, hbindings, hconsole, Bool.and_self]

theorem World.fieldsReadable_toFields (world : World) :
    fieldsReadable world.toFields = true := by
  cases world with
  | maze robot => rfl
  | turtle t =>
    simp only [World.toFields, Turtle.toFields, fieldsReadable, isReadable, isReadable_ofFloat,
      isReadable_ofList Stroke.isReadable_toJson, Bool.and_self]
  | math memory => exact Memory.fieldsReadable_toFields memory
  | equation e =>
    have hhistory : (ofList EquationLine.toJson e.history).isReadable = true :=
      isReadable_ofList (fun _ => rfl) e.history
    have hlatest : (ofOption Operation.toJson e.latest).isReadable = true :=
      isReadable_ofOption (fun _ => rfl) e.latest
    have hcheck : (ofOption Check.toJson e.check).isReadable = true :=
      isReadable_ofOption (fun _ => rfl) e.check
    simp only [World.toFields, Equation.toFields, fieldsReadable, isReadable, hhistory, hlatest,
      hcheck, Bool.and_self]

/-- The names are `mode` and those of the mode. -/
theorem World.fields_nodup (world : World) :
    ((("mode", Json.string world.mode.name) :: world.toFields).map Prod.fst).Nodup := by
  cases world with
  | maze _ => exact (by decide : ["mode", "x", "y", "dir"].Nodup)
  | turtle _ =>
    exact (by decide : ["mode", "x", "y", "dir", "penDown", "color", "lines"].Nodup)
  | math _ => exact (by decide : ["mode", "variables", "logs"].Nodup)
  | equation _ =>
    exact (by decide : ["mode", "lhs", "rhs", "sign", "implicit", "history", "lastOp",
      "verification"].Nodup)

theorem World.readsBack : ReadsBack World.toJson World.ofJson? World.isFinite := by
  intro world
  have hnodup := world.fields_nodup
  have hmode := uniqueField_of_mem hnodup List.mem_cons_self
  have hreadable : fieldsReadable (("mode", .string world.mode.name) :: world.toFields) = true :=
    world.fieldsReadable_toFields
  have hrest := List.subset_cons_self ("mode", Json.string world.mode.name) world.toFields
  rw [World.toJson, World.ofJson?, hreadable, hmode]
  cases world with
  | maze robot =>
    show (Robot.ofJson? _).map World.maze = _
    rw [Robot.readsBack robot _ hnodup hrest]
    rfl
  | turtle t =>
    show (Turtle.ofJson? _).map World.turtle = _
    rw [Turtle.readsBack t _ hnodup hrest, World.isFinite]
    cases t.isFinite <;> rfl
  | math memory =>
    show (Memory.ofJson? _).map World.math = _
    rw [Memory.readsBack memory _ hnodup hrest, World.isFinite]
    cases memory.isFinite <;> rfl
  | equation e =>
    show (Equation.ofJson? _).map World.equation = _
    rw [Equation.readsBack e _ hnodup hrest]
    rfl

/-! ## Actions -/

theorem Command.fieldsReadable_toFields (command : Command) :
    fieldsReadable command.toFields = true := by
  cases command with
  | move dist =>
    cases dist with
    | none => rfl
    | some d =>
      simp only [toFields, optionalField, fieldsReadable, isReadable_ofFloat, Bool.and_self]
  | turn angle => simp only [toFields, fieldsReadable, isReadable_ofFloat, Bool.and_self]
  | set var val =>
    simp only [toFields, fieldsReadable, isReadable, Value.isReadable_toJson, Bool.and_self]
  | _ => rfl

/-- No command has a field `id` or `type`. -/
theorem Command.fields_nodup (command : Command) :
    ("id" :: "type" :: command.toFields.map Prod.fst).Nodup := by
  cases command with
  | move dist => cases dist <;> simp [toFields, optionalField]
  | _ => simp [toFields]

/-- A distance that is not finite is written as null, and null is read as no distance. -/
theorem Command.readsBack (command : Command) {whole : List (String × Json)}
    (hnodup : (whole.map Prod.fst).Nodup) (hfields : command.toFields ⊆ whole)
    (hdist : command = .move none → "dist" ∉ whole.map Prod.fst) :
    Command.ofFields? command.name whole = some command ↔ command.isFinite = true := by
  cases command with
  | move dist =>
    show (uniqueField whole "dist").bind (fun dist => (Json.optional asFloat? dist).map move) =
      some (move dist) ↔ _
    cases dist with
    | none =>
      rw [uniqueField_of_not_mem (hdist rfl)]
      exact iff_of_true rfl rfl
    | some d =>
      rw [uniqueField_of_mem hnodup (hfields List.mem_cons_self)]
      show (asOption? asFloat? (ofFloat d)).map move = some (move (some d)) ↔ d.isFinite = true
      unfold ofFloat
      cases d.isFinite <;> simp [asOption?, asFloat?]
  | turn angle =>
    show ((uniqueField whole "angle").bind (required asFloat?)).map turn = some (turn angle) ↔
      angle.isFinite = true
    rw [required_of_mem hnodup (hfields List.mem_cons_self), readsBack_float angle]
    cases angle.isFinite <;> simp
  | pen state =>
    show ((uniqueField whole "state").bind (required Pen.ofJson?)).map pen = some (pen state) ↔ _
    rw [required_of_mem hnodup (hfields List.mem_cons_self), Pen.readsBack state]
    exact iff_of_true rfl rfl
  | color c =>
    show ((uniqueField whole "color").bind (required asString?)).map color = some (color c) ↔ _
    rw [required_of_mem hnodup (hfields List.mem_cons_self)]
    exact iff_of_true rfl rfl
  | set var val =>
    show (do return set (← (uniqueField whole "var").bind (required asString?))
                        (← (uniqueField whole "val").bind (required Value.ofJson?))) =
      some (set var val) ↔ val.isFinite = true
    rw [required_of_mem hnodup (hfields List.mem_cons_self),
      required_of_mem hnodup (hfields (List.mem_cons_of_mem _ List.mem_cons_self)),
      Value.readsBack val]
    cases val.isFinite <;> simp [asString?]
  | print msg =>
    show ((uniqueField whole "msg").bind (required asString?)).map print = some (print msg) ↔ _
    rw [required_of_mem hnodup (hfields List.mem_cons_self)]
    exact iff_of_true rfl rfl
  | bothSides operator value =>
    show (do return bothSides (← (uniqueField whole "operator").bind (required Operator.ofJson?))
                              (← (uniqueField whole "value").bind (required asString?))) =
      some (bothSides operator value) ↔ _
    rw [required_of_mem hnodup (hfields List.mem_cons_self),
      required_of_mem hnodup (hfields (List.mem_cons_of_mem _ List.mem_cons_self)),
      Operator.readsBack operator]
    exact iff_of_true rfl rfl
  | _ => exact iff_of_true rfl rfl

/-- The fields of an action. -/
def Action.toFields (action : Action) : List (String × Json) :=
  optionalField "id" .string action.id ++
    ("type", .string action.command.name) :: action.command.toFields

theorem Action.fields_nodup (action : Action) : (action.toFields.map Prod.fst).Nodup := by
  have hcommand := action.command.fields_nodup
  unfold toFields
  cases action.id with
  | none => exact hcommand.of_cons
  | some id => exact hcommand

theorem Action.fieldsReadable_toFields (action : Action) :
    fieldsReadable action.toFields = true := by
  have hcommand : fieldsReadable (("type", .string action.command.name) ::
      action.command.toFields) = true :=
    action.command.fieldsReadable_toFields
  rw [toFields, fieldsReadable_append, hcommand]
  cases action.id <;> rfl

theorem Action.optional_id (action : Action) :
    (uniqueField action.toFields "id").bind (Json.optional asString?) = some action.id := by
  obtain ⟨id, command⟩ := action
  cases id with
  | none =>
    have habsent : "id" ∉ (toFields ⟨none, command⟩).map Prod.fst :=
      (List.nodup_cons.1 command.fields_nodup).1
    rw [uniqueField_of_not_mem habsent]
    rfl
  | some id =>
    rw [uniqueField_of_mem (fields_nodup ⟨some id, command⟩) List.mem_cons_self]
    rfl

/-- An object is read as the command that its type names, with the block it came from. -/
theorem Action.ofJson?_object {fields : List (String × Json)} {id : Option String} {name : String}
    (hreadable : fieldsReadable fields = true)
    (hid : (uniqueField fields "id").bind (Json.optional asString?) = some id)
    (htype : (uniqueField fields "type").bind (required Command.nameOfTag?) = some name) :
    Action.ofJson? (.object fields) = (Command.ofFields? name fields).map (Action.mk id) := by
  obtain ⟨slot, hslot, hslotId⟩ := Option.bind_eq_some_iff.1 hid
  obtain ⟨tag, htag, htagName⟩ := Option.bind_eq_some_iff.1 htype
  simp only [Action.ofJson?, hreadable, hslot, hslotId, htag, htagName, Option.bind_eq_bind,
    Option.bind_some, Option.pure_def, Option.map_eq_bind]
  rfl

theorem Action.readsBack (action : Action) :
    Action.ofJson? action.toJson = some action ↔ action.command.isFinite = true := by
  have hfields : ("type", .string action.command.name) :: action.command.toFields ⊆
      action.toFields := List.subset_append_right _ _
  have htype : (uniqueField action.toFields "type").bind (required Command.nameOfTag?) =
      some action.command.name :=
    required_of_mem action.fields_nodup (hfields List.mem_cons_self)
  have hdist : action.command = .move none → "dist" ∉ action.toFields.map Prod.fst := by
    obtain ⟨id, command⟩ := action
    rintro rfl
    cases id <;> simp [toFields, optionalField, Command.toFields, Command.name]
  have hcommand := Command.readsBack action.command action.fields_nodup
    (List.subset_of_cons_subset hfields) hdist
  show Action.ofJson? (.object action.toFields) = some action ↔ _
  rw [Action.ofJson?_object action.fieldsReadable_toFields action.optional_id htype, ← hcommand]
  exact (Option.map_injective fun _ _ h => (Action.mk.inj h).2).eq_iff (b := some action.command)

/-- No command but `unknown` has this name. -/
def Command.Unrecognised (name : String) : Prop :=
  ∀ command : Command, command.name = name → command = .unknown

/-- A type that no command has is read as the command that does nothing. -/
theorem Command.ofFields?_unrecognised {name : String} (h : Command.Unrecognised name)
    (fields : List (String × Json)) : Command.ofFields? name fields = some .unknown := by
  unfold ofFields?
  split
  · exact absurd (h (.move none) rfl) nofun
  · exact absurd (h .turnLeft rfl) nofun
  · exact absurd (h .turnRight rfl) nofun
  · exact absurd (h (.turn 0) rfl) nofun
  · exact absurd (h (.pen .up) rfl) nofun
  · exact absurd (h (.color "") rfl) nofun
  · exact absurd (h (.set "" (.text "")) rfl) nofun
  · exact absurd (h (.print "") rfl) nofun
  · exact absurd (h (.bothSides .add "") rfl) nofun
  · exact absurd (h .scan rfl) nofun
  · rfl

/-! ## The formats -/

/-- Every action and every world state is read back from its JSON form exactly if all of its
numbers are finite, and an action of an unrecognised type as one that does nothing, with the block
it came from. -/
theorem written_reads_back :
    (∀ action : Action,
      Action.ofJson? action.toJson = some action ↔ action.command.isFinite = true) ∧
    (∀ world : World,
      World.ofJson? world.toJson = if world.isFinite then some world else none) ∧
    ∀ (fields : List (String × Json)) (id : Option String) (name : String),
      fieldsReadable fields = true →
      (uniqueField fields "id").bind (Json.optional asString?) = some id →
      (uniqueField fields "type").bind (required Command.nameOfTag?) = some name →
      Command.Unrecognised name →
      Action.ofJson? (.object fields) = some ⟨id, .unknown⟩ := by
  refine ⟨Action.readsBack, World.readsBack, fun fields id name hreadable hid htype hname => ?_⟩
  rw [Action.ofJson?_object hreadable hid htype, Command.ofFields?_unrecognised hname,
    Option.map_some]

theorem written_reads_back_teleport :
    let assignment : Action := ⟨some "b1", .set "x" (.list [.number 1.5, .list [.text "a"]])⟩
    let state : World := .turtle ⟨0, 2, -90, true, "red", [⟨0, 0, 0, 2, "red"⟩]⟩
    Action.ofJson? assignment.toJson = some assignment ∧
    World.ofJson? state.toJson = some state ∧
    Command.Unrecognised "TELEPORT" ∧
    Action.ofJson? (.object [("type", .string "TELEPORT"), ("id", .string "b9")]) =
      some ⟨some "b9", .unknown⟩ := by
  intro assignment state
  have hteleport : Command.Unrecognised "TELEPORT" := by
    intro command h
    cases command <;> simp [Command.name] at h
  have hfinite : state.isFinite = true := by decide +kernel
  refine ⟨(written_reads_back.1 assignment).2 (by decide +kernel), ?_, hteleport,
    written_reads_back.2.2 _ _ "TELEPORT" rfl rfl rfl hteleport⟩
  rw [written_reads_back.2.1 state, if_pos hfinite]

end PuzzlePlayback
