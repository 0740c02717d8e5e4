import Rowflow.Pipeline.Definition
import Rowflow.Reading.Data

/-!
# Reading pipeline definitions

A record is read member by member in the order of the source; unknown members are passed over, a
member that is there twice is a fault, and the parts that must be there are asked for at the end, in
the order of their declaration. The same readers serve every source.
-/

namespace Rowflow.Reading

variable {α : Type} (s : Source α)

/-- Remembers a member, unless it has been read before. -/
def once {β : Type} (name : String) (old : Option β) (new : Result β) : Result (Option β) :=
  match old with
  | some _ => .error (.duplicateField name)
  | none => some <$> new

/-! ### Engine options -/

/-- The engine options that have been read; the outer option tells whether a member was there. -/
structure EngineDraft where
  rowSetSize : Option (Option UInt64) := none
  pollMillis : Option (Option UInt64) := none
  shutdownMillis : Option (Option UInt64) := none

/-- Reads one engine option. -/
def EngineDraft.read (d : EngineDraft) : String × α → Result EngineDraft
  | ("rowset_size", v) => do
    return { d with
      rowSetSize := ← once "rowset_size" d.rowSetSize (s.optional (s.word "usize") v) }
  | ("poll_interval_ms", v) => do
    return { d with
      pollMillis := ← once "poll_interval_ms" d.pollMillis (s.optional (s.word "u64") v) }
  | ("shutdown_timeout_ms", v) => do
    return { d with
      shutdownMillis :=
        ← once "shutdown_timeout_ms" d.shutdownMillis (s.optional (s.word "u64") v) }
  | _ => .ok d

/-- The parts of engine options. -/
def engineRecord : Record := ⟨"struct EngineOptions",
  ["rowset_size", "poll_interval_ms", "shutdown_timeout_ms"], 3⟩

/-- Engine options. -/
def readEngine (v : α) : Result EngineOptions := do
  let d ← (← s.record engineRecord v).foldlM (EngineDraft.read s) {}
  return ⟨d.rowSetSize.join, d.pollMillis.join, d.shutdownMillis.join⟩

/-! ### Error handling -/

/-- The parts of an error handling that have been read. -/
structure ErrorDraft where
  target : Option String := none
  maxErrors : Option (Option UInt64) := none
  countField : Option String := none
  descriptionField : Option String := none
  fieldsField : Option String := none
  codesField : Option String := none

/-- Reads one part of an error handling. -/
def ErrorDraft.read (d : ErrorDraft) : String × α → Result ErrorDraft
  | ("target", v) => do return { d with target := ← once "target" d.target (s.string v) }
  | ("max_errors", v) => do
    return { d with maxErrors := ← once "max_errors" d.maxErrors (s.optional (s.word "u64") v) }
  | ("nr_errors_field", v) => do
    return { d with countField := ← once "nr_errors_field" d.countField (s.string v) }
  | ("description_field", v) => do
    return { d with descriptionField := ← once "description_field" d.descriptionField (s.string v) }
  | ("fields_field", v) => do
    return { d with fieldsField := ← once "fields_field" d.fieldsField (s.string v) }
  | ("codes_field", v) => do
    return { d with codesField := ← once "codes_field" d.codesField (s.string v) }
  | _ => .ok d

/-- The parts of an error handling. -/
def errorRecord : Record := ⟨"struct ErrorHandlingConfig",
  ["target", "max_errors", "nr_errors_field", "description_field",
    "fields_field", "codes_field"], 1⟩

/-- An error handling. -/
def readErrorHandling (v : α) : Result ErrorHandling := do
  let d ← (← s.record errorRecord v).foldlM (ErrorDraft.read s) {}
  let base : ErrorHandling := { target := ← required "target" d.target }
  return { base with
    maxErrors := d.maxErrors.join
    countField := d.countField.getD base.countField
    descriptionField := d.descriptionField.getD base.descriptionField
    fieldsField := d.fieldsField.getD base.fieldsField
    codesField := d.codesField.getD base.codesField }

/-! ### Transforms -/

/-- A movement. -/
def readMovement (v : α) : Result Movement := do
  return if (← s.variant [Movement.copy.keyword, Movement.distribute.keyword] v) =
    Movement.copy.keyword then .copy else .distribute

/-- The options of a transform; of two with one name the later counts. -/
def readOptions (v : α) : Result (Table Yaml) := do
  let members ← s.members v
  return .ofList (← members.mapM fun (k, v) => do return (k, ← s.data v))

/-- The parts of a transform that have been read. -/
structure TransformDraft where
  id : Option String := none
  type : Option String := none
  copies : Option UInt64 := none
  movement : Option Movement := none
  inject : Option Bool := none
  errorHandling : Option (Option ErrorHandling) := none
  options : Option (Table Yaml) := none

/-- Reads one part of a transform. -/
def TransformDraft.read (d : TransformDraft) : String × α → Result TransformDraft
  | ("id", v) => do return { d with id := ← once "id" d.id (s.string v) }
  | ("type", v) => do return { d with type := ← once "type" d.type (s.string v) }
  | ("copies", v) => do return { d with copies := ← once "copies" d.copies (s.word "usize" v) }
  | ("data_movement", v) => do
    return { d with movement := ← once "data_movement" d.movement (readMovement s v) }
  | ("inject", v) => do return { d with inject := ← once "inject" d.inject (s.boolean v) }
  | ("error_handling", v) => do
    return { d with
      errorHandling :=
        ← once "error_handling" d.errorHandling (s.optional (readErrorHandling s) v) }
  | ("options", v) => do return { d with options := ← once "options" d.options (readOptions s v) }
  | _ => .ok d

/-- The parts of a transform. -/
def transformRecord : Record := ⟨"struct TransformConfig",
  ["id", "type", "copies", "data_movement", "inject", "error_handling", "options"], 2⟩

/-- A transform. -/
def readTransform (v : α) : Result TransformSpec := do
  let d ← (← s.record transformRecord v).foldlM (TransformDraft.read s) {}
  let base : TransformSpec := { id := ← required "id" d.id, type := ← required "type" d.type }
  return { base with
    copies := (d.copies.map UInt64.toNat).getD base.copies
    movement := d.movement.getD base.movement
    inject := d.inject.getD base.inject
    errorHandling := d.errorHandling.join
    options := d.options.getD base.options }

/-! ### Hops -/

/-- The parts of a hop that have been read. -/
structure HopDraft where
  origin : Option String := none
  target : Option String := none
  enabled : Option Bool := none

/-- Reads one part of a hop. -/
def HopDraft.read (d : HopDraft) : String × α → Result HopDraft
  | ("from", v) => do return { d with origin := ← once "from" d.origin (s.string v) }
  | ("to", v) => do return { d with target := ← once "to" d.target (s.string v) }
  | ("enabled", v) => do return { d with enabled := ← once "enabled" d.enabled (s.boolean v) }
  | _ => .ok d

/-- The parts of a hop. -/
def hopRecord : Record := ⟨"struct HopConfig", ["from", "to", "enabled"], 2⟩

/-- A hop. -/
def readHop (v : α) : Result Hop := do
  let d ← (← s.record hopRecord v).foldlM (HopDraft.read s) {}
  return ⟨← required "from" d.origin, ← required "to" d.target, d.enabled.getD true⟩

/-! ### Pipelines -/

/-- The parts of a pipeline that have been read. -/
structure PipelineDraft where
  name : Option String := none
  engine : Option EngineOptions := none
  transforms : Option (List TransformSpec) := none
  hops : Option (List Hop) := none

/-- Reads one part of a pipeline. -/
def PipelineDraft.read (d : PipelineDraft) : String × α → Result PipelineDraft
  | ("name", v) => do return { d with name := ← once "name" d.name (s.string v) }
  | ("engine", v) => do return { d with engine := ← once "engine" d.engine (readEngine s v) }
  | ("transforms", v) => do
    return { d with
      transforms := ← once "transforms" d.transforms do (← s.items v).mapM (readTransform s) }
  | ("hops", v) => do
    return { d with hops := ← once "hops" d.hops do (← s.items v).mapM (readHop s) }
  | _ => .ok d

/-- The parts of a pipeline. -/
def pipelineRecord : Record :=
  ⟨"struct PipelineConfig", ["name", "engine", "transforms", "hops"], 3⟩

/-- A pipeline. -/
def readPipeline (v : α) : Result Pipeline := do
  let d ← (← s.record pipelineRecord v).foldlM (PipelineDraft.read s) {}
  let base : Pipeline := { transforms := ← required "transforms" d.transforms }
  return { base with
    name := d.name.getD base.name
    engine := d.engine.getD base.engine
    hops := d.hops.getD base.hops }

end Rowflow.Reading
