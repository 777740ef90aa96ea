import Logbook.Config.Basic
import Logbook.Json.Decode

/-!
# Configurations in JSON

A configuration is an object. Parts that are missing have a default, but every
group has to name its sinks and the configuration its destinations; parts with
other names are refused. `Document.read` reads a configuration and
`Document.toJson` writes one, without the optional parts that are not there.
-/

namespace Logbook.Config

open Json (NamedPart Reader ReadError)

/-- A part that is read into its place in a draft, where `none` means that it was
    not read yet. A part with a default may be missing from an array. -/
def part (name : String) (get : σ → Option α) (set : α → σ → σ) (reader : Reader α)
    (standard : Option α) : NamedPart σ where
  name := name
  isSet draft := (get draft).isSome
  reader draft cs := (reader cs).map fun (value, rest) => (set value draft, rest)
  absent draft := standard.map fun value => set value draft

/-- The value of a part that has no default. -/
def required (name : String) (value : Option α) : Except ReadError α :=
  match value with
  | some value => .ok value
  | none => .error (Json.missingPart name)

def encoderReader : Reader EncoderChoice :=
  Json.variantReader
    [("structured", .bare .structured),
      ("template", .holding fun cs =>
        (Json.textReader "a string" cs).map fun (s, rest) => (.template s, rest))]

def sinkReader : Reader SinkChoice :=
  Json.variantReader
    [("stdout", .bare .stdout), ("stderr", .bare .stderr),
      ("file", .holding fun cs =>
        (Json.textReader "path string" cs).map fun (s, rest) => (.file s, rest))]

/-- A group of which some parts were read. -/
structure GroupChoiceDraft where
  encoder : Option EncoderChoice
  threshold : Option Level
  traceThreshold : Option (Option Level)
  levelColors : Option (List (Level × String))
  keepZeros : Option Bool
  flattenFields : Option Bool
  sinks : Option (List SinkChoice)

/-- The parts of a group in their order. -/
def groupParts : List (NamedPart GroupChoiceDraft) :=
  [part "encoder" (·.encoder) (fun v d => { d with encoder := some v }) encoderReader
      (some (.template "")),
    part "min_level" (·.threshold) (fun v d => { d with threshold := some v }) Level.jsonReader
      (some .debug),
    part "min_stacktrace_level" (·.traceThreshold) (fun v d => { d with traceThreshold := some v })
      (Json.optionReader Level.jsonReader) (some none),
    part "level_colors" (·.levelColors) (fun v d => { d with levelColors := some v })
      (Json.mapReader Level.ofJsonText (Json.textReader "a string") withColor []) (some []),
    part "allow_empty" (·.keepZeros) (fun v d => { d with keepZeros := some v }) Json.boolReader
      (some false),
    part "flatten_fields" (·.flattenFields) (fun v d => { d with flattenFields := some v })
      Json.boolReader (some false),
    part "sinks" (·.sinks) (fun v d => { d with sinks := some v }) (Json.listReader sinkReader)
      none]

def GroupChoiceDraft.finish (d : GroupChoiceDraft) : Except ReadError GroupChoice := do
  let sinks ← required "sinks" d.sinks
  .ok
    { encoder := d.encoder.getD (.template "")
      threshold := d.threshold.getD .debug
      traceThreshold := d.traceThreshold.getD none
      levelColors := d.levelColors.getD []
      keepZeros := d.keepZeros.getD false
      flattenFields := d.flattenFields.getD false
      sinks }

def groupReader : Reader GroupChoice := fun cs => do
  let (draft, rest) ←
    Json.structReader "DestinationConfig" groupParts
      ⟨none, none, none, none, none, none, none⟩ cs
  let group ← draft.finish
  .ok (group, rest)

/-- A configuration of which some parts were read. -/
structure DocumentDraft where
  poolCapacity : Option (Option Nat)
  destinations : Option (List GroupChoice)

/-- The parts of a configuration in their order. -/
def documentParts : List (NamedPart DocumentDraft) :=
  [part "pool_capacity" (·.poolCapacity) (fun v d => { d with poolCapacity := some v })
      (Json.optionReader (Json.naturalReader "usize")) (some none),
    part "destinations" (·.destinations) (fun v d => { d with destinations := some v })
      (Json.listReader groupReader) none]

/-- The reader of a configuration. -/
def documentReader : Reader Document := fun cs => do
  let (draft, rest) ← Json.structReader "RouterConfig" documentParts ⟨none, none⟩ cs
  let destinations ← required "destinations" draft.destinations
  .ok ({ poolCapacity := draft.poolCapacity.getD none, destinations }, rest)

/-- The configuration of a text. -/
def Document.read (s : String) : Except ReadError Document := Json.readAll documentReader s.toList

def EncoderChoice.toJson : EncoderChoice → Json
  | structured => .text "structured"
  | template s => .object [("template", .text s)]

def SinkChoice.toJson : SinkChoice → Json
  | stdout => .text "stdout"
  | stderr => .text "stderr"
  | file path => .object [("file", .text path)]

/-- The member of a part that may be missing. -/
def member (name : String) (value : Option Json) : List (String × Json) :=
  (value.map fun v => (name, v)).toList

def GroupChoice.toJson (d : GroupChoice) : Json :=
  .object <|
    [("encoder", d.encoder.toJson), ("min_level", d.threshold.toJson)] ++
    member "min_stacktrace_level" (d.traceThreshold.map Level.toJson) ++
    member "level_colors"
      (if d.levelColors.isEmpty then none
      else some (.object (d.levelColors.map fun (level, spec) => (level.lowerName, .text spec)))) ++
    [("allow_empty", .bool d.keepZeros), ("flatten_fields", .bool d.flattenFields),
      ("sinks", .array (d.sinks.map SinkChoice.toJson))]

/-- A configuration in JSON. -/
def Document.toJson (c : Document) : Json :=
  .object <|
    member "pool_capacity" (c.poolCapacity.map fun n => .integer n) ++
    [("destinations", .array (c.destinations.map GroupChoice.toJson))]

end Logbook.Config
