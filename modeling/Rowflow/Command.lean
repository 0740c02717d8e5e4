import Rowflow.Engine.Injection
import Rowflow.Pipeline.File
import Rowflow.Row.Json

/-!
# The command line

`Command.run` runs the pipeline in a file. The arguments after the file are texts that are injected,
as rows with the single field `value`, into every transform that takes rows from outside, one
transform after the other. The rows that the transforms without successors wrote are printed, and
then how every worker ended. The exit code is zero only if the run finished without errors.
-/

namespace Rowflow

/-- The texts of an error and of what has caused it. -/
def ExecutionError.causes (e : ExecutionError) : List String :=
  match e with
  | .initFailed _ error => [e.render, error.render]
  | e => [e.render]

namespace Command

/-- What a command leaves behind: what it printed, what it complained about, and its exit code. -/
structure Outcome where
  output : List String := []
  complaints : List String := []
  code : UInt32 := 0
  deriving Repr

/-! ### Messages -/

/-- How the command is used. -/
def usage (program : String) : Outcome where
  complaints := [
    "Usage: " ++ program ++ " <pipeline.yaml|pipeline.toml> [value ...]",
    "Example: " ++ program ++ " configs/linear-doubling.yaml",
    "Example: " ++ program ++ " configs/injected-filter.toml 4 12 x 40"]
  code := 2

/-- A text whose lines stand behind a first and further indentations. -/
def indented (first further text : String) : String :=
  first ++ String.intercalate ("\n" ++ further) (text.splitOn "\n")

/-- The number of a cause, at the end of five columns. -/
def causeNumber (n : Nat) : String :=
  let digits := Nat.toDigits 10 n
  String.ofList (List.replicate (5 - digits.length) ' ' ++ digits) ++ ": "

/-- A failure with what has caused it; several causes are numbered. -/
def failure (text : String) (causes : List String) : List String :=
  match causes with
  | [] => ["Error: " ++ text]
  | [cause] => ["Error: " ++ text, "", "Caused by:", indented "    " "    " cause]
  | causes =>
    ["Error: " ++ text, "", "Caused by:"] ++
      causes.zipIdx.map fun (cause, n) => indented (causeNumber n) "       " cause

/-- The outcome of a failure after what has been printed and complained about. -/
def failed (output complaints : List String) (text : String) (causes : List String) : Outcome where
  output
  complaints := complaints ++ failure text causes
  code := 1

/-- The outcome of a failure that says all by itself. -/
def failedAlone (output : List String) (causes : List String) : Outcome :=
  failed output [] (causes.headD "") (causes.drop 1)

/-- What is printed before a run. -/
def heading (p : Pipeline) (file : String) : List String :=
  ["📋 Pipeline: " ++ p.name ++ " (" ++ file ++ ")",
    "🔧 Transforms: " ++ Text.showNat p.transforms.length ++ ", hops: " ++
      Text.showNat p.enabledHops.length]

/-- The lines about one worker. -/
def summaryLines (s : Summary) : List String :=
  let c := s.counters
  ("  " ++ s.worker.render ++ " [" ++ s.status.title ++ "] read=" ++ Text.showNat c.read.toNat ++
      " written=" ++ Text.showNat c.written.toNat ++ " rejected=" ++
      Text.showNat c.rejected.toNat ++ " errors=" ++ Text.showNat c.errors.toNat) ::
    match s.error with
    | some e => ["     ❌ " ++ e]
    | none => []

/-- What is printed about a result. -/
def resultLines (r : RunResult) (took : Duration) : List String :=
  ["", "📊 Execution Results:", "⏱️  Execution Time: " ++ took.render,
    "🏁 Status: " ++ r.status.title, "", "🔄 Transforms:"] ++ r.reports.flatMap summaryLines

/-- The lines with the rows that were written, by the transforms they come from. -/
def rowLines (collected : List (String × Collector)) : List String :=
  collected.flatMap fun (id, c) =>
    c.written.toList.map fun e => "  " ++ id ++ " " ++ (e.row.toJson e.layout).render

/-! ### Running -/

/-- The run of a command. -/
abbrev Run := Orchestrator Builtin

/-- The layout of injected rows. -/
def injectedLayout : Layout := ⟨[{ name := "value", kind := .string }]⟩

/-- Attaches a collector to each of some transforms, in order. -/
def listen (o : Run) : List String → Run × Except ExecutionError Unit
  | [] => (o, .ok ())
  | id :: rest =>
    let i := o.world.shared.collectors.size
    let shared := { o.world.shared with collectors := o.world.shared.collectors.push {} }
    match ({ o with world := { o.world with shared } } : Run).addListener id { collector := i } with
    | (o, .ok ()) => listen o rest
    | (o, .error e) => (o, .error e)

/-- Takes the injection points of some transforms. -/
def takeProducers (o : Run) : List String → Run × Except ExecutionError (List (String × Nat))
  | [] => (o, .ok [])
  | id :: rest =>
    match o.rowProducer id with
    | (o, .error e) => (o, .error e)
    | (o, .ok i) =>
      match takeProducers o rest with
      | (o, .ok producers) => (o, .ok ((id, i) :: producers))
      | (o, .error e) => (o, .error e)

/-- Injects texts at one point. -/
def injectAll (o : Run) (i : Nat) : List String → Run × Except RowSetError Unit
  | [] => (o, .ok ())
  | s :: rest =>
    match o.inject i ⟨injectedLayout, ⟨[.string s]⟩⟩ with
    | (o, .ok _) => injectAll o i rest
    | (o, .error e) => (o, .error e)

/-- Injects texts at one point after the other, each of which is then ended. A failure ends all of
them; it is told with the transform it came from. -/
def injectEverywhere (o : Run) (texts : List String) :
    List (String × Nat) → Run × Option (String × RowSetError)
  | [] => (o, none)
  | (id, i) :: rest =>
    match injectAll o i texts with
    | (o, .ok ()) => injectEverywhere (o.endInjection i) texts rest
    | (o, .error e) =>
      (((id, i) :: rest).foldl (fun o (_, i) => o.endInjection i) o, some (id, e))

/-- Starts a prepared run, injects texts, waits and tells what happened. -/
def finish (o : Run) (terminals : List String) (producers : List (String × Nat))
    (texts output : List String) : Outcome :=
  match o.start with
  | (_, .error e) => failed output [] "starting pipeline" e.causes
  | (o, .ok ()) =>
    let since := o.world.shared.clock
    let (o, problem) := injectEverywhere o texts producers
    let complaints :=
      match problem with
      | some (id, e) => ["⚠️  Injection into " ++ id ++ " stopped: " ++ e.render]
      | none => []
    match o.wait with
    | (_, .error p) => { output, complaints := complaints ++ [p.render], code := 101 }
    | (_, .ok (.error e)) => failed output complaints "waiting for pipeline" e.causes
    | (o, .ok (.ok result)) =>
      let took : Duration := ⟨(o.world.shared.clock - since) * 1000⟩
      { output := output ++ ["", "📤 Output:"] ++
          rowLines (terminals.zip o.world.shared.collectors.toList) ++ resultLines result took
        complaints
        code := if result.isSuccess then 0 else 1 }

/-- Runs a pipeline that has been read. -/
def runPipeline (p : Pipeline) (file : String) (texts : List String) : Outcome :=
  let points := (p.transforms.filter (·.inject)).map (·.id)
  if !texts.isEmpty && points.isEmpty then
    failed [] [] (file ++ " has no injection transform (\x60inject: true\x60) to receive " ++
      Text.showNat texts.length ++ " value(s)") []
  else
    match Orchestrator.new p (.builtins id) with
    | .error e => failed [] [] "building pipeline" e.causes
    | .ok o =>
      let output := heading p file
      match o.prepare with
      | (_, .error e) => failed output [] "preparing pipeline" e.causes
      | (o, .ok ()) =>
        let terminals := (HopGraph.ofPipeline p).terminals
        match listen o terminals with
        | (_, .error e) => failedAlone output e.causes
        | (o, .ok ()) =>
          match takeProducers o points with
          | (_, .error e) => failedAlone output e.causes
          | (o, .ok producers) => finish o terminals producers texts output

/-- Runs a command: its name, its arguments, and the bytes of the file that the first one names. -/
def run (program : String) (arguments : List String) (bytes : Except ReadFailure ByteArray) :
    Outcome :=
  match arguments with
  | [] => usage program
  | file :: texts =>
    match Pipeline.ofFile file bytes with
    | .error e => failed [] [] ("loading " ++ file) e.causes
    | .ok p => runPipeline p file texts

end Command

end Rowflow
