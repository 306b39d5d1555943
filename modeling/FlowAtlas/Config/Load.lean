import FlowAtlas.Config.Merge
import FlowAtlas.Config.Settings
import FlowAtlas.Environment

/-! Loading the configuration: the file that is asked for, else the first of the usual ones in the
working directory, laid over the defaults. -/

namespace FlowAtlas

def configNames : List String :=
  ["flowcrawl.yaml", "flowcrawl.yml", "config.yaml", "config.yml"]

structure LoadedConfig where
  config : Value
  log : List String

namespace LoadedConfig

structure Candidate where
  name : String
  contents : Except String (List UInt8)

/-- The file that a path leads to. -/
def candidate? (env : Environment) (p : Path) : Except Fault (Option Candidate) :=
  (env.stat? p).map fun found =>
    match found with
    | some (a, .file bytes) => some ⟨p.text, env.files.contents a bytes⟩
    | _ => none

def usual? (env : Environment) : List String → Except Fault (Option Candidate)
  | [] => .ok none
  | name :: rest =>
    match candidate? env ⟨"/", env.workingDirectory ++ [name]⟩ with
    | .ok none => usual? env rest
    | found => found

def chosen? (env : Environment) (asked : Option Path) : Except Fault (Option Candidate) :=
  match asked with
  | none => usual? env configNames
  | some p =>
    match candidate? env p with
    | .ok none => usual? env configNames
    | found => found

def choiceLog (env : Environment) (asked : Option Path) : List String :=
  match asked with
  | none => []
  | some p =>
    match candidate? env p with
    | .ok none =>
      ["ConfigLoader Warning: Config file " ++ p.text ++
        " not found. Looking in the working directory."]
    | _ => []

def asksVerbose (config : Value) : Except Fault Bool :=
  match config with
  | .map fields =>
    (((Value.fieldOf? "general" fields).getD (.map [])).get? "verbose").map fun v =>
      (v.getD .null).isTrue
  | _ => .ok false

def ofRead (name : String) (verbose : Bool) (read : Option Value) : Except Fault LoadedConfig :=
  match read with
  | none =>
    .ok ⟨.defaults,
      ["ConfigLoader Warning: Error parsing YAML config file " ++ name ++
        ": <yaml error>. Using defaults."]⟩
  | some v =>
    let (config, log) :=
      match v with
      | .map _ => (Value.overlay (some .defaults) v, [])
      | .null => (Value.defaults, [])
      | _ =>
        (Value.defaults,
          ["ConfigLoader Warning: " ++ name ++ " does not contain a mapping. Using defaults."])
    let loaded := ["ConfigLoader: Loaded configuration from " ++ name]
    if verbose then .ok ⟨config, log ++ loaded⟩
    else (asksVerbose config).map fun asked => ⟨config, log ++ if asked then loaded else []⟩

/-- What is made of a file. One that cannot be read leaves the defaults. -/
def ofCandidate (env : Environment) (verbose : Bool) (c : Candidate) : Except Fault LoadedConfig :=
  match c.contents with
  | .error reason =>
    .ok ⟨.defaults,
      ["ConfigLoader Warning: Error reading config file " ++ c.name ++ ": " ++ reason ++
        ". Using defaults."]⟩
  | .ok bytes => (env.yaml.value? bytes).bind (ofRead c.name verbose)

def load (env : Environment) (asked : Option Path) (verbose : Bool) : Except Fault LoadedConfig :=
  match chosen? env asked with
  | .error fault => .error fault
  | .ok none =>
    .ok ⟨.defaults, choiceLog env asked ++
      if verbose then
        ["ConfigLoader Info: No user config file provided or found in default locations. " ++
          "Using built-in defaults."]
      else []⟩
  | .ok (some c) =>
    (ofCandidate env verbose c).map fun loaded =>
      { loaded with log := choiceLog env asked ++ loaded.log }

end LoadedConfig
end FlowAtlas
