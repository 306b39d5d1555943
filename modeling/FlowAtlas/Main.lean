import FlowAtlas.CommandLine
import FlowAtlas.Config.Yaml
import FlowAtlas.Parser.TreeFile
import FlowAtlas.Watch.Change

/-! The program. It takes the files that its arguments name into view, runs on what it has seen, and
prints and writes what the run says. -/

namespace FlowAtlas.Disk

/-- Where a path on the disk leads with every link followed. -/
inductive Place where
  | missing
  | denied
  | at (a : Address)

def placeOf (path : String) : IO Place := do
  match ← (IO.FS.realPath path).toBaseIO with
  | .ok real => return .at (Path.ofString real.toString).parts
  | .error (.permissionDenied ..) => return .denied
  | .error _ => return .missing

def isDirectory (path : String) : IO Bool := do
  (← IO.FS.realPath path).isDir

def namesIn? (path : String) : IO (Option (List String)) := do
  match ← ((IO.FS.realPath path) >>= (·.readDir)).toBaseIO with
  | .ok entries =>
    return some ((entries.toList.map (·.fileName)).filter fun name => !Crawler.isIgnored {} name)
  | .error _ => return none

def refuseSearch (fs : Files) (a : Address) : Files :=
  { fs with access := { fs.access with searchable := fun b => b ≠ a && fs.access.searchable b } }

def refuseList (fs : Files) (a : Address) : Files :=
  { fs with access := { fs.access with listable := fun b => b ≠ a && fs.access.listable b } }

def refuseRead (fs : Files) (a : Address) (reason : String) : Files :=
  let unreadable b := if b = a then some reason else fs.access.unreadable b
  { fs with access := { fs.access with unreadable } }

/-- Takes what stands at an address into view. Links are seen but not followed. -/
partial def take (fs : Files) (a : Address) : IO Files := do
  let path := Address.text a
  match ← placeOf path with
  | .missing => return fs
  | .denied => return refuseSearch (fs.write a []) a.dropLast
  | .at real =>
    if real ≠ a then return fs.writeLink a (Address.text real)
    else if ← isDirectory path then
      let fs := fs.writeDirectory a
      match ← namesIn? path with
      | none => return refuseList fs a
      | some names => names.foldlM (fun fs name => take fs (a ++ [name])) fs
    else
      match ← (IO.FS.readBinFile path).toBaseIO with
      | .ok bytes => return fs.write a bytes.toList
      | .error (.permissionDenied ..) =>
        return refuseRead (fs.write a []) a (Fault.denied path).message
      | .error e => return refuseRead (fs.write a []) a (toString e)

def takeAlong (fs : Files) (here : Address) : List String → IO Files
  | [] => take fs here
  | ".." :: rest => takeAlong fs here.dropLast rest
  | name :: rest => do
    let a := here ++ [name]
    match ← placeOf (Address.text a) with
    | .missing => return fs
    | .denied => return refuseSearch fs here
    | .at real =>
      let fs := if real = a then fs else fs.writeLink a (Address.text real)
      takeAlong fs real rest

def homesOf (users : String) : List (String × Address) :=
  (Text.splitOnChar '\n' users).filterMap fun line =>
    match Text.splitOnChar ':' line with
    | [user, _, _, _, _, home, _] => some (user, (Path.ofString home).parts)
    | _ => none

def homes : IO (List (String × Address)) := do
  match ← (IO.FS.readFile "/etc/passwd").toBaseIO with
  | .ok users => return homesOf users
  | .error _ => return []

def environment (args : Arguments) : IO Environment := do
  let workingDirectory ←
    match ← placeOf "." with
    | .at a => pure a
    | _ => pure []
  let users ← homes
  let home := (Path.ofString ((← IO.getEnv "HOME").getD "/")).parts
  let bare : Environment :=
    { files := Files.empty.writeDirectory workingDirectory
      workingDirectory, home
      homeOf := fun user => users.lookup user
      parsers := .ofTreeFiles .empty
      yaml := Yaml.reader }
  let root := Path.ofString (Text.trim args.root)
  let root := (bare.expandHome root).toOption.getD root
  let configs := args.config.toList ++ configNames.map Path.ofString
  let files ← (configs ++ [root]).foldlM (fun fs p => takeAlong fs [] (bare.names p)) bare.files
  return { bare with files, parsers := .ofTreeFiles files }

def print (run : CommandLine.Run) : IO CommandLine.Run := do
  run.log.forM fun line => IO.println line
  (← IO.getStdout).flush
  return { run with log := [] }

def look (args : Arguments) (run : CommandLine.Run) : IO (Except Fault CommandLine.Run) := do
  let seen ← environment args
  let events := run.environment.files.changes seen.files
  return (.change (fun _ => seen) :: events.map .event).foldlM CommandLine.Run.incur run

partial def watch (args : Arguments) (run : CommandLine.Run) : IO Unit := do
  let now := (← IO.monoMsNow).toFloat / 1000
  match run.tick now with
  | .error fault => IO.eprintln fault.message
  | .ok run =>
    let run ← print run
    IO.sleep 100
    match ← look args run with
    | .error fault => IO.eprintln fault.message
    | .ok run => watch args run

def run (args : Arguments) : IO UInt32 := do
  match CommandLine.start (← environment args) args {} with
  | .error fault =>
    IO.eprintln fault.message
    return 1
  | .ok run =>
    if let some p := args.output then
      if let some bytes := run.environment.files.bytes? (run.environment.names p) then
        IO.FS.writeBinFile p.text ⟨bytes.toArray⟩
    let run ← print run
    if args.watch then
      watch args (← print run.beginWatch)
    return run.exit.toUInt32

end FlowAtlas.Disk

def main (words : List String) : IO UInt32 := do
  match FlowAtlas.Arguments.read words with
  | .run args => FlowAtlas.Disk.run args
  | .help =>
    IO.println FlowAtlas.Arguments.usage
    return 0
  | .refused =>
    IO.eprintln FlowAtlas.Arguments.usage
    return 2
