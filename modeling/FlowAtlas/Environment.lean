import FlowAtlas.Config.Yaml.Reader
import FlowAtlas.Fault
import FlowAtlas.Files
import FlowAtlas.Parser

/-! The surroundings of a request: the files, where relative paths start, the home directories, and what
reads texts. -/

namespace FlowAtlas

structure Environment where
  files : Files
  workingDirectory : Address
  home : Address
  homeOf : String → Option Address := fun _ => none
  parsers : Parsers
  yaml : YamlReader

namespace Environment

def names (env : Environment) (p : Path) : List String :=
  if p.isAbsolute then p.parts else env.workingDirectory ++ p.parts

def find (env : Environment) (p : Path) : Except Files.Obstacle Address :=
  if p.hasNull then .error .missing
  else if Path.textLimit < p.text.utf8ByteSize then .error .tooLong
  else env.files.find (env.names p)

/-- The entry that a path leads to with its address, if there is one. Of some paths this cannot be told. -/
def stat? (env : Environment) (p : Path) : Except Fault (Option (Address × Entry)) :=
  match env.find p with
  | .ok a => .ok ((env.files.entryAt a).map (a, ·))
  | .error .missing | .error .linkLoop => .ok none
  | .error .denied => .error (.denied p.text)
  | .error .tooLong => .error (.nameTooLong p.text)

def directoryAt? (env : Environment) (p : Path) : Except Fault (Option Address) :=
  (env.stat? p).map fun found =>
    found.bind fun (a, e) => if e = .directory then some a else none

/-- Where a path leads with every link replaced. That need not exist, but it has to be a place that a
file can have. -/
def resolve (env : Environment) (p : Path) : Except Fault Address :=
  if p.hasNull then .error .nullInPath
  else
    let a := env.files.realAddress (env.names p)
    match env.find ⟨"/", a⟩ with
    | .error .linkLoop => .error (.linkLoop (Address.text a))
    | _ => .ok a

def expandHome (env : Environment) (p : Path) : Except Fault Path :=
  match p.parts with
  | first :: rest =>
    if !p.isAbsolute && Text.startsWith first "~" then
      match if first = "~" then some env.home else env.homeOf (Text.dropStart first 1) with
      | some home => .ok ⟨"/", home ++ rest⟩
      | none => .error .unknownHome
    else .ok p
  | [] => .ok p

def directory? (env : Environment) (text : String) : Except Fault (Option Address) :=
  (env.expandHome (.ofString text)).bind env.directoryAt?

end Environment
end FlowAtlas
