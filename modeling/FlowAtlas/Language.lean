import FlowAtlas.Text.Search

/-! The languages that a crawl reads, and the file name extensions that select them. -/

namespace FlowAtlas

inductive Language where
  | rust
  | python
  | typescript
  | tsx
  deriving DecidableEq, Repr

namespace Language

def all : List Language :=
  [rust, python, typescript, tsx]

theorem mem_all (l : Language) : l ∈ all := by
  cases l <;> decide

def name : Language → String
  | rust => "rust"
  | python => "python"
  | typescript => "typescript"
  | tsx => "tsx"

def parserName : Language → String
  | rust => "RustParser"
  | python => "PythonParser"
  | typescript => "TypeScriptParser"
  | tsx => "TsxParser"

def extensions : Language → List String
  | rust => [".rs"]
  | python => [".py", ".pyi"]
  | typescript => [".ts", ".mts", ".cts"]
  | tsx => [".tsx"]

def supportedExtensions : List String :=
  all.flatMap extensions

def ofExtension? (extension : String) : Option Language :=
  all.find? fun l => l.extensions.contains (Text.lowerAscii extension)

end Language
end FlowAtlas
