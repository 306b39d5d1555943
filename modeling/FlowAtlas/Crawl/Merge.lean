import FlowAtlas.FileFlow

/-! One graph from the flows of many files. Ids take the path of their file in front, and a call leads
to every file that declares its callee. -/

namespace FlowAtlas

/-- A file that has been read: its path below the root of the crawl, its full path, and its flow. -/
structure CrawledFile where
  path : String
  fullPath : String
  flow : FileFlow

/-- For each declared name, the paths of the files that declare it, each once and in their order. -/
abbrev NameIndex := Table String (List String)

namespace NameIndex

def declare (index : NameIndex) (path name : String) : NameIndex :=
  index.alter name fun old =>
    let paths := old.getD []
    if path ∈ paths then paths else paths ++ [path]

def addFile (index : NameIndex) (f : CrawledFile) : NameIndex :=
  f.flow.graph.functions.foldl (fun index name => index.declare f.path name) index

def ofFiles (files : List CrawledFile) : NameIndex :=
  files.foldl addFile .empty

/-- The edges that an edge of a file becomes. A decision belongs to its file; any other target leads
to each file that declares it. -/
def resolve (index : NameIndex) (path : String) (e : Edge) : List Edge :=
  if NodeId.isDecision e.target then [⟨NodeId.inFile path e.target, e.label⟩]
  else (index.findD e.target []).map fun declaring => ⟨NodeId.inFile declaring e.target, e.label⟩

end NameIndex

structure CrawlGraph where
  graph : Graph
  sources : SourceMap

namespace CrawlGraph

def empty : CrawlGraph :=
  ⟨.empty, .empty⟩

def addNode (index : NameIndex) (f : CrawledFile) (c : CrawlGraph) (node : NodeId × List Edge) :
    CrawlGraph :=
  let key := NodeId.inFile f.path node.1
  { graph := c.graph.alter key fun old =>
      old.getD [] ++ node.2.flatMap (index.resolve f.path)
    sources :=
      match NodeId.isDecision node.1, f.flow.lines.find? node.1 with
      | false, some line => c.sources.insert key ⟨f.fullPath, line⟩
      | _, _ => c.sources }

def addFile (index : NameIndex) (c : CrawlGraph) (f : CrawledFile) : CrawlGraph :=
  f.flow.graph.entries.foldl (addNode index f) c

def merge (index : NameIndex) (files : List CrawledFile) : CrawlGraph :=
  files.foldl (addFile index) empty

end CrawlGraph
end FlowAtlas
