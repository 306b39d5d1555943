import FlowAtlas.Crawl.Merge
import FlowAtlas.Crawl.Prune
import FlowAtlas.Crawl.Selection
import FlowAtlas.Environment

/-! Crawling a directory: every file of the program is read with the parser of its language, and the
flows of all files become one graph. -/

namespace FlowAtlas

structure Crawl where
  graph : Graph
  sources : SourceMap
  log : List String

namespace Crawl

def empty (log : List String) : Crawl :=
  ⟨.empty, .empty, log⟩

def assemble (files : List CrawledFile) : Graph.Pruning × SourceMap :=
  let merged := CrawlGraph.merge (.ofFiles files) files
  (merged.graph.dropDangling.prune, merged.sources)

end Crawl

namespace Crawler

/-- The language that a file below the root is read in; none for tests. -/
def readAs? (names : List String) : Option Language :=
  match languageOf? (names.getLast?.getD "") with
  | none => none
  | some l => if isTestFile names then none else some l

/-- What reading a file gives: its flow, if it can be read as text, and the messages about it. -/
def readFile (c : Crawler) (parsers : Parsers) (suppress : Bool) (root : Address)
    (names : List String) (contents : Except String (List UInt8)) :
    Option CrawledFile × List String :=
  match readAs? names with
  | none => (none, [])
  | some l =>
    let path := Text.joinWith "/" names
    let decoded := contents.bind fun bytes =>
      (Text.Utf8.decode bytes).mapError Text.Utf8.Failure.message
    match decoded with
    | .error reason =>
      (none,
        if c.verbose then
          ["CrawlerRouter Warning: Could not read " ++ path ++ ": " ++ reason ++ ". Skipping."]
        else [])
    | .ok decoded =>
      let text := String.ofList (Text.unifyBreaks decoded.toList)
      let flow := parsers.flow l suppress text
      (some ⟨path, Address.text (root ++ names), flow⟩,
        parsers.log l suppress c.verbose text ++
          if c.verbose then
            ["CrawlerRouter: Parsed " ++ path ++ " (" ++ toString flow.graph.size ++ " nodes)."]
          else [])

def ambiguous (index : NameIndex) : List String :=
  sortTexts ((index.entries.filter fun (_, paths) => 1 < paths.length).map Prod.fst)

def ambiguityLog (names : List String) : List String :=
  if names.isEmpty then []
  else
    ["CrawlerRouter: " ++ toString names.length ++ " names declared in more than one file: " ++
      Text.joinWith ", " (names.take 10)]

def readAll (c : Crawler) (env : Environment) (suppress : Bool) (root : Address) :
    List (Option CrawledFile × List String) :=
  (c.candidates env.files root).map fun (names, bytes) =>
    c.readFile env.parsers suppress root names (env.files.contents (root ++ names) bytes)

def gather (c : Crawler) (env : Environment) (suppress : Bool) (root : Address) : Crawl :=
  let read := c.readAll env suppress root
  let files := read.filterMap Prod.fst
  let (pruning, sources) := Crawl.assemble files
  { graph := pruning.graph
    sources := sources
    log := read.flatMap Prod.snd ++
      if c.verbose then
        ambiguityLog (ambiguous (.ofFiles files)) ++
          ["CrawlerRouter: " ++ toString files.length ++ " files, " ++
            toString pruning.graph.size ++ " nodes, pruned " ++ toString pruning.removed ++
            " empty decision nodes."]
      else [] }

def faultAt (a : Address) : Fault :=
  if Path.textLimit < (Address.text a).utf8ByteSize then .nameTooLong (Address.text a)
  else .denied (Address.text a)

/-- Crawls a directory. The first file or link that cannot be looked up stops the crawl. -/
def crawlDirectory (c : Crawler) (env : Environment) (suppress : Bool) (root : Address) :
    Except Fault Crawl :=
  match c.unseen env.files root with
  | names :: _ => .error (faultAt (root ++ names))
  | [] => .ok (c.gather env suppress root)

/-- Crawls the directory that a text names. A text that names none has an empty graph. -/
def crawl (c : Crawler) (env : Environment) (root : String) (suppress : Bool) :
    Except Fault Crawl :=
  if Text.isAllBlank root then .ok (.empty [])
  else
    match env.directory? root with
    | .error fault => .error fault
    | .ok none =>
      .ok (.empty
        (if c.verbose then ["CrawlerRouter: Path not found or not a directory: " ++ root] else []))
    | .ok (some directory) => c.crawlDirectory env suppress directory

end Crawler
end FlowAtlas
