import FlowAtlas.Config.Value
import FlowAtlas.Crawl
import FlowAtlas.Levels
import FlowAtlas.Request

/-! What a request for a crawl comes to. -/

namespace FlowAtlas

def CrawlRequest.place (r : CrawlRequest) : String :=
  Text.trim r.root

structure Outcome where
  request : CrawlRequest
  graph : Graph := .empty
  sources : SourceMap := .empty
  levels : Table NodeId Nat := .empty
  status : String
  ok : Bool := false

namespace Outcome

def notFound (r : CrawlRequest) : Outcome where
  request := r
  status := "crawl: path not found: " ++ r.place

def crawledStatus (place : String) (g : Graph) : String :=
  "Crawled " ++ toString g.size ++ " nodes (" ++ toString g.functions.length ++ " functions), " ++
    toString g.edgeCount ++ " edges from " ++ place

def ofCrawl (r : CrawlRequest) (c : Crawl) : Outcome :=
  if c.graph.isEmpty then
    { request := r
      sources := c.sources
      status := "crawl: no functions found in " ++ r.place }
  else
    { request := r
      graph := c.graph
      sources := c.sources
      levels := c.graph.levels c.graph.nodeIds
      status := crawledStatus r.place c.graph
      ok := true }

def layoutLog (c : Crawl) (verbose : Bool) : List String :=
  if c.graph.isEmpty then [] else (c.graph.relaxation c.graph.nodeIds).log verbose

def inOrder {α : Type} (t : Table String α) (f : α → Value) : Value :=
  .map ((t.entries.mergeSort fun a b => decide (a.1 ≤ b.1)).map fun (key, v) => (.text key, f v))

def edgeValue (e : Edge) : Value :=
  .map
    [("target", .text e.target),
     ("label",
      match e.label with
      | none => .null
      | some label => .text label)]

def siteValue (site : Site) : Value :=
  .map [("file", .text site.file), ("line", .int site.line)]

def toValue (o : Outcome) : Value :=
  .map
    [("root_path", .text o.request.root),
     ("suppress_decisions", .bool o.request.suppress),
     ("status", .text o.status),
     ("graph", inOrder o.graph fun es => .list (es.map edgeValue)),
     ("source_map", inOrder o.sources siteValue),
     ("levels", inOrder o.levels fun level => .int level)]

end Outcome
end FlowAtlas
