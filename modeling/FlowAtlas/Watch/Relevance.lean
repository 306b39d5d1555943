import FlowAtlas.Crawl.Selection
import FlowAtlas.Watch.Handler

/-! Which paths below a crawled directory can matter to its crawl. -/

namespace FlowAtlas

def Crawler.mayRead (c : Crawler) (names : List String) : Bool :=
  !names.dropLast.any c.isIgnored && !isTestFile names

/-- Whether a path leads below the root to what a crawl may read. A path that no file can have leads
nowhere. -/
def Crawler.isRelevant (c : Crawler) (root : Address) (env : Environment) (p : Path) :
    Except Fault Bool :=
  match env.resolve p with
  | .ok a => .ok (root.isPrefixOf a && c.mayRead (a.drop root.length))
  | .error .nullInPath => .ok false
  | .error fault => .error fault

def Crawler.handler (c : Crawler) (root : Address) (channel : Nat) : Handler where
  extensions := Language.supportedExtensions
  relevant := c.isRelevant root
  channel

end FlowAtlas
