import FlowAtlas.Files
import FlowAtlas.Language
import FlowAtlas.Text.Wildcard

/-! Which files belong to a program: sources in a supported language, outside the directories that
hold tests or what tools have put there, and not named like a test. -/

namespace FlowAtlas

def toolDirectories : List String :=
  [".git", ".hg", ".svn", "__pycache__", ".venv", "venv", ".env", "env", "node_modules", "dist",
   "build", "target", ".next", "coverage", ".mypy_cache", ".pytest_cache", ".tox"]

def testDirectories : List String :=
  ["tests", "test", "__tests__"]

def testPatterns : List String :=
  ["test_*.py", "*_test.py", "conftest.py", "*_test.rs", "*.test.ts", "*.test.tsx", "*.spec.ts",
   "*.spec.tsx"]

/-- Whether a file at these names below the root is a test, by a directory above it or by its own
name. -/
def isTestFile (names : List String) : Bool :=
  names.dropLast.any testDirectories.contains ||
    testPatterns.any fun pattern => Text.fitsPattern pattern (names.getLast?.getD "")

def isTestPath (path : String) : Bool :=
  isTestFile (Path.ofString path).parts

def languageOf? (name : String) : Option Language :=
  Language.ofExtension? (extensionOf name)

structure Crawler where
  verbose : Bool := false
  extraIgnored : List String := []
  deriving DecidableEq, Repr

namespace Crawler

def isIgnored (c : Crawler) (name : String) : Bool :=
  toolDirectories.contains name || c.extraIgnored.contains name || testDirectories.contains name

end Crawler

/-- The order of a crawl: the files of a directory by name, then its directories by name. -/
def crawlLe : List String → List String → Bool
  | [], _ => true
  | _ :: _, [] => false
  | [a], [b] => decide (a ≤ b)
  | [_], _ :: _ :: _ => true
  | _ :: _ :: _, [_] => false
  | a :: as, b :: bs => if a = b then crawlLe as bs else decide (a ≤ b)

namespace Crawler

def meets (c : Crawler) (fs : Files) (root : Address) (names : List String) : Bool :=
  !names.dropLast.any c.isIgnored && fs.listsAlong root names.dropLast

def candidates (c : Crawler) (fs : Files) (root : Address) : List (List String × List UInt8) :=
  ((fs.filesUnder root).filter fun (names, _) => c.meets fs root names).mergeSort
    fun a b => crawlLe a.1 b.1

/-- The files and links that a crawl comes to and cannot look up, in its order. -/
def unseen (c : Crawler) (fs : Files) (root : Address) : List (List String) :=
  ((fs.leavesUnder root).filter fun names =>
    c.meets fs root names && !fs.reaches (root ++ names)).mergeSort crawlLe

end Crawler
end FlowAtlas
