import FlowAtlas.Request
import FlowAtlas.Text.Blank

/-! Typed commands: `crawl <path>`, where `--no-flow` may stand before or after the path and a colon
before the command. -/

namespace FlowAtlas.CrawlRequest

def commandWord : String := "crawl"

def flatFlag : String := "--no-flow"

def commandText (s : String) : String :=
  let s := Text.trim s
  if Text.startsWith s ":" then Text.trimStart (Text.dropStart s 1) else s

def pathAndFlag (arg : String) : String × Bool :=
  if arg = flatFlag then ("", true)
  else if Text.endsWith arg (" " ++ flatFlag) then
    (Text.trim (Text.dropEnd arg (" " ++ flatFlag).length), true)
  else if Text.startsWith arg (flatFlag ++ " ") then
    (Text.trim (Text.dropStart arg (flatFlag ++ " ").length), true)
  else (arg, false)

/-- The request that a typed text makes. A command without a path makes none. -/
def ofCommand? (s : String) : Option CrawlRequest :=
  let s := commandText s
  if s = commandWord ∨ Text.startsWith s (commandWord ++ " ") then
    let (path, flat) := pathAndFlag (Text.trim (Text.dropStart s commandWord.length))
    if path = "" then none else some ⟨path, flat⟩
  else none

end FlowAtlas.CrawlRequest
