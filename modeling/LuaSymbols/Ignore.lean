import LuaSymbols.Glob
import LuaSymbols.Text.Blank
import LuaSymbols.Text.Utf8

namespace LuaSymbols

structure IgnoreRule where
  negated : Bool
  /-- Whether the pattern is about the whole path and not about the last name only. -/
  wholePath : Bool
  pattern : List Char
deriving DecidableEq, Repr

namespace IgnoreRule

def ofLine (line : List Char) : IgnoreRule :=
  let body := (((line.dropWhile (· == '!')).reverse).dropWhile (· == '/')).reverse
  let wholePath := body.contains '/'
  { negated := line.head? == some '!'
    wholePath := wholePath
    pattern := if wholePath then body.dropWhile (· == '/') else body }

/-- The rules of an ignore file. Empty lines and remarks are none. -/
def ofText (cs : List Char) : List IgnoreRule :=
  ((splitLines cs).map trimBlank).filterMap fun line =>
    if line.isEmpty || line.head? == some '#' then none else some (ofLine line)

def ofBytes (bytes : List UInt8) : List IgnoreRule :=
  ofText (Newlines.unify (Utf8.decode bytes))

def lastName (path : List Char) : List Char :=
  (path.reverse.takeWhile (· != '/')).reverse

def applies (r : IgnoreRule) (path : List Char) : Bool :=
  globMatches r.pattern (if r.wholePath then path else lastName path)

end IgnoreRule

/-- A path as rules see it: names with slashes between them, and slashes for backslashes. -/
def rulePath (names : List String) : List Char :=
  ("/".intercalate names).toList.map fun c => if c == '\\' then '/' else c

/-- Whether rules pass over a path: the last rule about it decides. -/
def isIgnored (rules : List IgnoreRule) (names : List String) : Bool :=
  rules.foldl (fun ignored r => if r.applies (rulePath names) then !r.negated else ignored) false

end LuaSymbols
