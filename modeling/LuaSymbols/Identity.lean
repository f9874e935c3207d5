namespace LuaSymbols.Identity

def scheme : List Char := "file:///".toList

/-- The separator after a drive letter, in its final spelling, with what follows it. -/
def separator? : List Char → Option (List Char × List Char)
  | ':' :: rest => some ([':'], rest)
  | '%' :: '3' :: 'A' :: rest | '%' :: '3' :: 'a' :: rest => some (['%', '3', 'A'], rest)
  | _ => none

def drive? : List Char → Option (List Char)
  | letter :: rest =>
    if letter.isAlpha then
      (separator? rest).map fun (separator, rest) => letter.toLower :: separator ++ rest
    else none
  | [] => none

/-- A leading drive in its final spelling, after the scheme if that stands first. -/
def foldDrive (cs : List Char) : List Char :=
  match (if scheme.isPrefixOf cs then drive? (cs.drop scheme.length) else none) with
  | some rest => scheme ++ rest
  | none => (drive? cs).getD cs

def foldSlashes (cs : List Char) : List Char :=
  cs.map fun c => if c = '\\' then '/' else c

def normalizeChars (cs : List Char) : List Char := foldDrive (foldSlashes cs)

end LuaSymbols.Identity

namespace LuaSymbols

/-- The identity of a document that is named by a URI or a path. Names are texts of whole characters:
a lone surrogate, which a `Text` can hold, has no place in a name. -/
def identityOf (uri : String) : String := String.ofList (Identity.normalizeChars uri.toList)

end LuaSymbols
