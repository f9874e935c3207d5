namespace LuaSymbols

/-- The names from the root of the file system down to a file or directory. A name is a text of whole
characters, so bytes of a name that encode none are not told apart. -/
abbrev FilePath := List String

structure RegularFile where
  bytes : List UInt8
  refusal : Option String

namespace RegularFile

def size (f : RegularFile) : Nat := f.bytes.length

def read (f : RegularFile) : Except String (List UInt8) :=
  match f.refusal with
  | none => .ok f.bytes
  | some reason => .error reason

end RegularFile

inductive Entry where
  | file (f : RegularFile)
  | link (target : String)
  | directory (entries : List (String × Entry))

namespace Entry

instance : Inhabited Entry := ⟨.directory []⟩

/-- The entry at a path below this one. Links are not followed. -/
def find? : FilePath → Entry → Option Entry
  | [], e => some e
  | name :: rest, .directory entries =>
    match entries.find? fun entry => entry.1 == name with
    | some (_, e) => find? rest e
    | none => none
  | _ :: _, _ => none

def putName (name : String) (e : Entry) : List (String × Entry) → List (String × Entry)
  | [] => [(name, e)]
  | (n, old) :: rest => if n == name then (n, e) :: rest else (n, old) :: putName name e rest

/-- Puts an entry at a path below this one, making the directories on the way. -/
def put (e : Entry) : FilePath → Entry → Entry
  | [], _ => e
  | name :: rest, .directory entries =>
    let inner := match entries.find? fun entry => entry.1 == name with
      | some (_, old) => old
      | none => .directory []
    .directory (putName name (put e rest inner) entries)
  | name :: rest, _ => .directory [(name, put e rest (.directory []))]

end Entry

def splitPath (path : String) : List String :=
  (path.toList.splitOn '/').map String.ofList

def isAbsolute (path : String) : Bool := path.toList.head? == some '/'

def FilePath.text (p : FilePath) : String := "/" ++ "/".intercalate p

structure FileSystem where
  root : Entry
  walkRefusal : Option String

namespace FileSystem

/-- Follows names from a directory without links on its path. A link is replaced by its target, at most
`links` times; names of nothing are kept. -/
def follow (fs : FileSystem) (links : Nat) (base : FilePath) (names : List String) : FilePath :=
  match names with
  | [] => base
  | name :: rest =>
    if name == "" || name == "." then fs.follow links base rest
    else if name == ".." then fs.follow links base.dropLast rest
    else
      match links with
      | 0 => fs.follow 0 (base ++ [name]) rest
      | fewer + 1 =>
        match fs.root.find? (base ++ [name]) with
        | some (.link target) =>
          fs.follow fewer (if isAbsolute target then [] else base) (splitPath target ++ rest)
        | _ => fs.follow (fewer + 1) (base ++ [name]) rest
termination_by (links, names.length)

def mostLinks : Nat := 40

def resolve (fs : FileSystem) (cwd : FilePath) (path : String) : FilePath :=
  fs.follow mostLinks (if isAbsolute path then [] else cwd) (splitPath path)

def lookup? (fs : FileSystem) (path : FilePath) : Option Entry :=
  match fs.root.find? (fs.follow mostLinks [] path) with
  | some (.link _) | none => none
  | found => found

def file? (fs : FileSystem) (path : FilePath) : Option RegularFile :=
  match fs.lookup? path with
  | some (.file f) => some f
  | _ => none

def directory? (fs : FileSystem) (path : FilePath) : Option (List (String × Entry)) :=
  match fs.lookup? path with
  | some (.directory entries) => some entries
  | _ => none

end FileSystem

end LuaSymbols
